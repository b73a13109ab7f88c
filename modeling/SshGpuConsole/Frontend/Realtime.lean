import SshGpuConsole.Lib.Runs
import SshGpuConsole.Frontend.SyncPlan

/-!
# The realtime connection

The websocket client of the console (`realtime.ts`) among the events of its sockets and timers. Sockets are numbered
as the factory makes them; their events may come late, after the client has left them. Of the four handlers
`onopen` and `onclose` ask whether their socket is still the current one and `onmessage` does not, so the client
behaves as one live connection exactly when no frame comes from a socket it has left (`one_live_iff`).
-/

namespace SshGpuConsole.Frontend
open Shell (Text)

inductive RealtimeState
  | connecting
  | live
  | reconnecting
  deriving DecidableEq, Repr

inductive ClientToServerFrame
  | select (server_id : Option Text)
  | ping
  deriving DecidableEq, Repr

inductive ReadyState
  | connecting
  | open
  | closing
  | closed
  deriving DecidableEq, Repr

def BACKOFF_BASE_MS : ℕ := 1000

def BACKOFF_MAX_MS : ℕ := 30000

def MAX_ATTEMPT : ℕ := 10

def backoffDelay (attempt : ℕ) : ℕ := min BACKOFF_MAX_MS (BACKOFF_BASE_MS * 2 ^ attempt)

/-- `RealtimeClient`. -/
structure RealtimeClient where
  socket : Option ℕ := none
  attempt : ℕ := 0
  stopped : Bool := true
  reconnectTimer : Option ℕ := none
  frameListeners : List ℕ := []
  intent : Option Text := none
  hasIntent : Bool := false
  deriving DecidableEq, Repr

/-- A frame that a listener was called with, and the socket it came from. -/
structure Delivery (φ : Type) where
  listener : ℕ
  socket : ℕ
  frame : φ
  deriving DecidableEq, Repr

/-- The client with its sockets and timers. -/
structure RealtimeWorld (φ : Type) where
  client : RealtimeClient := {}
  /-- The number of sockets made so far. -/
  sockets : ℕ := 0
  readyState : ℕ → ReadyState := fun _ => .connecting
  /-- The sockets that have reported a close, or were told to close. -/
  dropped : List ℕ := []
  /-- The timers that are armed, with their delays. -/
  timers : List (ℕ × ℕ) := []
  /-- The number of timers set so far. -/
  timersSet : ℕ := 0
  sent : List (ℕ × ClientToServerFrame) := []
  delivered : List (Delivery φ) := []
  states : List RealtimeState := []
  /-- The argument of the last `sendSelect`. -/
  selected : Option (Option Text) := none

namespace RealtimeWorld
variable {φ δ : Type} (w : RealtimeWorld φ)

/-! ### The methods -/

def emitState (state : RealtimeState) : RealtimeWorld φ := { w with states := w.states ++ [state] }

def send (frame : ClientToServerFrame) : RealtimeWorld φ :=
  match w.client.socket with
  | some socket => if w.readyState socket = .open then { w with sent := w.sent ++ [(socket, frame)] } else w
  | none => w

def clearTimer : RealtimeWorld φ :=
  match w.client.reconnectTimer with
  | some timer =>
    { w with client := { w.client with reconnectTimer := none }, timers := w.timers.filter (·.1 ≠ timer) }
  | none => w

/-- `setTimeout` in `scheduleReconnect`. -/
def armTimer (delay : ℕ) : RealtimeWorld φ :=
  { w with
    client := { w.client with reconnectTimer := some w.timersSet }
    timers := w.timers ++ [(w.timersSet, delay)]
    timersSet := w.timersSet + 1 }

def scheduleReconnect : RealtimeWorld φ :=
  let w := w.clearTimer
  let delay := backoffDelay w.client.attempt
  { w with client := { w.client with attempt := min (w.client.attempt + 1) MAX_ATTEMPT } }.armTimer delay

/-- `open`; `made` says whether the factory returns a socket or throws. -/
def openSocket (made : Bool) : RealtimeWorld φ :=
  if w.client.stopped then w
  else if made then { w with client := { w.client with socket := some w.sockets }, sockets := w.sockets + 1 }
  else w.scheduleReconnect

def start (made : Bool) : RealtimeWorld φ :=
  if w.client.stopped then
    ({ w with client := { w.client with stopped := false, attempt := 0 } }.emitState .connecting).openSocket made
  else w

/-- `close()` on a socket. -/
def closeSocket (socket : ℕ) : RealtimeWorld φ :=
  { w with readyState := Function.update w.readyState socket .closing, dropped := socket :: w.dropped }

def stop : RealtimeWorld φ :=
  let w := { w with client := { w.client with stopped := true } }.clearTimer
  match w.client.socket with
  | some socket => { w with client := { w.client with socket := none } }.closeSocket socket
  | none => w

def sendSelect (serverId : Option Text) : RealtimeWorld φ :=
  { w with
    client := { w.client with intent := serverId, hasIntent := true }
    selected := some serverId }.send (.select serverId)

/-! ### The handlers of a socket -/

def onopen (socket : ℕ) : RealtimeWorld φ :=
  if w.client.socket = some socket then
    let w := { w with client := { w.client with attempt := 0 } }.emitState .live
    if w.client.hasIntent then w.send (.select w.client.intent) else w
  else w

/-- `onmessage`: a frame goes to every listener, whatever socket it comes from. -/
def onmessage (parse : δ → Option φ) (socket : ℕ) (data : δ) : RealtimeWorld φ :=
  match parse data with
  | some frame => { w with delivered := w.delivered ++ w.client.frameListeners.map fun l => ⟨l, socket, frame⟩ }
  | none => w

def onclose (socket : ℕ) : RealtimeWorld φ :=
  if w.client.socket = some socket then
    let w := { w with client := { w.client with socket := none } }
    if w.client.stopped then w else (w.emitState .reconnecting).scheduleReconnect
  else w

end RealtimeWorld

/-! ### Events -/

inductive RealtimeEvent (δ : Type)
  | start (made : Bool)
  | stop
  | onFrame (listener : ℕ)
  | offFrame (listener : ℕ)
  | sendSelect (serverId : Option Text)
  | sendPing
  | opened (socket : ℕ)
  | message (socket : ℕ) (data : δ)
  | errored (socket : ℕ)
  | closed (socket : ℕ)
  | fired (timer : ℕ) (made : Bool)

namespace RealtimeWorld
variable {φ δ : Type} (parse : δ → Option φ) (w : RealtimeWorld φ)

/-- Events of sockets that were never made and of timers that are not armed are none. -/
def step : RealtimeEvent δ → RealtimeWorld φ
  | .start made => w.start made
  | .stop => w.stop
  | .onFrame listener =>
    if listener ∈ w.client.frameListeners then w
    else { w with client := { w.client with frameListeners := w.client.frameListeners ++ [listener] } }
  | .offFrame listener =>
    { w with client := { w.client with frameListeners := w.client.frameListeners.filter (· ≠ listener) } }
  | .sendSelect serverId => w.sendSelect serverId
  | .sendPing => w.send .ping
  | .opened socket =>
    if socket < w.sockets then { w with readyState := Function.update w.readyState socket .open }.onopen socket else w
  | .message socket data => if socket < w.sockets then w.onmessage parse socket data else w
  | .errored _ => w
  | .closed socket =>
    if socket < w.sockets then
      { w with
        readyState := Function.update w.readyState socket .closed
        dropped := socket :: w.dropped }.onclose socket
    else w
  | .fired timer made =>
    if timer ∈ w.timers.map Prod.fst then
      { w with
        client := { w.client with reconnectTimer := none }
        timers := w.timers.filter (·.1 ≠ timer) }.openSocket made
    else w

/-- The event leaves the client one live connection. -/
structure OneLive (e : RealtimeEvent δ) : Prop where
  current : ∀ socket, socket < (w.step parse e).sockets →
    (w.step parse e).client.socket = some socket ∨ socket ∈ (w.step parse e).dropped
  timer : (w.step parse e).timers.length ≤ 1
  exclusive : (w.step parse e).timers ≠ [] → (w.step parse e).client.socket = none
  started : w.sockets < (w.step parse e).sockets → (w.step parse e).client.stopped = false
  delivered : ∃ new, (w.step parse e).delivered = w.delivered ++ new ∧
    ∀ delivery ∈ new, w.client.socket = some delivery.socket ∧ w.client.stopped = false
  replayed : ∀ socket serverId, e = .opened socket → w.client.socket = some socket → w.selected = some serverId →
    (w.step parse e).sent = w.sent ++ [(socket, .select serverId)]

/-- A frame that somebody listens for comes from the current socket. -/
def Current : RealtimeEvent δ → Prop
  | .message socket data => socket < w.sockets → parse data ≠ none → w.client.frameListeners ≠ [] →
    w.client.socket = some socket
  | _ => True

/-! ### What every event keeps -/

/-- A timer and a current socket belong to a started client, which has at most one of the two. -/
structure Inv : Prop where
  current : ∀ socket, socket < w.sockets → w.client.socket = some socket ∨ socket ∈ w.dropped
  made : ∀ socket, w.client.socket = some socket → socket < w.sockets ∧ w.client.stopped = false ∧
    w.client.reconnectTimer = none
  timer : w.timers.map Prod.fst = w.client.reconnectTimer.toList
  stopped : w.client.stopped = true → w.client.reconnectTimer = none
  selected : w.selected = if w.client.hasIntent then some w.client.intent else none

variable {parse} {w} {w' : RealtimeWorld φ}

lemma Inv.initial : ({} : RealtimeWorld φ).Inv := by
  refine ⟨fun socket h => absurd h (Nat.not_lt_zero socket), fun socket h => ?_, rfl, fun _ => rfl, rfl⟩
  cases h

/-- What is sent, delivered and announced does not matter to the invariant. -/
lemma Inv.of_eq (h : w.Inv) (hclient : w'.client = w.client) (hsockets : w'.sockets = w.sockets)
    (hdropped : w'.dropped = w.dropped) (htimers : w'.timers = w.timers) (hselected : w'.selected = w.selected) :
    w'.Inv := by
  constructor
  · rw [hclient, hsockets, hdropped]
    exact h.current
  · rw [hclient, hsockets]
    exact h.made
  · rw [hclient, htimers]
    exact h.timer
  · rw [hclient]
    exact h.stopped
  · rw [hclient, hselected]
    exact h.selected

lemma send_cases (w : RealtimeWorld φ) (frame : ClientToServerFrame) :
    ∃ sent, w.send frame = { w with sent := sent } := by
  rw [send]
  split
  · split
    · exact ⟨_, rfl⟩
    · exact ⟨_, rfl⟩
  · exact ⟨_, rfl⟩

lemma Inv.send (h : w.Inv) (frame : ClientToServerFrame) : (w.send frame).Inv := by
  obtain ⟨sent, hsend⟩ := send_cases w frame
  rw [hsend]
  exact h.of_eq rfl rfl rfl rfl rfl

/-- `clearTimer` leaves no timer. -/
lemma Inv.clearTimer_eq (h : w.Inv) :
    w.clearTimer = { w with client := { w.client with reconnectTimer := none }, timers := [] } := by
  have htimer := h.timer
  rw [clearTimer]
  cases hpending : w.client.reconnectTimer with
  | none =>
    rw [hpending, Option.toList_none, List.map_eq_nil_iff] at htimer
    conv_rhs => rw [← htimer, ← hpending]
  | some timer =>
    rw [hpending, Option.toList_some] at htimer
    have hnil : w.timers.filter (·.1 ≠ timer) = [] := by
      apply List.filter_eq_nil_iff.2
      intro x hx
      have hmem : x.1 ∈ w.timers.map Prod.fst := List.mem_map_of_mem hx
      rw [htimer] at hmem
      simpa using List.mem_singleton.1 hmem
    rw [← hnil]

lemma Inv.no_timer (h : w.Inv) (hnone : w.client.reconnectTimer = none) : w.timers = [] := by
  have htimer := h.timer
  rw [hnone, Option.toList_none, List.map_eq_nil_iff] at htimer
  exact htimer

lemma Inv.scheduleReconnect (h : w.Inv) (hsocket : w.client.socket = none) (hstarted : w.client.stopped = false) :
    w.scheduleReconnect.Inv := by
  rw [RealtimeWorld.scheduleReconnect, h.clearTimer_eq]
  refine ⟨h.current, fun socket hcur => ?_, rfl, fun hstopped => ?_, h.selected⟩
  · cases hsocket.symm.trans hcur
  · cases hstarted.symm.trans hstopped

lemma Inv.openSocket (h : w.Inv) (hsocket : w.client.socket = none) (htimer : w.client.reconnectTimer = none)
    (made : Bool) : (w.openSocket made).Inv := by
  rw [RealtimeWorld.openSocket]
  split
  · exact h
  · rename_i hstarted
    rw [Bool.not_eq_true] at hstarted
    split
    · refine ⟨fun socket hlt => ?_, fun socket hcur => ?_, h.timer, h.stopped, h.selected⟩
      · rcases Nat.lt_succ_iff_lt_or_eq.1 hlt with hlt | rfl
        · exact .inr ((h.current socket hlt).resolve_left fun hcur => by cases hsocket.symm.trans hcur)
        · exact .inl rfl
      · cases hcur
        exact ⟨Nat.lt_succ_self _, hstarted, htimer⟩
    · exact h.scheduleReconnect hsocket hstarted

/-- A stopped client has no socket. -/
lemma Inv.socket_of_stopped (h : w.Inv) (hstopped : w.client.stopped = true) : w.client.socket = none := by
  cases hcur : w.client.socket with
  | none => rfl
  | some socket => cases (h.made socket hcur).2.1.symm.trans hstopped

lemma Inv.start (h : w.Inv) (made : Bool) : (w.start made).Inv := by
  rw [RealtimeWorld.start]
  split
  · rename_i hstopped
    have hsocket := h.socket_of_stopped hstopped
    have htimer := h.stopped hstopped
    apply Inv.openSocket
    · refine ⟨h.current, fun socket hcur => ?_, h.timer, fun _ => htimer, h.selected⟩
      cases hsocket.symm.trans hcur
    · exact hsocket
    · exact htimer
  · exact h

lemma Inv.stop (h : w.Inv) : w.stop.Inv := by
  have hclear : ({ w with client := { w.client with stopped := true } } : RealtimeWorld φ).clearTimer =
      { w with client := { w.client with stopped := true, reconnectTimer := none }, timers := [] } := by
    have hc := congrArg (fun w : RealtimeWorld φ => { w with client := { w.client with stopped := true } })
      h.clearTimer_eq
    rw [← hc, RealtimeWorld.clearTimer, RealtimeWorld.clearTimer]
    cases w.client.reconnectTimer <;> rfl
  rw [RealtimeWorld.stop, hclear]
  dsimp only
  split
  · rename_i socket hcur
    refine ⟨fun s hlt => ?_, fun s hs => ?_, rfl, fun _ => rfl, h.selected⟩
    · rcases h.current s hlt with hs | hs
      · cases hcur.symm.trans hs
        exact .inr List.mem_cons_self
      · exact .inr (List.mem_cons_of_mem _ hs)
    · cases hs
  · rename_i hcur
    refine ⟨h.current, fun s hs => ?_, rfl, fun _ => rfl, h.selected⟩
    cases hcur.symm.trans hs

lemma Inv.sendSelect (h : w.Inv) (serverId : Option Text) : (w.sendSelect serverId).Inv := by
  apply Inv.send
  exact ⟨h.current, h.made, h.timer, h.stopped, rfl⟩

lemma Inv.onopen (h : w.Inv) (socket : ℕ) : (w.onopen socket).Inv := by
  rw [RealtimeWorld.onopen]
  split
  · have hlive : (({ w with client := { w.client with attempt := 0 } } : RealtimeWorld φ).emitState .live).Inv :=
      ⟨h.current, h.made, h.timer, h.stopped, h.selected⟩
    dsimp only
    split
    · exact hlive.send _
    · exact hlive
  · exact h

lemma Inv.onclose (h : w.Inv) {socket : ℕ} (hdropped : socket ∈ w.dropped) : (w.onclose socket).Inv := by
  rw [RealtimeWorld.onclose]
  split
  · rename_i hcur
    obtain ⟨-, hstarted, htimer⟩ := h.made socket hcur
    dsimp only
    rw [if_neg (by rw [hstarted]; exact Bool.false_ne_true)]
    apply Inv.scheduleReconnect
    · refine ⟨fun s hlt => ?_, fun s hs => ?_, h.timer, h.stopped, h.selected⟩
      · rcases h.current s hlt with hs | hs
        · cases hcur.symm.trans hs
          exact .inr hdropped
        · exact .inr hs
      · cases hs
    · rfl
    · exact hstarted
  · exact h

/-- A timer that fires was the one pending. -/
lemma Inv.fired (h : w.Inv) {timer : ℕ} (hmem : timer ∈ w.timers.map Prod.fst) (made : Bool) :
    ({ w with
        client := { w.client with reconnectTimer := none }
        timers := w.timers.filter (·.1 ≠ timer) }.openSocket made).Inv := by
  have hpending : w.client.reconnectTimer = some timer := by
    rw [h.timer] at hmem
    exact Option.mem_toList.1 hmem
  have hsocket : w.client.socket = none := by
    cases hcur : w.client.socket with
    | none => rfl
    | some socket => cases hpending.symm.trans (h.made socket hcur).2.2
  have hclear := h.clearTimer_eq
  rw [clearTimer, hpending] at hclear
  have htimers : w.timers.filter (·.1 ≠ timer) = [] := congrArg RealtimeWorld.timers hclear
  apply Inv.openSocket
  · refine ⟨h.current, fun socket hcur => ?_, congrArg (List.map Prod.fst) htimers, fun _ => rfl, h.selected⟩
    cases hsocket.symm.trans hcur
  · exact hsocket
  · rfl

lemma Inv.step (h : w.Inv) (e : RealtimeEvent δ) : (w.step parse e).Inv := by
  cases e with
  | start made => exact h.start made
  | stop => exact h.stop
  | onFrame listener =>
    rw [RealtimeWorld.step]
    split
    · exact h
    · exact ⟨h.current, h.made, h.timer, h.stopped, h.selected⟩
  | offFrame listener => exact ⟨h.current, h.made, h.timer, h.stopped, h.selected⟩
  | sendSelect serverId => exact h.sendSelect serverId
  | sendPing => exact h.send .ping
  | opened socket =>
    rw [RealtimeWorld.step]
    split
    · apply Inv.onopen
      exact h.of_eq rfl rfl rfl rfl rfl
    · exact h
  | message socket data =>
    rw [RealtimeWorld.step]
    split
    · rw [onmessage]
      split
      · exact h.of_eq rfl rfl rfl rfl rfl
      · exact h
    · exact h
  | errored socket => exact h
  | closed socket =>
    rw [RealtimeWorld.step]
    split
    · apply Inv.onclose
      · exact ⟨fun s hlt => (h.current s hlt).imp_right (List.mem_cons_of_mem socket), h.made, h.timer, h.stopped,
          h.selected⟩
      · exact List.mem_cons_self
    · exact h
  | fired timer made =>
    rw [RealtimeWorld.step]
    split
    · rename_i hmem
      exact h.fired hmem made
    · exact h

/-! ### What an event adds -/

/-- No frame is delivered, and a socket is made by a started client only. -/
structure Quiet (w w' : RealtimeWorld φ) : Prop where
  delivered : w'.delivered = w.delivered
  started : w'.sockets = w.sockets ∨ w'.client.stopped = false

lemma quiet_clearTimer (w : RealtimeWorld φ) : Quiet w w.clearTimer := by
  rw [clearTimer]
  split
  · exact ⟨rfl, .inl rfl⟩
  · exact ⟨rfl, .inl rfl⟩

lemma quiet_scheduleReconnect (w : RealtimeWorld φ) : Quiet w w.scheduleReconnect := by
  rw [RealtimeWorld.scheduleReconnect, clearTimer]
  split
  · exact ⟨rfl, .inl rfl⟩
  · exact ⟨rfl, .inl rfl⟩

lemma quiet_openSocket (w : RealtimeWorld φ) (made : Bool) : Quiet w (w.openSocket made) := by
  rw [RealtimeWorld.openSocket]
  split
  · exact ⟨rfl, .inl rfl⟩
  · rename_i hstarted
    split
    · exact ⟨rfl, .inr (Bool.not_eq_true _ ▸ hstarted)⟩
    · exact quiet_scheduleReconnect w

lemma quiet_start (w : RealtimeWorld φ) (made : Bool) : Quiet w (w.start made) := by
  rw [RealtimeWorld.start]
  split
  · have hopen := quiet_openSocket
      (({ w with client := { w.client with stopped := false, attempt := 0 } } : RealtimeWorld φ).emitState .connecting)
      made
    exact ⟨hopen.delivered, hopen.started⟩
  · exact ⟨rfl, .inl rfl⟩

lemma quiet_stop (w : RealtimeWorld φ) : Quiet w w.stop := by
  have hclear := quiet_clearTimer ({ w with client := { w.client with stopped := true } } : RealtimeWorld φ)
  have hsockets : ({ w with client := { w.client with stopped := true } } : RealtimeWorld φ).clearTimer.sockets =
      w.sockets := by
    rw [clearTimer]
    split <;> rfl
  rw [RealtimeWorld.stop]
  dsimp only
  split
  · exact ⟨hclear.delivered, .inl hsockets⟩
  · exact ⟨hclear.delivered, .inl hsockets⟩

lemma quiet_send (w : RealtimeWorld φ) (frame : ClientToServerFrame) : Quiet w (w.send frame) := by
  obtain ⟨sent, hsend⟩ := send_cases w frame
  rw [hsend]
  exact ⟨rfl, .inl rfl⟩

lemma quiet_onopen (w : RealtimeWorld φ) (socket : ℕ) : Quiet w (w.onopen socket) := by
  rw [RealtimeWorld.onopen]
  split
  · dsimp only
    split
    · obtain ⟨sent, hsend⟩ := send_cases
        (({ w with client := { w.client with attempt := 0 } } : RealtimeWorld φ).emitState .live)
        (.select w.client.intent)
      exact hsend ▸ ⟨rfl, .inl rfl⟩
    · exact ⟨rfl, .inl rfl⟩
  · exact ⟨rfl, .inl rfl⟩

lemma quiet_onclose (w : RealtimeWorld φ) (socket : ℕ) : Quiet w (w.onclose socket) := by
  rw [RealtimeWorld.onclose]
  split
  · dsimp only
    split
    · exact ⟨rfl, .inl rfl⟩
    · have hreconnect := quiet_scheduleReconnect
        (({ w with client := { w.client with socket := none } } : RealtimeWorld φ).emitState .reconnecting)
      exact ⟨hreconnect.delivered, hreconnect.started⟩
  · exact ⟨rfl, .inl rfl⟩

/-- Every event but a message is quiet. -/
lemma quiet_step {e : RealtimeEvent δ} (he : ∀ socket data, e ≠ .message socket data) : Quiet w (w.step parse e) := by
  cases e with
  | start made => exact quiet_start w made
  | stop => exact quiet_stop w
  | onFrame listener =>
    rw [RealtimeWorld.step]
    split
    · exact ⟨rfl, .inl rfl⟩
    · exact ⟨rfl, .inl rfl⟩
  | offFrame listener => exact ⟨rfl, .inl rfl⟩
  | sendSelect serverId =>
    have hsend := quiet_send ({ w with
      client := { w.client with intent := serverId, hasIntent := true }
      selected := some serverId } : RealtimeWorld φ) (.select serverId)
    exact ⟨hsend.delivered, hsend.started⟩
  | sendPing => exact quiet_send w .ping
  | opened socket =>
    rw [RealtimeWorld.step]
    split
    · have hopen := quiet_onopen
        ({ w with readyState := Function.update w.readyState socket .open } : RealtimeWorld φ) socket
      exact ⟨hopen.delivered, hopen.started⟩
    · exact ⟨rfl, .inl rfl⟩
  | message socket data => exact absurd rfl (he socket data)
  | errored socket => exact ⟨rfl, .inl rfl⟩
  | closed socket =>
    rw [RealtimeWorld.step]
    split
    · have hclose := quiet_onclose ({ w with
        readyState := Function.update w.readyState socket .closed
        dropped := socket :: w.dropped } : RealtimeWorld φ) socket
      exact ⟨hclose.delivered, hclose.started⟩
    · exact ⟨rfl, .inl rfl⟩
  | fired timer made =>
    rw [RealtimeWorld.step]
    split
    · have hopen := quiet_openSocket ({ w with
        client := { w.client with reconnectTimer := none }
        timers := w.timers.filter (·.1 ≠ timer) } : RealtimeWorld φ) made
      exact ⟨hopen.delivered, hopen.started⟩
    · exact ⟨rfl, .inl rfl⟩

/-- An open of the current socket sends the latest intent first. -/
lemma Inv.replayed (h : w.Inv) {socket : ℕ} {serverId : Option Text} (hcur : w.client.socket = some socket)
    (hselected : w.selected = some serverId) :
    (w.step parse (.opened socket)).sent = w.sent ++ [(socket, .select serverId)] := by
  have hintent : w.client.hasIntent = true ∧ w.client.intent = serverId := by
    have hsel := h.selected.symm.trans hselected
    split at hsel
    · rename_i hhas
      exact ⟨hhas, Option.some.inj hsel⟩
    · cases hsel
  rw [RealtimeWorld.step, if_pos (h.made socket hcur).1, RealtimeWorld.onopen, if_pos hcur]
  dsimp only [emitState]
  rw [if_pos hintent.1, RealtimeWorld.send]
  dsimp only
  rw [hcur, hintent.2]
  dsimp only
  rw [if_pos (Function.update_self ..)]

/-- What is to show of an event, besides the invariant. -/
lemma Inv.one_live (h : w.Inv) {e : RealtimeEvent δ}
    (hstarted : (w.step parse e).sockets = w.sockets ∨ (w.step parse e).client.stopped = false)
    (hdelivered : ∃ new, (w.step parse e).delivered = w.delivered ++ new ∧
      ∀ delivery ∈ new, w.client.socket = some delivery.socket) : w.OneLive parse e := by
  have h' : (w.step parse e).Inv := h.step e
  obtain ⟨new, hnew, hcur⟩ := hdelivered
  refine ⟨h'.current, ?_, fun htimers => ?_, fun hlt => ?_, ⟨new, hnew, fun delivery hd => ?_⟩, ?_⟩
  · have hlen := congrArg List.length h'.timer
    rw [List.length_map] at hlen
    rw [hlen]
    cases (w.step parse e).client.reconnectTimer with
    | none => exact Nat.zero_le 1
    | some timer => exact le_rfl
  · cases hsocket : (w.step parse e).client.socket with
    | none => rfl
    | some socket => exact absurd (h'.no_timer (h'.made socket hsocket).2.2) htimers
  · exact hstarted.resolve_left hlt.ne'
  · exact ⟨hcur delivery hd, (h.made _ (hcur delivery hd)).2.1⟩
  · rintro socket serverId rfl hsocket hselected
    exact h.replayed hsocket hselected

/-- A message leaves one live connection exactly when a frame that somebody listens for is the current socket's. -/
lemma Inv.one_live_message (h : w.Inv) (socket : ℕ) (data : δ) :
    w.OneLive parse (.message socket data) ↔ w.Current parse (.message socket data) := by
  by_cases hmade : socket < w.sockets
  · have hstep : w.step parse (.message socket data) = w.onmessage parse socket data := if_pos hmade
    cases hparse : parse data with
    | none =>
      have hsame : w.step parse (.message socket data) = w := by rw [hstep, onmessage, hparse]
      refine iff_of_true ?_ fun _ hframe => absurd hparse hframe
      apply h.one_live
      · exact .inl (congrArg RealtimeWorld.sockets hsame)
      · refine ⟨[], ?_, fun delivery hd => by cases hd⟩
        rw [hsame, List.append_nil]
    | some frame =>
      have hdelivered : (w.step parse (.message socket data)).delivered =
          w.delivered ++ w.client.frameListeners.map fun l => ⟨l, socket, frame⟩ := by
        rw [hstep, onmessage, hparse]
      constructor
      · intro hlive _ _ hlisten
        obtain ⟨new, hnew, hcur⟩ := hlive.delivered
        rw [hdelivered, List.append_cancel_left_eq] at hnew
        obtain ⟨l, hl⟩ := List.exists_mem_of_ne_nil _ hlisten
        exact (hcur ⟨l, socket, frame⟩ (hnew ▸ List.mem_map_of_mem hl)).1
      · intro hcurrent
        apply h.one_live
        · have hsockets : (w.step parse (.message socket data)).sockets = w.sockets := by
            rw [hstep, onmessage, hparse]
          exact .inl hsockets
        · refine ⟨_, hdelivered, fun delivery hd => ?_⟩
          obtain ⟨l, hl, rfl⟩ := List.mem_map.1 hd
          exact hcurrent hmade (by rw [hparse]; exact Option.some_ne_none _) (List.ne_nil_of_mem hl)
  · have hsame : w.step parse (.message socket data) = w := if_neg hmade
    refine iff_of_true ?_ fun hmade' => absurd hmade' hmade
    apply h.one_live
    · exact .inl (congrArg RealtimeWorld.sockets hsame)
    · refine ⟨[], ?_, fun delivery hd => by cases hd⟩
      rw [hsame, List.append_nil]

lemma Inv.one_live_quiet (h : w.Inv) {e : RealtimeEvent δ} (he : ∀ socket data, e ≠ .message socket data) :
    w.OneLive parse e := by
  have hquiet : Quiet w (w.step parse e) := quiet_step he
  apply h.one_live hquiet.started
  refine ⟨[], ?_, fun delivery hd => by cases hd⟩
  rw [hquiet.delivered, List.append_nil]

lemma Inv.one_live_step (h : w.Inv) (e : RealtimeEvent δ) : w.OneLive parse e ↔ w.Current parse e := by
  cases e with
  | message socket data => exact h.one_live_message socket data
  | _ => exact iff_of_true (h.one_live_quiet fun _ _ heq => by cases heq) trivial

end RealtimeWorld

/-- In a run of a new client every event leaves it one live connection exactly when no frame that somebody listens
for comes from a socket that is not the current one. -/
theorem one_live_iff {φ δ : Type} (parse : δ → Option φ) (es : List (RealtimeEvent δ)) :
    Machine.Along (RealtimeWorld.step parse) (RealtimeWorld.OneLive parse) {} es ↔
      Machine.Along (RealtimeWorld.step parse) (RealtimeWorld.Current parse) {} es :=
  Machine.along_iff_along RealtimeWorld.Inv.initial (fun _ e h _ => h.step e) fun _ e h => h.one_live_step e

/-- A client is stopped and started again while its first socket still has a frame under way: the listeners get that
frame. -/
theorem left_socket_heard : ¬Machine.Along (RealtimeWorld.step some) (RealtimeWorld.OneLive some)
    ({} : RealtimeWorld Unit)
    [.onFrame 0, .start true, .opened 0, .stop, .start true, .message 0 ()] := by
  intro h
  obtain ⟨new, hnew, hcur⟩ := h.2.2.2.2.2.1.delivered
  have hrun : [(⟨0, 0, ()⟩ : Delivery Unit)] = new := hnew
  exact absurd (hcur _ (hrun ▸ List.mem_singleton_self _)).1 (by decide)

end SshGpuConsole.Frontend
