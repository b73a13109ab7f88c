import SshGpuConsole.Lib.Fifo
import SshGpuConsole.Ssh.HostKeys

/-!
# Connections of transfers

Who makes a connection for a transfer and who closes it, as a state machine: `transfer_session`,
`transfer_command_session` and `close_transfer_sessions` (`ssh/manager.py`) with the callers of the second,
`plan_transfer` (`transfer/planner.py`), `_run_rsync` (`transfer/service.py`) and `_run_probe`
(`direct_auth/service.py`). Any number of calls, each stepping from one await to the next, fail or are cancelled
at any of them. The connections the factory returns are numbered. A `close` that raises counts as one: every
caller suppresses what it raises.

Every open connection is that of a cached session or held by a call that will close it (`Kept`), as long as no
call is cut short where nothing stands behind it to close its connection (`covered_runs_leak_nothing`).
-/

namespace SshGpuConsole.Ssh.TransferConnections
open Shell (Text)

abbrev CallId := ℕ
abbrev ConnId := ℕ

/-- What a connection is made for. -/
inductive Purpose where
  /-- `transfer_session` -/
  | session
  /-- `plan_transfer`, and whether the pair has a dedicated key -/
  | plan (dedicated_key : Bool)
  /-- `_run_probe` -/
  | probe
  /-- `_run_rsync` -/
  | rsync
  deriving DecidableEq, Repr

/-- Where a call waits. -/
inductive Pc where
  /-- `transfer_session`: for the lock of its server -/
  | waitLock
  /-- for the connect factory -/
  | connecting (purpose : Purpose)
  /-- `transfer_session`: for the SFTP client -/
  | starting (c : ConnId)
  /-- `plan_transfer`: for the native probe -/
  | native (c : ConnId) (dedicated_key : Bool)
  /-- `plan_transfer`: for the probe with the dedicated key; `_cancelled` of the session -/
  | dedicated (c : ConnId) (cancelled : Bool)
  /-- `_run_probe`: for its probe -/
  | probing (c : ConnId)
  /-- `_run_rsync`: for the command or the user's cancellation -/
  | racing (c : ConnId)
  /-- `_run_rsync`: for the one that lost -/
  | settling (c : ConnId)
  /-- `_run_rsync`: for `_reap_rsync_tasks`, in its `finally` -/
  | reaping (c : ConnId)
  deriving DecidableEq, Repr

/-- The connection a call has made and not handed over yet. -/
def Pc.holds : Pc → Option ConnId
  | .waitLock | .connecting _ => none
  | .starting c | .native c _ | .dedicated c _ | .probing c | .racing c | .settling c | .reaping c => some c

/-- The call creates the session of its server. -/
def Pc.creates : Pc → Bool
  | .connecting .session | .starting _ => true
  | _ => false

structure Call where
  server : ServerRecord
  pc : Pc
  deriving DecidableEq, Repr

structure State where
  /-- `_transfer_sessions`, by the connection of the session. -/
  cache : Text → Option ConnId := fun _ => none
  /-- The connections the factory returned so far. -/
  created : ℕ := 0
  /-- The server a connection was made for. -/
  owner : ConnId → Text := fun _ => []
  /-- A connection was closed, by the application or by its peer. -/
  closed : ConnId → Bool := fun _ => false
  /-- `_transfer_session_locks` -/
  lock : Text → List CallId := fun _ => []
  calls : CallId → Option Call := fun _ => none

/-- How a probe over a session ends; it returns for every `Exception`. -/
inductive ProbeEnd where
  | succeeded
  | failed
  /-- with a `TimeoutError`, which leaves the session cancelled -/
  | timedOut
  /-- with the `CancelledError` that `run` raises on a cancelled session -/
  | refused
  deriving DecidableEq, Repr

inductive Event where
  | request (id : CallId) (server : ServerRecord)
  /-- a caller of `transfer_command_session`, with the server the command will talk to -/
  | command (id : CallId) (purpose : Purpose) (server target : ServerRecord)
  | resume (id : CallId)
  | connected (id : CallId)
  /-- the connect factory or `start_sftp_client` raises -/
  | raised (id : CallId)
  | started (id : CallId)
  | probed (id : CallId) (how : ProbeEnd)
  /-- the race of `_run_rsync` is over, and the loser is waited for, or not -/
  | raced (id : CallId) (settle : Bool)
  | settled (id : CallId)
  | reaped (id : CallId)
  | cancel (id : CallId)
  /-- a step of `close_transfer_sessions` -/
  | closeSession (server_id : Text)
  /-- a connection dies, or a user of a session closes it -/
  | ended (c : ConnId)
  deriving DecidableEq, Repr

section
variable (resolver : Resolver) (σ : State) (id : CallId) (call : Call)

def State.close (c : ConnId) : State := { σ with closed := Function.update σ.closed c true }

/-- A cached session is popped and closed; `_drop_dead_transfer_session` when its connection is dead. -/
def State.dropSession (server_id : Text) : State :=
  match σ.cache server_id with
  | none => σ
  | some c => { σ with cache := Function.update σ.cache server_id none }.close c

/-- A call ends, and releases its lock. -/
def State.leave : State :=
  { σ with
    lock := fun server_id => (σ.lock server_id).filter (· ≠ id)
    calls := Function.update σ.calls id none }

def State.goto (server : ServerRecord) (pc : Pc) : State :=
  { σ with calls := Function.update σ.calls id (some ⟨server, pc⟩) }

/-- The session cached for a server, when it is usable. -/
def State.cached (server_id : Text) : Option ConnId := (σ.cache server_id).filter fun c => !σ.closed c

/-- `transfer_session`, up to its lock. -/
def State.request (server : ServerRecord) : State :=
  match σ.cached server.server_id with
  | some _ => σ
  | none =>
    let σ := σ.dropSession server.server_id
    { σ with lock := Function.update σ.lock server.server_id (σ.lock server.server_id ++ [id]) }.goto id server
      .waitLock

/-- `transfer_session`, inside its lock. -/
def State.inLock (server : ServerRecord) : State :=
  match σ.cached server.server_id with
  | some _ => σ.leave id
  | none =>
    let σ := σ.dropSession server.server_id
    match paramsOf resolver server with
    | .error _ => σ.leave id
    | .ok _ => σ.goto id server (.connecting .session)

/-- A caller of `transfer_command_session`, up to its connection. -/
def State.command (purpose : Purpose) (server target : ServerRecord) : State :=
  match paramsOf resolver target, paramsOf resolver server with
  | .ok _, .ok _ => σ.goto id server (.connecting purpose)
  | _, _ => σ

/-- What a call does first with its connection. -/
def Purpose.first (c : ConnId) : Purpose → Pc
  | .session => .starting c
  | .plan dedicated_key => .native c dedicated_key
  | .probe => .probing c
  | .rsync => .racing c

/-- The connect factory returns a connection. -/
def State.connected (purpose : Purpose) (server : ServerRecord) : State :=
  { σ with
    created := σ.created + 1
    owner := Function.update σ.owner σ.created server.server_id }.goto id server (purpose.first σ.created)

/-- The SFTP client is there: the session is cached and returned. -/
def State.started (c : ConnId) (server : ServerRecord) : State :=
  { σ with cache := Function.update σ.cache server.server_id (some c) }.leave id

/-- A probe ends. -/
def State.probed : Pc → ProbeEnd → Option State
  | .native _ _, .refused => none
  | .native c dedicated_key, how =>
    if how ≠ .succeeded ∧ dedicated_key then some (σ.goto id call.server (.dedicated c (how = .timedOut)))
    else some ((σ.close c).leave id)
  -- on a cancelled session `run` gets no further than its first poll, unless the channel already fails
  | .dedicated _ true, .refused => some (σ.leave id)
  | .dedicated c true, .failed => some ((σ.close c).leave id)
  | .dedicated _ true, _ => none
  | .dedicated _ false, .refused => none
  | .dedicated c false, _ => some ((σ.close c).leave id)
  | .probing _, .refused => none
  | .probing c, _ => some ((σ.close c).leave id)
  | _, _ => none

/-- The call is cancelled where it waits. -/
def State.cancelled : State :=
  match call.pc with
  | .waitLock | .connecting _ | .starting _ | .native _ _ | .dedicated _ _ | .reaping _ => σ.leave id
  | .probing c => (σ.close c).leave id
  | .racing c | .settling c => σ.goto id call.server (.reaping c)

def State.next : Event → Option State
  | .request id server => if (σ.calls id).isSome then none else some (σ.request id server)
  | .command id purpose server target =>
    if (σ.calls id).isSome || purpose = .session then none else some (σ.command resolver id purpose server target)
  | .resume id => (σ.calls id).bind fun call =>
    if call.pc = .waitLock ∧ Fifo.Granted 1 (σ.lock call.server.server_id) id then
      some (σ.inLock resolver id call.server)
    else none
  | .connected id => (σ.calls id).bind fun call =>
    match call.pc with
    | .connecting purpose => some (σ.connected id purpose call.server)
    | _ => none
  | .raised id => (σ.calls id).bind fun call =>
    match call.pc with
    | .connecting _ | .starting _ => some (σ.leave id)
    | _ => none
  | .started id => (σ.calls id).bind fun call =>
    match call.pc with
    | .starting c => some (σ.started id c call.server)
    | _ => none
  | .probed id how => (σ.calls id).bind fun call => σ.probed id call call.pc how
  | .raced id settle => (σ.calls id).bind fun call =>
    match call.pc with
    | .racing c => some (σ.goto id call.server (if settle then .settling c else .reaping c))
    | _ => none
  | .settled id => (σ.calls id).bind fun call =>
    match call.pc with
    | .settling c => some (σ.goto id call.server (.reaping c))
    | _ => none
  | .reaped id => (σ.calls id).bind fun call =>
    match call.pc with
    | .reaping c => some ((σ.close c).leave id)
    | _ => none
  | .cancel id => (σ.calls id).map fun call => σ.cancelled id call
  | .closeSession server_id => some (σ.dropSession server_id)
  | .ended c => if c < σ.created then some (σ.close c) else none

end

/-- The states of runs whose events are admitted. -/
inductive Reachable (resolver : Resolver) (admitted : State → Event → Prop) : State → Prop where
  | init : Reachable resolver admitted {}
  | step {σ σ' : State} {e : Event} (h : Reachable resolver admitted σ) (ha : admitted σ e)
    (he : σ.next resolver e = some σ') : Reachable resolver admitted σ'

/-- No call is in progress. -/
def State.Quiet (σ : State) : Prop := ∀ id, σ.calls id = none

/-- Every connection is closed, or that of the session cached for its server. -/
def NoLeak (σ : State) : Prop := ∀ c, c < σ.created → σ.closed c = true ∨ σ.cache (σ.owner c) = some c

/-- Where a call that is cut short leaves its connection behind. -/
def Pc.uncovered : Pc → Option ConnId
  | .starting c | .native c _ | .dedicated c _ | .reaping c => some c
  | _ => none

/-- No call is cut short where it would leave an open connection behind: by an SFTP client that does not start,
by a probe on a cancelled session, or by its own cancellation. -/
def Covered (σ : State) : Event → Prop
  | .raised id | .probed id .refused | .cancel id =>
    ∀ call c, σ.calls id = some call → call.pc.uncovered = some c → σ.closed c = true
  | _ => True

/-! ### Every open connection has somebody who will close it -/

variable {resolver : Resolver} {σ σ' : State} {id : CallId} {call : Call} {server : ServerRecord}

/-- What holds between any two steps. -/
structure Kept (σ : State) : Prop where
  /-- An open connection is that of a cached session, or a call holds it. -/
  accounted : ∀ c, c < σ.created → σ.closed c = true ∨ σ.cache (σ.owner c) = some c ∨
    ∃ i call, σ.calls i = some call ∧ call.pc.holds = some c
  cached : ∀ server_id c, σ.cache server_id = some c → c < σ.created ∧ σ.owner c = server_id
  held : ∀ i call c, σ.calls i = some call → call.pc.holds = some c → c < σ.created
  starting : ∀ i call c, σ.calls i = some call → call.pc = .starting c → σ.owner c = call.server.server_id
  /-- A call that creates a session has the lock, and nothing is cached. -/
  alone : ∀ i call, σ.calls i = some call → call.pc.creates = true →
    Fifo.Granted 1 (σ.lock call.server.server_id) i ∧ σ.cache call.server.server_id = none
  /-- A connection has one holder. -/
  single : ∀ i j call call' c, σ.calls i = some call → σ.calls j = some call' → call.pc.holds = some c →
    call'.pc.holds = some c → i = j
  apart : ∀ i call c server_id, σ.calls i = some call → call.pc.holds = some c → σ.cache server_id ≠ some c

lemma calls_goto (pc : Pc) : (σ.goto id server pc).calls id = some ⟨server, pc⟩ := Function.update_self ..

lemma calls_goto_of_ne {i : CallId} (h : i ≠ id) (pc : Pc) : (σ.goto id server pc).calls i = σ.calls i :=
  Function.update_of_ne h ..

lemma calls_leave : (σ.leave id).calls id = none := Function.update_self ..

lemma calls_leave_of_ne {i : CallId} (h : i ≠ id) : (σ.leave id).calls i = σ.calls i := Function.update_of_ne h ..

/-- A call that is there after another ended was there before. -/
lemma calls_of_leave {i : CallId} (h : (σ.leave id).calls i = some call) : σ.calls i = some call := by
  by_cases hid : i = id
  · subst hid
    rw [calls_leave] at h
    cases h
  · exact (calls_leave_of_ne hid).symm.trans h

/-- Connections are closed and sessions dropped, nothing else. -/
structure Fades (σ σ' : State) : Prop where
  calls : σ'.calls = σ.calls
  lock : σ'.lock = σ.lock
  created : σ'.created = σ.created
  owner : σ'.owner = σ.owner
  closed : ∀ c, σ.closed c = true → σ'.closed c = true
  cache : ∀ server_id, σ'.cache server_id = σ.cache server_id ∨
    σ'.cache server_id = none ∧ ∀ c, σ.cache server_id = some c → σ'.closed c = true

lemma closed_close (c : ConnId) : (σ.close c).closed c = true := Function.update_self ..

lemma closed_close_of_closed {c d : ConnId} (h : σ.closed d = true) : (σ.close c).closed d = true := by
  by_cases hd : d = c
  · rw [hd]
    exact closed_close c
  · exact (Function.update_of_ne hd ..).trans h

lemma fades_close (c : ConnId) : Fades σ (σ.close c) :=
  ⟨rfl, rfl, rfl, rfl, fun _ => closed_close_of_closed, fun _ => .inl rfl⟩

lemma fades_dropSession (server_id : Text) : Fades σ (σ.dropSession server_id) := by
  unfold State.dropSession
  cases hc : σ.cache server_id with
  | none => exact ⟨rfl, rfl, rfl, rfl, fun _ h => h, fun _ => .inl rfl⟩
  | some c =>
    refine ⟨rfl, rfl, rfl, rfl, fun _ => closed_close_of_closed, fun other => ?_⟩
    by_cases ho : other = server_id
    · subst ho
      refine .inr ⟨Function.update_self .., fun d hd => ?_⟩
      rw [hc] at hd
      cases hd
      exact Function.update_self ..
    · exact .inl (Function.update_of_ne ho ..)

lemma cache_dropSession (server_id : Text) : (σ.dropSession server_id).cache server_id = none := by
  unfold State.dropSession
  cases hc : σ.cache server_id with
  | none => exact hc
  | some c => exact Function.update_self ..

lemma Kept.fades (h : Kept σ) (hf : Fades σ σ') : Kept σ' where
  accounted c hc := by
    rw [hf.created] at hc
    rw [hf.owner, hf.calls]
    rcases h.accounted c hc with hclosed | hcached | hheld
    · exact .inl (hf.closed c hclosed)
    · cases hf.cache (σ.owner c) with
      | inl hsame => exact .inr (.inl (hsame.trans hcached))
      | inr hdropped => exact .inl (hdropped.2 c hcached)
    · exact .inr (.inr hheld)
  cached server_id c hc := by
    rw [hf.created, hf.owner]
    cases hf.cache server_id with
    | inl hsame => exact h.cached server_id c (hsame ▸ hc)
    | inr hdropped =>
      rw [hdropped.1] at hc
      cases hc
  held i call c hi hc := by
    rw [hf.created]
    exact h.held i call c (hf.calls ▸ hi) hc
  starting i call c hi hc := by
    rw [hf.owner]
    exact h.starting i call c (hf.calls ▸ hi) hc
  alone i call hi hc := by
    obtain ⟨hlock, hcache⟩ := h.alone i call (hf.calls ▸ hi) hc
    refine ⟨hf.lock ▸ hlock, ?_⟩
    cases hf.cache call.server.server_id with
    | inl hsame => exact hsame.trans hcache
    | inr hdropped => exact hdropped.1
  single i j call call' c hi hj := h.single i j call call' c (hf.calls ▸ hi) (hf.calls ▸ hj)
  apart i call c server_id hi hc := by
    cases hf.cache server_id with
    | inl hsame =>
      rw [hsame]
      exact h.apart i call c server_id (hf.calls ▸ hi) hc
    | inr hdropped =>
      rw [hdropped.1]
      exact fun hnone => by cases hnone

/-- A call that holds no open connection may end. -/
lemma Kept.leave (h : Kept σ)
    (hc : ∀ call c, σ.calls id = some call → call.pc.holds = some c →
      σ.closed c = true ∨ σ.cache (σ.owner c) = some c) : Kept (σ.leave id) where
  accounted c hlt := by
    rcases h.accounted c hlt with hclosed | hcached | ⟨i, call, hi, hheld⟩
    · exact .inl hclosed
    · exact .inr (.inl hcached)
    · by_cases hid : i = id
      · subst hid
        exact (hc call c hi hheld).imp_right .inl
      · exact .inr (.inr ⟨i, call, (calls_leave_of_ne hid).trans hi, hheld⟩)
  cached := h.cached
  held i call c hi := h.held i call c (calls_of_leave hi)
  starting i call c hi := h.starting i call c (calls_of_leave hi)
  alone i call hi hpc := by
    by_cases hid : i = id
    · subst hid
      rw [calls_leave] at hi
      cases hi
    · obtain ⟨hlock, hcache⟩ := h.alone i call (calls_of_leave hi) hpc
      exact ⟨hlock.filter (decide_eq_true hid), hcache⟩
  single i j call call' c hi hj := h.single i j call call' c (calls_of_leave hi) (calls_of_leave hj)
  apart i call c server_id hi := h.apart i call c server_id (calls_of_leave hi)

/-- A call goes on with the connection it holds. -/
lemma Kept.goto {pc : Pc} (h : Kept σ)
    (hhands : ∀ call c, σ.calls id = some call → call.pc.holds = some c → pc.holds = some c)
    (hheld : ∀ c, pc.holds = some c → ∃ call, σ.calls id = some call ∧ call.pc.holds = some c)
    (hstarting : ∀ c, pc ≠ .starting c)
    (hcreates : pc.creates = true →
      Fifo.Granted 1 (σ.lock server.server_id) id ∧ σ.cache server.server_id = none) :
    Kept (σ.goto id server pc) := by
  -- what a call holds now, it held before
  have hold : ∀ i call c, (σ.goto id server pc).calls i = some call → call.pc.holds = some c →
      ∃ call, σ.calls i = some call ∧ call.pc.holds = some c := by
    intro i call c hi hc
    by_cases hid : i = id
    · subst hid
      rw [calls_goto] at hi
      cases hi
      exact hheld c hc
    · exact ⟨call, (calls_goto_of_ne hid pc).symm.trans hi, hc⟩
  refine ⟨fun c hlt => ?_, h.cached, fun i call c hi hc => ?_, fun i call c hi hpc => ?_, fun i call hi hpc => ?_,
    fun i j call call' c hi hj hc hc' => ?_, fun i call c server_id hi hc => ?_⟩
  · rcases h.accounted c hlt with hclosed | hcached | ⟨i, call, hi, hc⟩
    · exact .inl hclosed
    · exact .inr (.inl hcached)
    · by_cases hid : i = id
      · subst hid
        exact .inr (.inr ⟨i, _, calls_goto pc, hhands call c hi hc⟩)
      · exact .inr (.inr ⟨i, call, (calls_goto_of_ne hid pc).trans hi, hc⟩)
  · obtain ⟨call', hi', hc'⟩ := hold i call c hi hc
    exact h.held i call' c hi' hc'
  · by_cases hid : i = id
    · subst hid
      rw [calls_goto] at hi
      cases hi
      exact absurd hpc (hstarting c)
    · exact h.starting i call c (calls_goto_of_ne hid pc ▸ hi) hpc
  · by_cases hid : i = id
    · subst hid
      rw [calls_goto] at hi
      cases hi
      exact hcreates hpc
    · exact h.alone i call (calls_goto_of_ne hid pc ▸ hi) hpc
  · obtain ⟨old, hi', hold'⟩ := hold i call c hi hc
    obtain ⟨other, hj', hother⟩ := hold j call' c hj hc'
    exact h.single i j old other c hi' hj' hold' hother
  · obtain ⟨old, hi', hold'⟩ := hold i call c hi hc
    exact h.apart i old c server_id hi' hold'

/-- A call that held a connection goes on holding it. -/
lemma Kept.advance {pc : Pc} (h : Kept σ) (hid : σ.calls id = some call) {c : ConnId}
    (hheld : call.pc.holds = some c) (hpc : pc.holds = some c) (hcreates : pc.creates = false) :
    Kept (σ.goto id server pc) := by
  refine h.goto (fun call' d hd hcall => ?_) (fun d hd => ?_) (fun d hd => ?_) (fun hc => ?_)
  · rw [hid] at hd
    cases hd
    exact hpc.trans (hheld.symm.trans hcall)
  · rw [hpc] at hd
    cases hd
    exact ⟨call, hid, hheld⟩
  · rw [hd] at hcreates
    cases hcreates
  · rw [hcreates] at hc
    cases hc

/-- A call closes its connection and ends. -/
lemma Kept.close (h : Kept σ) (hid : σ.calls id = some call) {c : ConnId} (hheld : call.pc.holds = some c) :
    Kept ((σ.close c).leave id) := by
  refine (h.fades (fades_close c)).leave fun call' d hd hcall => .inl ?_
  rw [show σ.calls id = some call' from hd] at hid
  cases hid
  rw [hheld] at hcall
  cases hcall
  exact closed_close c

lemma Kept.ends (h : Kept σ) (hid : σ.calls id = some call) (hnone : call.pc.holds = none) : Kept (σ.leave id) := by
  refine h.leave fun call' c hcall hc => ?_
  rw [hid] at hcall
  cases hcall
  rw [hnone] at hc
  cases hc

lemma Kept.queue (h : Kept σ) (lock : Text → List CallId)
    (hlock : ∀ server_id i, Fifo.Granted 1 (σ.lock server_id) i → Fifo.Granted 1 (lock server_id) i) :
    Kept { σ with lock } :=
  ⟨h.accounted, h.cached, h.held, h.starting,
    fun i call hi hc => (h.alone i call hi hc).imp_left (hlock call.server.server_id i), h.single, h.apart⟩

lemma Kept.request (h : Kept σ) (hid : σ.calls id = none) (server : ServerRecord) : Kept (σ.request id server) := by
  unfold State.request
  split
  · exact h
  · have hdropped := h.fades (fades_dropSession server.server_id)
    have hnone := hid
    rw [← (fades_dropSession (σ := σ) server.server_id).calls] at hnone
    refine Kept.goto (hdropped.queue _ fun server_id i hi => ?_) (fun call c hc => ?_) (fun c hc => ?_) (fun c hc => ?_)
      (fun hc => ?_)
    · by_cases hs : server_id = server.server_id
      · subst hs
        rw [Function.update_self]
        exact hi.append _
      · rwa [Function.update_of_ne hs]
    · rw [show (σ.dropSession server.server_id).calls id = some call from hc] at hnone
      cases hnone
    all_goals cases hc

lemma Kept.inLock (h : Kept σ) (hid : σ.calls id = some call) (hpc : call.pc = .waitLock)
    (hlock : Fifo.Granted 1 (σ.lock call.server.server_id) id) : Kept (σ.inLock resolver id call.server) := by
  have hf := fades_dropSession (σ := σ) call.server.server_id
  have hid' := hid
  rw [← hf.calls] at hid'
  have hnone : call.pc.holds = none := by rw [hpc]; rfl
  unfold State.inLock
  split
  · exact h.ends hid hnone
  · dsimp only
    split
    · exact (h.fades hf).ends hid' hnone
    · refine (h.fades hf).goto (fun call' c hcall hc => ?_) (fun c hc => by cases hc) (fun c hc => by cases hc)
        (fun _ => ⟨hf.lock ▸ hlock, cache_dropSession _⟩)
      rw [hid'] at hcall
      cases hcall
      rw [hnone] at hc
      cases hc

lemma Kept.command (h : Kept σ) (hid : σ.calls id = none) {purpose : Purpose} (hp : purpose ≠ .session)
    (server target : ServerRecord) : Kept (σ.command resolver id purpose server target) := by
  unfold State.command
  split
  · refine h.goto (fun call c hcall => ?_) (fun c hc => by cases hc) (fun c hc => by cases hc) fun hc => ?_
    · rw [hid] at hcall
      cases hcall
    · cases purpose with
      | session => exact absurd rfl hp
      | plan | probe | rsync => cases hc
  · exact h

lemma holds_first (c : ConnId) (purpose : Purpose) : (purpose.first c).holds = some c := by
  cases purpose <;> rfl

lemma creates_first (c : ConnId) (purpose : Purpose) :
    (purpose.first c).creates = (Pc.connecting purpose).creates := by
  cases purpose <;> rfl

/-- The call that made a connection holds it. -/
lemma Kept.connected (h : Kept σ) (hid : σ.calls id = some call) {purpose : Purpose}
    (hpc : call.pc = .connecting purpose) : Kept (σ.connected id purpose call.server) := by
  have hself : (σ.connected id purpose call.server).calls id = some ⟨call.server, purpose.first σ.created⟩ :=
    calls_goto _
  have hother : ∀ {i call'}, i ≠ id → (σ.connected id purpose call.server).calls i = some call' →
      σ.calls i = some call' := fun heq hi => (calls_goto_of_ne heq _).symm.trans hi
  have howner : ∀ {c}, c < σ.created → (σ.connected id purpose call.server).owner c = σ.owner c := fun hlt =>
    Function.update_of_ne hlt.ne ..
  -- the new connection is held by the call, the older ones by those that held them
  have hheld : ∀ i call' c, (σ.connected id purpose call.server).calls i = some call' → call'.pc.holds = some c →
      i = id ∧ c = σ.created ∨ i ≠ id ∧ σ.calls i = some call' ∧ c < σ.created := by
    intro i call' c hi hc
    by_cases heq : i = id
    · subst heq
      rw [hself] at hi
      cases hi
      rw [holds_first] at hc
      cases hc
      exact .inl ⟨rfl, rfl⟩
    · exact .inr ⟨heq, hother heq hi, h.held i call' c (hother heq hi) hc⟩
  refine ⟨fun c hlt => ?_, fun server_id c hc => ?_, fun i call' c hi hc => ?_, fun i call' c hi hc => ?_,
    fun i call' hi hc => ?_, fun i j call₁ call₂ c hi hj hc hc' => ?_, fun i call' c server_id hi hc hcache => ?_⟩
  · cases Nat.lt_succ_iff_lt_or_eq.1 hlt with
    | inl hold =>
      rw [howner hold]
      rcases h.accounted c hold with hclosed | hcached | ⟨i, call', hi, hc⟩
      · exact .inl hclosed
      · exact .inr (.inl hcached)
      · refine .inr (.inr ⟨i, call', ?_, hc⟩)
        by_cases heq : i = id
        · subst heq
          rw [hid] at hi
          cases hi
          rw [hpc] at hc
          cases hc
        · exact (calls_goto_of_ne heq _).trans hi
    | inr hnew =>
      subst hnew
      exact .inr (.inr ⟨id, _, hself, holds_first _ purpose⟩)
  · obtain ⟨hlt, hserver⟩ := h.cached server_id c hc
    exact ⟨hlt.trans (Nat.lt_succ_self _), (howner hlt).trans hserver⟩
  · rcases hheld i call' c hi hc with ⟨-, rfl⟩ | ⟨-, -, hlt⟩
    · exact Nat.lt_succ_self _
    · exact hlt.trans (Nat.lt_succ_self _)
  · rcases hheld i call' c hi (by rw [hc]; rfl) with ⟨rfl, rfl⟩ | ⟨heq, hi', hlt⟩
    · rw [hself] at hi
      cases hi
      exact Function.update_self ..
    · exact (howner hlt).trans (h.starting i call' c hi' hc)
  · by_cases heq : i = id
    · subst heq
      rw [hself] at hi
      cases hi
      rw [creates_first, ← hpc] at hc
      exact h.alone i call hid hc
    · exact h.alone i call' (hother heq hi) hc
  · rcases hheld i call₁ c hi hc with ⟨rfl, rfl⟩ | ⟨-, hi', hlt⟩
    · rcases hheld j call₂ _ hj hc' with ⟨rfl, -⟩ | ⟨-, -, hlt⟩
      · rfl
      · exact absurd hlt (Nat.lt_irrefl _)
    · rcases hheld j call₂ _ hj hc' with ⟨-, rfl⟩ | ⟨-, hj', -⟩
      · exact absurd hlt (Nat.lt_irrefl _)
      · exact h.single i j call₁ call₂ c hi' hj' hc hc'
  · rcases hheld i call' c hi hc with ⟨-, rfl⟩ | ⟨-, hi', -⟩
    · exact absurd (h.cached server_id _ hcache).1 (Nat.lt_irrefl _)
    · exact h.apart i call' c server_id hi' hc hcache

/-- The session takes over the connection of the call that made it. -/
lemma Kept.started (h : Kept σ) (hid : σ.calls id = some call) {c : ConnId} (hpc : call.pc = .starting c) :
    Kept (σ.started id c call.server) := by
  have howner := h.starting id call c hid hpc
  obtain ⟨hlock, hnone⟩ := h.alone id call hid (by rw [hpc]; rfl)
  have hheld : call.pc.holds = some c := by rw [hpc]; rfl
  have hcache : ∀ server_id d, σ.cache server_id = some d →
      Function.update σ.cache call.server.server_id (some c) server_id = some d := by
    intro server_id d hd
    by_cases hs : server_id = call.server.server_id
    · rw [hs, hnone] at hd
      cases hd
    · exact (Function.update_of_ne hs ..).trans hd
  have hother : ∀ {i call'}, (σ.started id c call.server).calls i = some call' →
      i ≠ id ∧ σ.calls i = some call' := by
    intro i call' hi
    refine ⟨fun heq => ?_, calls_of_leave (σ := { σ with cache := _ }) hi⟩
    subst heq
    rw [State.started, calls_leave] at hi
    cases hi
  refine ⟨fun d hlt => ?_, fun server_id d hd => ?_, fun i call' d hi => ?_, fun i call' d hi => ?_,
    fun i call' hi hc => ?_, fun i j call₁ call₂ d hi hj => ?_, fun i call' d server_id hi hd hcached => ?_⟩
  · rcases h.accounted d hlt with hclosed | hcached | ⟨i, call', hi, hd⟩
    · exact .inl hclosed
    · exact .inr (.inl (hcache _ d hcached))
    · by_cases heq : i = id
      · subst heq
        rw [hid] at hi
        cases hi
        rw [hheld] at hd
        cases hd
        refine .inr (.inl ?_)
        show Function.update σ.cache call.server.server_id (some c) (σ.owner c) = some c
        rw [howner, Function.update_self]
      · exact .inr (.inr ⟨i, call', (calls_leave_of_ne heq).trans hi, hd⟩)
  · by_cases hs : server_id = call.server.server_id
    · subst hs
      rw [show (σ.started id c call.server).cache call.server.server_id = some c from Function.update_self ..] at hd
      cases hd
      exact ⟨h.held id call c hid hheld, howner⟩
    · exact h.cached server_id d ((Function.update_of_ne hs ..).symm.trans hd)
  · exact h.held i call' d (hother hi).2
  · exact h.starting i call' d (hother hi).2
  · obtain ⟨heq, hi'⟩ := hother hi
    obtain ⟨hlock', hnone'⟩ := h.alone i call' hi' hc
    -- another call that creates a session does so for another server
    have hs : call'.server.server_id ≠ call.server.server_id := by
      intro hs
      rw [hs] at hlock'
      exact heq (hlock'.unique hlock)
    exact ⟨hlock'.filter (decide_eq_true heq), (Function.update_of_ne hs ..).trans hnone'⟩
  · exact h.single i j call₁ call₂ d (hother hi).2 (hother hj).2
  · obtain ⟨heq, hi'⟩ := hother hi
    by_cases hs : server_id = call.server.server_id
    · subst hs
      rw [show (σ.started id c call.server).cache call.server.server_id = some c from Function.update_self ..] at hcached
      cases hcached
      exact heq (h.single i id call' call c hi' hid hd hheld)
    · exact h.apart i call' d server_id hi' hd ((Function.update_of_ne hs ..).symm.trans hcached)

/-- A call that is cut short where it holds nothing that is open. -/
lemma Kept.cut (h : Kept σ) (hid : σ.calls id = some call)
    (hclosed : ∀ c, call.pc.holds = some c → σ.closed c = true) : Kept (σ.leave id) := by
  refine h.leave fun call' c hcall hc => ?_
  rw [hid] at hcall
  cases hcall
  exact .inl (hclosed c hc)

lemma Kept.probed (h : Kept σ) (hid : σ.calls id = some call) {how : ProbeEnd}
    (hcov : how = .refused → ∀ c, call.pc.uncovered = some c → σ.closed c = true)
    (he : σ.probed id call call.pc how = some σ') : Kept σ' := by
  cases hpc : call.pc with
  | native c dedicated_key =>
    have hheld : call.pc.holds = some c := by rw [hpc]; rfl
    rw [hpc] at he
    cases how with
    | refused => cases he
    | succeeded | failed | timedOut =>
      simp only [State.probed] at he
      split at he
      · cases he
        exact h.advance hid hheld rfl rfl
      · cases he
        exact h.close hid hheld
  | dedicated c cancelled =>
    have hheld : call.pc.holds = some c := by rw [hpc]; rfl
    have hleave : how = .refused → Kept (σ.leave id) := by
      intro hhow
      refine h.cut hid fun d hd => hcov hhow d ?_
      rw [hpc] at hd ⊢
      exact hd
    rw [hpc] at he
    cases cancelled with
    | true =>
      cases how with
      | refused =>
        cases he
        exact hleave rfl
      | failed =>
        cases he
        exact h.close hid hheld
      | succeeded => cases he
      | timedOut => cases he
    | false =>
      cases how with
      | refused => cases he
      | failed | succeeded | timedOut =>
        cases he
        exact h.close hid hheld
  | probing c =>
    have hheld : call.pc.holds = some c := by rw [hpc]; rfl
    rw [hpc] at he
    cases how with
    | refused => cases he
    | failed | succeeded | timedOut =>
      cases he
      exact h.close hid hheld
  | waitLock => rw [hpc] at he; cases he
  | connecting purpose => rw [hpc] at he; cases he
  | starting c => rw [hpc] at he; cases he
  | racing c => rw [hpc] at he; cases he
  | settling c => rw [hpc] at he; cases he
  | reaping c => rw [hpc] at he; cases he

lemma Kept.cancelled (h : Kept σ) (hid : σ.calls id = some call)
    (hcov : ∀ c, call.pc.uncovered = some c → σ.closed c = true) : Kept (σ.cancelled id call) := by
  unfold State.cancelled
  split
  case h_7 c hpc => exact h.close hid (by rw [hpc]; rfl)
  case h_8 c hpc => exact h.advance hid (c := c) (by rw [hpc]; rfl) rfl rfl
  case h_9 c hpc => exact h.advance hid (c := c) (by rw [hpc]; rfl) rfl rfl
  all_goals
    rename_i hpc
    refine h.cut hid fun c hc => hcov c ?_
    rw [hpc] at hc ⊢
    exact hc

/-- A step whose call is not cut short over an open connection leaves none behind. -/
lemma Kept.step {e : Event} (h : Kept σ) (hcov : Covered σ e) (he : σ.next resolver e = some σ') : Kept σ' := by
  cases e with
  | request id server =>
    simp only [State.next] at he
    split at he
    · cases he
    · cases he
      exact h.request (Option.not_isSome_iff_eq_none.1 ‹_›) server
  | command id purpose server target =>
    simp only [State.next] at he
    split at he
    · cases he
    · rename_i hfree
      cases he
      rw [Bool.or_eq_true, not_or, decide_eq_true_iff] at hfree
      exact h.command (Option.not_isSome_iff_eq_none.1 hfree.1) hfree.2 server target
  | resume id =>
    obtain ⟨call, hid, he⟩ := Option.bind_eq_some_iff.1 he
    split at he
    · rename_i hwait
      cases he
      exact h.inLock hid hwait.1 hwait.2
    · cases he
  | connected id =>
    obtain ⟨call, hid, he⟩ := Option.bind_eq_some_iff.1 he
    split at he
    · cases he
      exact h.connected hid ‹_›
    · cases he
  | raised id =>
    obtain ⟨call, hid, he⟩ := Option.bind_eq_some_iff.1 he
    split at he
    · rename_i hpc
      cases he
      exact h.ends hid (by rw [hpc]; rfl)
    · rename_i c hpc
      cases he
      refine h.cut hid fun d hd => hcov call d hid ?_
      rw [hpc] at hd ⊢
      exact hd
    · cases he
  | started id =>
    obtain ⟨call, hid, he⟩ := Option.bind_eq_some_iff.1 he
    split at he
    · cases he
      exact h.started hid ‹_›
    · cases he
  | probed id how =>
    obtain ⟨call, hid, he⟩ := Option.bind_eq_some_iff.1 he
    refine h.probed hid (fun hhow c hc => ?_) he
    subst hhow
    exact hcov call c hid hc
  | raced id settle =>
    obtain ⟨call, hid, he⟩ := Option.bind_eq_some_iff.1 he
    split at he
    · rename_i c hpc
      cases he
      have hheld : call.pc.holds = some c := by rw [hpc]; rfl
      cases settle with
      | true => exact h.advance hid hheld rfl rfl
      | false => exact h.advance hid hheld rfl rfl
    · cases he
  | settled id =>
    obtain ⟨call, hid, he⟩ := Option.bind_eq_some_iff.1 he
    split at he
    · rename_i c hpc
      cases he
      exact h.advance hid (c := c) (by rw [hpc]; rfl) rfl rfl
    · cases he
  | reaped id =>
    obtain ⟨call, hid, he⟩ := Option.bind_eq_some_iff.1 he
    split at he
    · rename_i c hpc
      cases he
      exact h.close hid (by rw [hpc]; rfl)
    · cases he
  | cancel id =>
    obtain ⟨call, hid, rfl⟩ := Option.map_eq_some_iff.1 he
    exact h.cancelled hid fun c hc => hcov call c hid hc
  | closeSession server_id =>
    cases he
    exact h.fades (fades_dropSession server_id)
  | ended c =>
    simp only [State.next] at he
    split at he
    · cases he
      exact h.fades (fades_close c)
    · cases he

lemma Reachable.kept (h : Reachable resolver Covered σ) : Kept σ := by
  induction h with
  | init =>
    exact ⟨fun _ h => absurd h (Nat.not_lt_zero _), (fun _ _ h => by cases h), (fun _ _ _ h => by cases h),
      (fun _ _ _ h => by cases h), (fun _ _ h => by cases h), (fun _ _ _ _ _ h => by cases h),
      (fun _ _ _ _ h => by cases h)⟩
  | step _ hcov he ih => exact ih.step hcov he

/-- An open connection that no session and no call has. -/
def State.Orphaned (σ : State) (c : ConnId) : Prop :=
  c < σ.created ∧ σ.closed c = false ∧ (∀ server_id, σ.cache server_id ≠ some c) ∧
    ∀ i call, σ.calls i = some call → call.pc.holds ≠ some c

lemma holds_of_uncovered {pc : Pc} {c : ConnId} (h : pc.uncovered = some c) : pc.holds = some c := by
  cases pc with
  | starting d => exact h
  | native d dedicated_key => exact h
  | dedicated d cancelled => exact h
  | reaping d => exact h
  | _ => cases h

/-- A call that ends over an open connection leaves it behind. -/
lemma Kept.orphaned (h : Kept σ) (hid : σ.calls id = some call) {c : ConnId} (hc : call.pc.uncovered = some c)
    (hopen : σ.closed c ≠ true) : (σ.leave id).Orphaned c := by
  have hheld := holds_of_uncovered hc
  refine ⟨h.held id call c hid hheld, Bool.eq_false_iff.2 hopen, fun server_id => h.apart id call c server_id hid hheld,
    fun i call' hi hc' => ?_⟩
  have heq := h.single i id call' call c (calls_of_leave hi) hid hc' hheld
  subst heq
  rw [calls_leave] at hi
  cases hi

/-- A step that is not covered leaves a connection behind. -/
lemma Kept.uncovered {e : Event} (h : Kept σ) (he : σ.next resolver e = some σ') (hcov : ¬Covered σ e) :
    ∃ c, σ'.Orphaned c := by
  have hcut : ∀ id, (¬∀ call c, σ.calls id = some call → call.pc.uncovered = some c → σ.closed c = true) →
      ∃ call c, σ.calls id = some call ∧ call.pc.uncovered = some c ∧ σ.closed c ≠ true := by
    intro id hnot
    by_contra hnone
    exact hnot fun call c hid hc => by_contra fun hopen => hnone ⟨call, c, hid, hc, hopen⟩
  cases e with
  | raised id =>
    obtain ⟨call, c, hid, hc, hopen⟩ := hcut id hcov
    obtain ⟨call', hid', he⟩ := Option.bind_eq_some_iff.1 he
    rw [hid] at hid'
    cases hid'
    split at he
    · rename_i hpc
      rw [hpc] at hc
      cases hc
    · cases he
      exact ⟨c, h.orphaned hid hc hopen⟩
    · cases he
  | probed id how =>
    cases how with
    | refused =>
      obtain ⟨call, c, hid, hc, hopen⟩ := hcut id hcov
      obtain ⟨call', hid', he⟩ := Option.bind_eq_some_iff.1 he
      rw [hid] at hid'
      cases hid'
      have hleave : σ' = σ.leave id := by
        cases hpc : call.pc with
        | dedicated d cancelled =>
          rw [hpc] at he
          cases cancelled with
          | true =>
            cases he
            rfl
          | false => cases he
        | _ =>
          rw [hpc] at he
          cases he
      rw [hleave]
      exact ⟨c, h.orphaned hid hc hopen⟩
    | succeeded | failed | timedOut => exact absurd trivial hcov
  | cancel id =>
    obtain ⟨call, c, hid, hc, hopen⟩ := hcut id hcov
    obtain ⟨call', hid', rfl⟩ := Option.map_eq_some_iff.1 he
    rw [hid] at hid'
    cases hid'
    have hleave : σ.cancelled id call = σ.leave id := by
      unfold State.cancelled
      cases hpc : call.pc with
      | probing d | racing d | settling d =>
        rw [hpc] at hc
        cases hc
      | _ => rfl
    rw [hleave]
    exact ⟨c, h.orphaned hid hc hopen⟩
  | _ => exact absurd trivial hcov

/-- In every run in which no call is cut short over an open connection, no connection is left behind: whenever no
call is in progress, every connection is closed or that of the session cached for its server. A call that is cut
short over an open connection leaves it behind. -/
theorem covered_runs_leak_nothing (resolver : Resolver) (σ : State) (h : Reachable resolver Covered σ) :
    (σ.Quiet → NoLeak σ ∧ ∀ server_id c, σ.cache server_id = some c → σ.owner c = server_id) ∧
      ∀ e σ', σ.next resolver e = some σ' → ¬Covered σ e → ∃ c, σ'.Orphaned c := by
  refine ⟨fun hq => ⟨fun c hc => ?_, fun server_id c hc => (h.kept.cached server_id c hc).2⟩,
    fun e σ' he hcov => h.kept.uncovered he hcov⟩
  rcases h.kept.accounted c hc with hclosed | hcached | ⟨i, call, hi, -⟩
  · exact .inl hclosed
  · exact .inr hcached
  · rw [hq i] at hi
    cases hi

/-- A sequence of events. -/
def State.run (resolver : Resolver) : State → List Event → Option State
  | σ, [] => some σ
  | σ, e :: es => (σ.next resolver e).bind fun σ' => σ'.run resolver es

lemma Reachable.run {admitted : State → Event → Prop} {es : List Event} (h : Reachable resolver admitted σ)
    (ha : ∀ σ, ∀ e ∈ es, admitted σ e) (he : σ.run resolver es = some σ') : Reachable resolver admitted σ' := by
  induction es generalizing σ with
  | nil =>
    cases he
    exact h
  | cons e es ih =>
    obtain ⟨σ₁, h₁, he⟩ := Option.bind_eq_some_iff.1 he
    exact ih (h.step (ha σ e List.mem_cons_self) h₁) (fun σ e' he' => ha σ e' (List.mem_cons_of_mem e he')) he

/-- A resolver whose configuration says nothing about any host. -/
def bareResolver : Resolver := ⟨fun _ => {}, fun _ => false, .ok⟩

def gpuServer : ServerRecord := { server_id := ['s'], ssh_host := ['a'] }

/-- A session is opened and a transfer is planned over a connection of its own. -/
def coveredRun : List Event :=
  [.request 0 gpuServer, .resume 0, .connected 0, .started 0, .command 1 (.plan false) gpuServer gpuServer,
    .connected 1, .probed 1 .failed]

theorem covered_runs_leak_nothing_planned :
    ∃ σ, Reachable bareResolver Covered σ ∧ σ.created = 2 ∧ σ.cache ['s'] = some 0 ∧ σ.closed 1 = true ∧
      NoLeak σ := by
  obtain ⟨σ, hσ, hcreated, hcache, hclosed, hq⟩ :
      ∃ σ, State.run bareResolver {} coveredRun = some σ ∧ σ.created = 2 ∧ σ.cache ['s'] = some 0 ∧
        σ.closed 1 = true ∧ σ.Quiet := by
    refine ⟨_, rfl, rfl, rfl, rfl, fun id => ?_⟩
    rcases id with _ | _ | id
    all_goals rfl
  have hcovered : ∀ σ, ∀ e ∈ coveredRun, Covered σ e := by
    intro σ e he
    simp only [coveredRun, List.mem_cons, List.not_mem_nil, or_false] at he
    rcases he with rfl | rfl | rfl | rfl | rfl | rfl | rfl
    all_goals trivial
  have hr := Reachable.init.run hcovered hσ
  exact ⟨σ, hr, hcreated, hcache, hclosed, ((covered_runs_leak_nothing _ σ hr).1 hq).1⟩

/-- A server without an SFTP subsystem: the connection of a session stays open, and nobody has it. -/
theorem failed_sftp_client_leaks :
    ¬∀ (resolver : Resolver) (σ : State), Reachable resolver (fun _ _ => True) σ → σ.Quiet → NoLeak σ := by
  intro h
  obtain ⟨σ, hσ, hcreated, hclosed, hcache, hq⟩ :
      ∃ σ, State.run bareResolver {} [.request 0 gpuServer, .resume 0, .connected 0, .raised 0] = some σ ∧
        σ.created = 1 ∧ σ.closed 0 = false ∧ (∀ server_id, σ.cache server_id = none) ∧ σ.Quiet := by
    refine ⟨_, rfl, rfl, rfl, fun _ => rfl, fun id => ?_⟩
    rcases id with _ | id
    all_goals rfl
  have hr := Reachable.init.run (fun _ _ _ => trivial) hσ
  cases h _ σ hr hq 0 (by rw [hcreated]; exact Nat.one_pos) with
  | inl hc =>
    rw [hclosed] at hc
    cases hc
  | inr hc =>
    rw [hcache] at hc
    cases hc

end SshGpuConsole.Ssh.TransferConnections
