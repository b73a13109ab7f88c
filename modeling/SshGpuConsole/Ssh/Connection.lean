import SshGpuConsole.Lib.Fifo
import SshGpuConsole.Ssh.HostKeys

/-!
# One managed connection

`ManagedConnection` (`ssh/connection.py`) as a state machine: any number of calls of `connect`, `run` and
`close`, each stepping from one await to the next, between them `drop` and the peers. The connections its
factory returns are numbered. A clock gives `time.monotonic()` and `random.random()` where the code reads them;
what the calls return to their callers is left out.

A failing command calls `drop`, which acts on whatever `conn` holds by then. So a failure is attributed to the
connection of its command exactly when it is reported while that connection is installed, or none is and its
loss was not counted yet (`failures_attributed_iff`).
-/

namespace SshGpuConsole.Ssh.Connection
open Shell (Text)

abbrev CallId := ℕ
abbrev ConnId := ℕ

/-- The settings the lifecycle reads. -/
structure Settings where
  reconnect_backoff_min_s : ℚ
  reconnect_backoff_max_s : ℚ

structure Clock where
  monotonic : ℚ
  random : ℚ

inductive Status where
  | disconnected
  | connecting
  | connected
  | failed
  deriving DecidableEq, Repr

/-- Where a call waits. -/
inductive Pc where
  /-- `connect`: for the lock -/
  | waitLock (params : ConnectParams) (force : Bool)
  /-- for the connect factory -/
  | handshake (params : ConnectParams)
  /-- `close`: for the lock -/
  | closeLock
  /-- for the connection to close -/
  | closeWait (c : ConnId)
  /-- `run`: for its command, started on a connection -/
  | command (c : ConnId)
  deriving DecidableEq, Repr

structure State where
  state : Status := .disconnected
  conn : Option ConnId := none
  params : Option ConnectParams := none
  attempts : ℕ := 0
  next_attempt_at : ℚ := 0
  last_error : Text := []
  pending_host_key : Option HostKeyPrompt := none
  /-- `_connect_lock` -/
  lock : List CallId := []
  /-- The connections the factory returned so far. -/
  created : ℕ := 0
  /-- `is_closed` of a connection. -/
  closed : ConnId → Bool := fun _ => false
  aborted : ConnId → Bool := fun _ => false
  calls : CallId → Option Pc := fun _ => none

section
variable (settings : Settings) (clock : Clock) (σ : State) (id : CallId)

/-- `is_open` -/
def State.isOpen : Bool := σ.conn.any fun c => !σ.closed c

/-- `backoff_delay` -/
def State.backoffDelay : ℚ :=
  let base := min settings.reconnect_backoff_max_s (settings.reconnect_backoff_min_s * 2 ^ (σ.attempts - 1))
  min settings.reconnect_backoff_max_s (base * (1 + clock.random * (1 / 4)))

/-- `in_backoff` -/
def State.inBackoff : Prop := clock.monotonic < σ.next_attempt_at

instance : Decidable (σ.inBackoff clock) := inferInstanceAs (Decidable (_ < _))

/-- `_schedule_retry` -/
def State.scheduleRetry : State :=
  let σ := { σ with attempts := σ.attempts + 1 }
  { σ with next_attempt_at := clock.monotonic + σ.backoffDelay settings clock }

/-- `_record_failure` -/
def State.recordFailure (err : ConnectError) : State :=
  let σ := { σ with state := .failed, last_error := err.detail }
  if err.retryable then σ.scheduleRetry settings clock else { σ with next_attempt_at := 0 }

/-- `abort` of a connection. -/
def State.abort (c : ConnId) : State := { σ with aborted := Function.update σ.aborted c true }

/-- `drop` -/
def State.drop : State :=
  let dropped := match σ.conn with
    | none => σ
    | some c => { σ with conn := none }.abort c
  { dropped with state := .failed, last_error := "connection dropped".toList }.scheduleRetry settings clock

def State.goto (pc : Pc) : State := { σ with calls := Function.update σ.calls id (some pc) }

/-- A call returns or raises, and with it its lock is released. -/
def State.leave : State :=
  { σ with lock := σ.lock.filter (· ≠ id), calls := Function.update σ.calls id none }

/-- `connect`, inside its lock. -/
def State.inLock (params : ConnectParams) (force : Bool) : State :=
  if σ.isOpen then σ.leave id
  else if ¬force ∧ σ.inBackoff clock then σ.leave id
  else { σ with state := .connecting, pending_host_key := none }.goto id (.handshake params)

/-- The connect factory returned a connection. -/
def State.install (params : ConnectParams) : State :=
  { σ with
    conn := some σ.created
    created := σ.created + 1
    params := some params
    state := .connected
    attempts := 0
    next_attempt_at := 0
    last_error := [] }.leave id

/-- `close`, inside its lock. -/
def State.closeInLock : State :=
  let σ' := { σ with
    conn := none
    state := .disconnected
    pending_host_key := none
    lock := σ.lock.filter (· ≠ id) }
  match σ.conn with
  | none => σ'.leave id
  | some c => σ'.goto id (.closeWait c)

end

/-- How the connect factory ends. -/
inductive HandshakeEnd where
  | connected
  | cancelled
  /-- with a `ConnectError` -/
  | refused (err : ConnectError)
  /-- with another error, classified -/
  | failed (classified : ConnectError)
  deriving DecidableEq, Repr

/-- How a command ends. -/
inductive CommandEnd where
  | finished
  | cancelled
  | timedOut
  | failed
  deriving DecidableEq, Repr

/-- `run` drops the connection. -/
def CommandEnd.drops : CommandEnd → Bool
  | .finished | .cancelled => false
  | .timedOut | .failed => true

inductive Event where
  | connect (id : CallId) (params : ConnectParams) (force : Bool)
  | run (id : CallId)
  | close (id : CallId)
  /-- a call gets the lock it waits for -/
  | resume (id : CallId) (clock : Clock)
  | handshaken (id : CallId) (how : HandshakeEnd) (clock : Clock)
  | commandEnded (id : CallId) (how : CommandEnd) (clock : Clock)
  /-- `wait_closed` ends: the peer hangs, or not -/
  | closeEnded (id : CallId) (hangs : Bool)
  /-- a call that waits for the lock or for `wait_closed` is cancelled -/
  | cancel (id : CallId)
  /-- `drop`, by `note_connection_lost` -/
  | drop (clock : Clock)
  /-- a connection is closed, by its peer or by an `abort` -/
  | died (c : ConnId)

def State.next (settings : Settings) (σ : State) : Event → Option State
  | .connect id params force =>
    if (σ.calls id).isSome then none else some ({ σ with lock := σ.lock ++ [id] }.goto id (.waitLock params force))
  | .run id =>
    if (σ.calls id).isSome then none
    else match σ.conn with
      | none => some σ
      | some c => some (if σ.closed c then σ else σ.goto id (.command c))
  | .close id => if (σ.calls id).isSome then none else some ({ σ with lock := σ.lock ++ [id] }.goto id .closeLock)
  | .resume id clock =>
    if Fifo.Granted 1 σ.lock id then
      match σ.calls id with
      | some (.waitLock params force) => some (σ.inLock clock id params force)
      | some .closeLock => some (σ.closeInLock id)
      | _ => none
    else none
  | .handshaken id how clock =>
    match σ.calls id, how with
    | some (.handshake params), .connected => some (σ.install id params)
    | some (.handshake _), .cancelled => some ({ σ with state := .disconnected }.leave id)
    | some (.handshake _), .refused err =>
      let σ := σ.recordFailure settings clock err
      some ({ σ with pending_host_key := err.pending_host_key <|> σ.pending_host_key }.leave id)
    | some (.handshake _), .failed classified => some ((σ.recordFailure settings clock classified).leave id)
    | _, _ => none
  | .commandEnded id how clock =>
    match σ.calls id with
    | some (.command _) => some ((if how.drops then σ.drop settings clock else σ).leave id)
    | _ => none
  | .closeEnded id hangs =>
    match σ.calls id with
    | some (.closeWait c) => some ((if hangs then σ.abort c else σ).leave id)
    | _ => none
  | .cancel id =>
    match σ.calls id with
    | some (.waitLock _ _) | some .closeLock | some (.closeWait _) => some (σ.leave id)
    | _ => none
  | .drop clock => some (σ.drop settings clock)
  | .died c => if c < σ.created then some { σ with closed := Function.update σ.closed c true } else none

/-! ### Runs -/

/-- One step of a run. -/
structure Move where
  before : State
  event : Event
  after : State

/-- The connection a command that fails was started on. -/
def Move.failed (m : Move) : Option ConnId :=
  match m.event with
  | .commandEnded id how _ =>
    match m.before.calls id with
    | some (.command c) => if how.drops then some c else none
    | _ => none
  | _ => none

/-- The connection whose loss is reported: by a command that fails on it, or by `note_connection_lost`. -/
def Move.lost (m : Move) : Option ConnId :=
  match m.event with
  | .drop _ => m.before.conn
  | _ => m.failed

/-- The step increases `attempts` or schedules a backoff for the loss of a connection. -/
def Move.charges (c : ConnId) (m : Move) : Bool :=
  m.lost = some c ∧ (m.before.attempts ≠ m.after.attempts ∨ m.before.next_attempt_at ≠ m.after.next_attempt_at)

/-- How often the loss of a connection was counted. -/
def charged (c : ConnId) (ms : List Move) : ℕ := ms.countP (Move.charges c)

/-- The steps of a run; an event that is not possible where it comes is none. -/
def moves (settings : Settings) : State → List Event → List Move
  | _, [] => []
  | σ, e :: es =>
    match σ.next settings e with
    | none => moves settings σ es
    | some σ' => ⟨σ, e, σ'⟩ :: moves settings σ' es

/-- Failures are attributed to the connection they happened on. -/
structure Attributed (ms : List Move) : Prop where
  /-- A failing command aborts no other connection. -/
  aborts : ∀ m ∈ ms, ∀ c, m.failed = some c → ∀ d, d ≠ c → m.after.aborted d = m.before.aborted d
  /-- A newer connection stays installed, and its status is left alone. -/
  keeps : ∀ m ∈ ms, ∀ c, m.failed = some c → ∀ d, d ≠ c → m.before.conn = some d →
    m.after.conn = some d ∧ m.after.state = m.before.state
  /-- The loss of a connection is counted once. -/
  once : ∀ c, charged c ms ≤ 1

/-- Every failure is reported while the connection of its command is installed, or while none is and its loss
was not counted. -/
def Timely (ms : List Move) : Prop :=
  ∀ pre m post, ms = pre ++ m :: post → ∀ c, m.failed = some c →
    m.before.conn = some c ∨ m.before.conn = none ∧ charged c pre = 0

/-! ### What a step does -/

section
variable {settings : Settings} {σ σ' : State} {e : Event}

lemma recordFailure_frame (settings : Settings) (clock : Clock) (err : ConnectError) (σ : State) :
    (σ.recordFailure settings clock err).conn = σ.conn ∧
      (σ.recordFailure settings clock err).created = σ.created ∧
      (σ.recordFailure settings clock err).calls = σ.calls := by
  unfold State.recordFailure
  dsimp only
  split
  · exact ⟨rfl, rfl, rfl⟩
  · exact ⟨rfl, rfl, rfl⟩

/-- What `drop` leaves. -/
lemma drop_frame (settings : Settings) (clock : Clock) (σ : State) :
    (σ.drop settings clock).conn = none ∧ (σ.drop settings clock).created = σ.created ∧
      (σ.drop settings clock).calls = σ.calls ∧ (σ.drop settings clock).attempts = σ.attempts + 1 := by
  unfold State.drop
  cases h : σ.conn with
  | none => exact ⟨h, rfl, rfl, rfl⟩
  | some c => exact ⟨rfl, rfl, rfl, rfl⟩

/-- `drop` aborts the connection that is installed, and no other. -/
lemma drop_aborted (clock : Clock) (σ : State) (d : ConnId) :
    (σ.drop settings clock).aborted d = (σ.aborted d || σ.conn = some d) := by
  unfold State.drop
  cases h : σ.conn with
  | none => simp [State.scheduleRetry]
  | some c =>
    show Function.update σ.aborted c true d = _
    by_cases hd : d = c
    · subst hd
      simp
    · rw [Function.update_of_ne hd]
      simp [Ne.symm hd]

/-- What a step may do to the connections: it installs none but a new one, and starts commands on none but
the one that is installed. -/
structure Advances (σ σ' : State) : Prop where
  created : σ.created ≤ σ'.created
  conn : ∀ c, σ'.conn = some c → σ.conn = some c ∨ c = σ.created ∧ c < σ'.created
  commands : ∀ id c, σ'.calls id = some (.command c) → σ.calls id = some (.command c) ∨ σ.conn = some c

lemma Advances.of_frame (hconn : σ'.conn = σ.conn ∨ σ'.conn = none) (hcreated : σ'.created = σ.created)
    (hcalls : σ'.calls = σ.calls) : Advances σ σ' where
  created := hcreated.ge
  conn := fun c hc => by
    cases hconn with
    | inl h => exact .inl (h ▸ hc)
    | inr h => rw [h] at hc; cases hc
  commands := fun _ _ h => .inl (hcalls ▸ h)

lemma Advances.refl (σ : State) : Advances σ σ := .of_frame (.inl rfl) rfl rfl

/-- A call that ends or goes on to wait for something else than a command adds none. -/
lemma commands_update {calls : CallId → Option Pc} {id : CallId} {pc : Option Pc}
    (hpc : ∀ c, pc ≠ some (.command c)) {i : CallId} {c : ConnId}
    (h : Function.update calls id pc i = some (.command c)) : calls i = some (.command c) := by
  by_cases hi : i = id
  · rw [hi, Function.update_self] at h
    exact absurd h (hpc c)
  · rwa [Function.update_of_ne hi] at h

lemma Advances.leave (h : Advances σ σ') (id : CallId) : Advances σ (σ'.leave id) where
  created := h.created
  conn := h.conn
  commands := fun i c hc => h.commands i c (commands_update (fun _ h => by cases h) hc)

lemma Advances.goto (h : Advances σ σ') (id : CallId) {pc : Pc} (hpc : ∀ c, pc ≠ .command c) :
    Advances σ (σ'.goto id pc) where
  created := h.created
  conn := h.conn
  commands := fun i c hc => h.commands i c (commands_update (fun c h => hpc c (Option.some.inj h)) hc)

lemma advances_command {c : ConnId} (hc : σ.conn = some c) (id : CallId) : Advances σ (σ.goto id (.command c)) where
  created := le_rfl
  conn := fun _ h => .inl h
  commands := fun i d (hd : Function.update σ.calls id (some (.command c)) i = some (.command d)) => by
    by_cases hi : i = id
    · rw [hi, Function.update_self] at hd
      cases hd
      exact .inr hc
    · rw [Function.update_of_ne hi] at hd
      exact .inl hd

lemma advances_queue (σ : State) (id : CallId) {pc : Pc} (hpc : ∀ c, pc ≠ .command c) :
    Advances σ ({ σ with lock := σ.lock ++ [id] }.goto id pc) := by
  apply Advances.goto
  · exact .of_frame (.inl rfl) rfl rfl
  · exact hpc

lemma advances_inLock (clock : Clock) (σ : State) (id : CallId) (params : ConnectParams) (force : Bool) :
    Advances σ (σ.inLock clock id params force) := by
  unfold State.inLock
  split
  · exact (Advances.refl σ).leave id
  split
  · exact (Advances.refl σ).leave id
  · apply Advances.goto
    · exact .of_frame (.inl rfl) rfl rfl
    · exact fun _ h => by cases h

lemma advances_recordFailure (settings : Settings) (clock : Clock) (err : ConnectError) (σ : State) :
    Advances σ (σ.recordFailure settings clock err) := by
  obtain ⟨hconn, hcreated, hcalls⟩ := recordFailure_frame settings clock err σ
  exact .of_frame (.inl hconn) hcreated hcalls

lemma advances_install (σ : State) (id : CallId) (params : ConnectParams) : Advances σ (σ.install id params) where
  created := Nat.le_succ _
  conn := fun c hc => .inr ⟨(Option.some.inj hc).symm, (Option.some.inj hc) ▸ Nat.lt_succ_self _⟩
  commands := fun _ _ h => .inl (commands_update (fun _ h => by cases h) h)

lemma advances_handshaken {id : CallId} {how : HandshakeEnd} {clock : Clock}
    (h : σ.next settings (.handshaken id how clock) = some σ') : Advances σ σ' := by
  simp only [State.next] at h
  split at h
  · cases h
    exact advances_install σ id _
  · cases h
    apply Advances.leave
    exact .of_frame (.inl rfl) rfl rfl
  · cases h
    apply Advances.leave
    obtain ⟨hcreated, hconn, hcommands⟩ := advances_recordFailure settings clock _ σ
    exact ⟨hcreated, hconn, hcommands⟩
  · cases h
    exact (advances_recordFailure settings clock _ σ).leave id
  · cases h

lemma advances_closeInLock (σ : State) (id : CallId) : Advances σ (σ.closeInLock id) := by
  unfold State.closeInLock
  split
  · apply Advances.leave
    exact .of_frame (.inr rfl) rfl rfl
  · apply Advances.goto
    · exact .of_frame (.inr rfl) rfl rfl
    · exact fun _ h => by cases h

lemma advances_drop (clock : Clock) (σ : State) : Advances σ (σ.drop settings clock) := by
  obtain ⟨hconn, hcreated, hcalls, -⟩ := drop_frame settings clock σ
  exact .of_frame (.inr hconn) hcreated hcalls

lemma Advances.step (h : σ.next settings e = some σ') : Advances σ σ' := by
  cases e with
  | connect id params force =>
    simp only [State.next] at h
    split at h
    · cases h
    · cases h
      exact advances_queue σ id fun _ h => by cases h
  | run id =>
    simp only [State.next] at h
    split at h
    · cases h
    split at h
    · cases h
      exact .refl σ
    · rename_i c hc
      cases h
      split
      · exact .refl σ
      · exact advances_command hc id
  | close id =>
    simp only [State.next] at h
    split at h
    · cases h
    · cases h
      exact advances_queue σ id fun _ h => by cases h
  | resume id clock =>
    simp only [State.next] at h
    split at h
    · split at h
      · cases h
        exact advances_inLock clock σ id _ _
      · cases h
        exact advances_closeInLock σ id
      · cases h
    · cases h
  | handshaken id how clock => exact advances_handshaken h
  | commandEnded id how clock =>
    simp only [State.next] at h
    split at h
    · cases h
      apply Advances.leave
      split
      · exact advances_drop clock σ
      · exact .refl σ
    · cases h
  | closeEnded id hangs =>
    simp only [State.next] at h
    split at h
    · cases h
      apply Advances.leave
      split
      · exact .of_frame (.inl rfl) rfl rfl
      · exact .refl σ
    · cases h
  | cancel id =>
    simp only [State.next] at h
    split at h
    · cases h
      exact (Advances.refl σ).leave id
    · cases h
      exact (Advances.refl σ).leave id
    · cases h
      exact (Advances.refl σ).leave id
    · cases h
  | drop clock =>
    cases h
    exact advances_drop clock σ
  | died c =>
    simp only [State.next] at h
    split at h
    · cases h
      exact .of_frame (.inl rfl) rfl rfl
    · cases h

/-- What is installed, and what commands run on, was made. -/
structure Fresh (σ : State) : Prop where
  conn : ∀ c, σ.conn = some c → c < σ.created
  commands : ∀ id c, σ.calls id = some (.command c) → c < σ.created

lemma Fresh.step (h : Fresh σ) (ha : Advances σ σ') : Fresh σ' where
  conn := fun c hc => by
    cases ha.conn c hc with
    | inl hold => exact (h.conn c hold).trans_le ha.created
    | inr hnew => exact hnew.2
  commands := fun id c hc => by
    cases ha.commands id c hc with
    | inl hold => exact (h.commands id c hold).trans_le ha.created
    | inr hconn => exact (h.conn c hconn).trans_le ha.created

end

/-! ### Losses -/

section
variable {settings : Settings} {σ : State} {m : Move} {c : ConnId}

/-- A failing command drops what is installed. -/
lemma failed_after (hm : m.before.next settings m.event = some m.after) (h : m.failed = some c) :
    (∃ id, m.before.calls id = some (.command c)) ∧
      ∃ clock, m.after.conn = none ∧ m.after.attempts = m.before.attempts + 1 ∧
        m.after.aborted = (m.before.drop settings clock).aborted := by
  unfold Move.failed at h
  split at h
  · rename_i id how clock he
    rw [he] at hm
    split at h
    · rename_i d hd
      split at h
      · rename_i hdrops
        cases h
        simp only [State.next, hd, hdrops, if_true] at hm
        obtain ⟨hconn, -, -, hattempts⟩ := drop_frame settings clock m.before
        rw [← Option.some.inj hm]
        exact ⟨⟨id, hd⟩, clock, hconn, hattempts, rfl⟩
      · cases h
    · cases h
  · cases h

lemma lost_of_failed (h : m.failed = some c) : m.lost = some c := by
  unfold Move.lost
  split
  · rename_i he
    rw [Move.failed, he] at h
    cases h
  · exact h

/-- The connection that is lost was made, and none is installed afterwards. -/
lemma lost_after (hm : m.before.next settings m.event = some m.after) (hf : Fresh m.before)
    (h : m.lost = some c) : c < m.before.created ∧ m.after.conn = none ∧ (m.failed = some c ∨ m.before.conn = some c) := by
  unfold Move.lost at h
  split at h
  · rename_i clock he
    rw [he] at hm
    rw [← Option.some.inj hm]
    exact ⟨hf.conn c h, (drop_frame settings clock m.before).1, .inr h⟩
  · obtain ⟨⟨id, hid⟩, clock, hconn, -, -⟩ := failed_after hm h
    exact ⟨hf.commands id c hid, hconn, .inl h⟩

lemma charges_of_failed (hm : m.before.next settings m.event = some m.after) (h : m.failed = some c) :
    m.charges c = true := by
  obtain ⟨-, clock, -, hattempts, -⟩ := failed_after hm h
  refine decide_eq_true ⟨lost_of_failed h, .inl ?_⟩
  rw [hattempts]
  exact (Nat.succ_ne_self _).symm

/-- What is known about the losses counted so far. -/
structure Ledger (σ : State) (pre : List Move) : Prop where
  fresh : Fresh σ
  once : ∀ c, charged c pre ≤ 1
  installed : ∀ c, σ.conn = some c → charged c pre = 0
  unborn : ∀ c, σ.created ≤ c → charged c pre = 0

lemma charged_append (c : ConnId) (pre : List Move) (m : Move) :
    charged c (pre ++ [m]) = charged c pre + if m.charges c then 1 else 0 := by
  rw [charged, List.countP_append, List.countP_singleton, charged]

lemma Ledger.step {pre : List Move} (h : Ledger m.before pre) (hm : m.before.next settings m.event = some m.after)
    (ht : ∀ c, m.failed = some c → m.before.conn = some c ∨ m.before.conn = none ∧ charged c pre = 0) :
    Ledger m.after (pre ++ [m]) := by
  have ha := Advances.step hm
  -- a loss is counted for a connection that has none on its account, and takes it out of `conn`
  have hcharge : ∀ c, m.charges c = true →
      charged c pre = 0 ∧ m.after.conn = none ∧ c < m.after.created := by
    intro c hc
    obtain ⟨hlt, hnone, hlost⟩ := lost_after hm h.fresh (of_decide_eq_true hc).1
    refine ⟨?_, hnone, hlt.trans_le ha.created⟩
    cases hlost with
    | inl hfailed =>
      cases ht c hfailed with
      | inl hconn => exact h.installed c hconn
      | inr hnew => exact hnew.2
    | inr hconn => exact h.installed c hconn
  refine ⟨h.fresh.step ha, fun c => ?_, fun c hconn => ?_, fun c hc => ?_⟩
  · rw [charged_append]
    split
    · rename_i hcharges
      rw [(hcharge c hcharges).1]
    · exact h.once c
  · rw [charged_append, if_neg]
    · cases ha.conn c hconn with
      | inl hold => exact h.installed c hold
      | inr hnew => exact h.unborn c hnew.1.ge
    · intro hcharges
      rw [(hcharge c hcharges).2.1] at hconn
      cases hconn
  · rw [charged_append, if_neg]
    · exact h.unborn c (ha.created.trans hc)
    · intro hcharges
      exact absurd (hcharge c hcharges).2.2 (not_lt.2 hc)

end

/-! ### Whole runs -/

section
variable {settings : Settings} {σ : State}

lemma moves_valid {es : List Event} {m : Move} (h : m ∈ moves settings σ es) :
    m.before.next settings m.event = some m.after := by
  induction es generalizing σ with
  | nil => cases h
  | cons e es ih =>
    unfold moves at h
    split at h
    · exact ih h
    · rename_i σ' hnext
      cases h with
      | head => exact hnext
      | tail _ h => exact ih h

/-- In a run whose failures are timely, the losses stay counted once. -/
lemma Ledger.run {es : List Event} {pre : List Move} (h : Ledger σ pre)
    (ht : ∀ p m post, moves settings σ es = p ++ m :: post → ∀ c, m.failed = some c →
      m.before.conn = some c ∨ m.before.conn = none ∧ charged c (pre ++ p) = 0) (c : ConnId) :
    charged c (pre ++ moves settings σ es) ≤ 1 := by
  induction es generalizing σ pre with
  | nil =>
    rw [moves, List.append_nil]
    exact h.once c
  | cons e es ih =>
    unfold moves at ht ⊢
    split at ht
    · exact ih h ht
    · rename_i σ' hnext
      have hfirst := ht [] _ _ rfl
      rw [List.append_nil] at hfirst
      have hledger : Ledger σ' (pre ++ [⟨σ, e, σ'⟩]) := Ledger.step (m := ⟨σ, e, σ'⟩) h hnext hfirst
      rw [List.append_cons]
      refine ih hledger fun p m post heq d hd => ?_
      rw [← List.append_cons]
      exact ht (⟨σ, e, σ'⟩ :: p) m post (by rw [heq, List.cons_append]) d hd

lemma ledger_init : Ledger {} [] where
  fresh := ⟨(fun _ h => by cases h), (fun _ _ h => by cases h)⟩
  once := fun _ => Nat.zero_le _
  installed := fun _ _ => rfl
  unborn := fun _ _ => rfl

/-- A failure that is not timely aborts a newer connection or is counted a second time. -/
lemma Attributed.timely {es : List Event} (h : Attributed (moves settings σ es)) :
    Timely (moves settings σ es) := by
  intro pre m post heq c hc
  have hmem : m ∈ moves settings σ es := by
    rw [heq]
    exact List.mem_append_right _ List.mem_cons_self
  have hm := moves_valid hmem
  obtain ⟨-, clock, hnone, -, -⟩ := failed_after hm hc
  cases hconn : m.before.conn with
  | none =>
    refine .inr ⟨rfl, ?_⟩
    have honce := h.once c
    rw [heq, charged, List.countP_append, List.countP_cons, if_pos (charges_of_failed hm hc)] at honce
    rw [charged]
    omega
  | some d =>
    by_cases hd : d = c
    · exact .inl (by rw [hd])
    · have hkept := (h.keeps m hmem c hc d hd hconn).1
      rw [hnone] at hkept
      cases hkept

/-- A timely failure aborts nothing but its own connection. -/
lemma Timely.attributed {es : List Event} (h : Timely (moves settings {} es)) :
    Attributed (moves settings {} es) where
  aborts := fun m hm c hc d hd => by
    obtain ⟨pre, post, heq⟩ := List.append_of_mem hm
    obtain ⟨-, clock, -, -, haborted⟩ := failed_after (moves_valid hm) hc
    rw [haborted, drop_aborted]
    cases h pre m post heq c hc with
    | inl hconn => simp [hconn, Ne.symm hd]
    | inr hnone => simp [hnone.1]
  keeps := fun m hm c hc d hd hconn => by
    obtain ⟨pre, post, heq⟩ := List.append_of_mem hm
    cases h pre m post heq c hc with
    | inl hc =>
      rw [hc] at hconn
      exact absurd (Option.some.inj hconn).symm hd
    | inr hnone =>
      rw [hnone.1] at hconn
      cases hconn
  once := fun c => by
    have hrun : charged c ([] ++ moves settings {} es) ≤ 1 :=
      ledger_init.run (fun p m post heq d hd => h p m post heq d hd) c
    rwa [List.nil_append] at hrun

end

/-- Failures are attributed to the connection they happened on exactly in the runs whose failures are timely. -/
theorem failures_attributed_iff (settings : Settings) (es : List Event) :
    Attributed (moves settings {} es) ↔ Timely (moves settings {} es) :=
  ⟨Attributed.timely, Timely.attributed⟩

/-! ### A late failure -/

def lateSettings : Settings := ⟨2, 60⟩

def lateClock : Clock := ⟨10, 0⟩

/-- Two commands start on connection 0; the first times out, a forced test installs connection 1, and then the
second fails. -/
def lateFailure : List Event :=
  [.connect 0 { host := "gpu".toList } false, .resume 0 lateClock, .handshaken 0 .connected lateClock,
    .run 1, .run 2, .commandEnded 1 .timedOut lateClock,
    .connect 3 { host := "gpu".toList } true, .resume 3 lateClock, .handshaken 3 .connected lateClock,
    .commandEnded 2 .failed lateClock]

/-- The late failure takes the new connection down. -/
theorem late_failure_aborts_newer : ¬Attributed (moves lateSettings {} lateFailure) := by
  intro h
  have hsome : (moves lateSettings {} lateFailure)[9]?.map
      (fun m => (m.failed, m.before.aborted 1, m.after.aborted 1)) = some (some 0, false, true) := by
    decide +kernel
  obtain ⟨m, hm, heq⟩ := Option.map_eq_some_iff.1 hsome
  have hsame := h.aborts m (List.mem_of_getElem? hm) 0 (congrArg (·.1) heq) 1 (by decide)
  rw [show m.after.aborted 1 = true from congrArg (·.2.2) heq,
    show m.before.aborted 1 = false from congrArg (·.2.1) heq] at hsame
  cases hsame

end SshGpuConsole.Ssh.Connection
