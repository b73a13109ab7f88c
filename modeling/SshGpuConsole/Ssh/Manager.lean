import SshGpuConsole.Lib.Dict
import SshGpuConsole.Lib.Fifo
import SshGpuConsole.Ssh.HostKeys

/-!
# The connection manager

`SshManager` (`ssh/manager.py`) over `ManagedConnection` (`ssh/connection.py`) as a state machine: any number
of calls of `run`, `acquire_connection`, `test_connection`, `trust_host_key` and `close_server`, each stepping
from one await to the next. Bodies of the manager's lock never await, so the lock is left out; the semaphores
and the connect locks are first come, first served. Backoff is a matter of the clock, so the events say
whether it is active.
-/

namespace SshGpuConsole.Ssh.Manager
open Shell (Text)

abbrev CallId := ℕ
abbrev ConnId := ℕ

/-- A permit of a server slot, or the wait for it; a retiring call takes one for each permit there is. -/
abbrev Token := CallId × ℕ

/-- The settings and collaborators of the manager. -/
structure Config where
  max_in_flight_global : ℕ
  max_in_flight_per_server : ℕ
  resolver : Resolver
  casefold : Text → Text
  known_hosts : KnownHosts

abbrev Identity := Text × Option Text × Option Int

/-- `_identity_of`. -/
def identityOf (cfg : Config) (server : ServerRecord) : Identity :=
  (cfg.casefold server.ssh_host, server.username, server.port)

/-- `_MAX_MANAGED`. -/
def maxManaged : ℕ := 512

inductive Kind where
  | run
  | acquire
  | test
  | close
  deriving DecidableEq, Repr

/-- Where a call waits. -/
inductive Pc where
  /-- for a permit of `_global_slots` -/
  | waitGlobal
  /-- for the end of a retirement that was the `n`-th of its server -/
  | waitRetired (n : ℕ)
  /-- retiring: for its permit `k` of the server slot -/
  | drain (c : ConnId) (k : ℕ)
  /-- retiring: for the connect lock, the entry being gone -/
  | closeLock (c : ConnId)
  /-- retiring: for the connection to close -/
  | closeWait (c : ConnId)
  /-- for a permit of the server slot -/
  | waitSlot (c : ConnId)
  /-- for the connect lock -/
  | waitLock (c : ConnId)
  /-- for the connect factory; the gate's answer, once the server presented a key -/
  | handshake (c : ConnId) (params : ConnectParams) (answer : Option (Except ConnectError Unit))
  /-- for a command to end -/
  | command (c : ConnId)

structure Call where
  kind : Kind
  server : ServerRecord
  pc : Pc

/-- What `_managed`, `_identities` and `_server_slots` hold for a server; the slot is the connection's. -/
structure Entry where
  connection : ConnId
  identity : Identity
  deriving DecidableEq, Repr

/-- A key a server presented in a handshake of a connection. -/
structure Presented where
  connection : ConnId
  params : ConnectParams
  key : HostKey
  unknown : Bool
  deriving DecidableEq, Repr

structure State where
  managed : Dict Text Entry := []
  /-- The connections made so far. -/
  created : ℕ := 0
  owner : ConnId → Text := fun _ => []
  /-- `conn` of a connection: absent, or whether it is still open. -/
  conn : ConnId → Option Bool := fun _ => none
  pending : ConnId → Option HostKeyPrompt := fun _ => none
  /-- `_connect_lock` -/
  lock : ConnId → List CallId := fun _ => []
  slot : ConnId → List Token := fun _ => []
  global : List CallId := []
  retiring : Text → Bool := fun _ => false
  /-- How many retirements of a server have ended. -/
  retired : Text → ℕ := fun _ => 0
  trust : HostKeyTrust
  calls : CallId → Option Call := fun _ => none
  /-- The keys presented so far. -/
  presented : List Presented := []
  /-- The entries added to the trust store so far, with the connection of the pending key. -/
  added : List (ConnId × TrustedHostKey) := []

/-- `ManagedConnection.is_open`. -/
def State.isOpen (σ : State) (c : ConnId) : Bool := σ.conn c = some true

/-- The connection registered for a server. -/
def State.registered (σ : State) (server_id : Text) : Option ConnId :=
  (σ.managed.get server_id).map Entry.connection

/-! ### The steps of a call -/

section
variable (cfg : Config) (σ : State) (id : CallId) (call : Call)

def State.goto (pc : Pc) : State := { σ with calls := Function.update σ.calls id (some { call with pc }) }

/-- The call returns or raises: what it holds is released. -/
def State.leave : State :=
  { σ with
    global := σ.global.filter (· ≠ id)
    slot := fun c => (σ.slot c).filter (·.1 ≠ id)
    lock := fun c => (σ.lock c).filter (· ≠ id)
    calls := Function.update σ.calls id none }

/-- `ManagedConnection.connect`, up to its lock. -/
def State.connect (c : ConnId) : State :=
  match paramsOf cfg.resolver call.server with
  | .error _ => σ.leave id
  | .ok _ => { σ with lock := Function.update σ.lock c (σ.lock c ++ [id]) }.goto id call (.waitLock c)

/-- What a call does with the entry of its server: a test connects, the others queue for the slot. -/
def State.withEntry (c : ConnId) : State :=
  if call.kind = .test then σ.connect cfg id call c
  else { σ with slot := Function.update σ.slot c (σ.slot c ++ [(id, 0)]) }.goto id call (.waitSlot c)

/-- A new `ManagedConnection`, registered. -/
def State.register (server : ServerRecord) : State :=
  { σ with
    managed := σ.managed.push server.server_id ⟨σ.created, identityOf cfg server⟩
    created := σ.created + 1
    owner := Function.update σ.owner σ.created server.server_id }

/-- The second half of `_get_entry`. -/
def State.findEntry : State :=
  if σ.retiring call.server.server_id then σ.leave id
  else match σ.registered call.server.server_id with
    | some c => σ.withEntry cfg id call c
    | none =>
      if maxManaged ≤ σ.managed.length then σ.leave id
      else (σ.register cfg call.server).withEntry cfg id call σ.created

/-- What a call does behind `close_server`. -/
def State.afterClose : State := if call.kind = .close then σ.leave id else σ.findEntry cfg id call

/-- The `finally` of the retiring call. -/
def State.endRetire : State :=
  { σ with
    slot := fun c => (σ.slot c).filter (·.1 ≠ id)
    retiring := Function.update σ.retiring call.server.server_id false
    retired := Function.update σ.retired call.server.server_id (σ.retired call.server.server_id + 1) }

/-- The loop over the permits, of which the call has `k`, and what follows it. -/
def State.drainFrom (c : ConnId) (k : ℕ) : State :=
  if k < cfg.max_in_flight_per_server then
    { σ with slot := Function.update σ.slot c (σ.slot c ++ [(id, k)]) }.goto id call (.drain c k)
  else if σ.registered call.server.server_id = some c then
    { σ with
      managed := σ.managed.pop call.server.server_id
      lock := Function.update σ.lock c (σ.lock c ++ [id]) }.goto id call (.closeLock c)
  else (σ.endRetire id call).afterClose cfg id call

/-- `close_server`. -/
def State.closeServer : State :=
  if σ.retiring call.server.server_id then
    σ.goto id call (.waitRetired (σ.retired call.server.server_id))
  else
    let σ := { σ with retiring := Function.update σ.retiring call.server.server_id true }
    match σ.registered call.server.server_id with
    | none => (σ.endRetire id call).afterClose cfg id call
    | some c => σ.drainFrom cfg id call c 0

/-- `_get_entry`. -/
def State.getEntry : State :=
  if σ.retiring call.server.server_id then σ.leave id
  else match σ.managed.get call.server.server_id with
    | some e =>
      if e.identity ≠ identityOf cfg call.server then σ.closeServer cfg id call
      else σ.findEntry cfg id call
    | none => σ.findEntry cfg id call

/-- The connection is open: a command starts on it, the other calls return. -/
def State.opened (c : ConnId) : State :=
  if call.kind = .run then σ.goto id call (.command c) else σ.leave id

/-- `_acquire`. -/
def State.acquire (c : ConnId) : State :=
  if σ.isOpen c then σ.opened id call c else σ.connect cfg id call c

/-- What follows the server slot; `acquire_connection` does not look again. -/
def State.inSlot (c : ConnId) : State :=
  if call.kind = .run ∧ (σ.retiring call.server.server_id ∨ σ.registered call.server.server_id ≠ some c) then
    σ.leave id
  else σ.acquire cfg id call c

/-- `ManagedConnection.connect`, inside its lock. -/
def State.inLock (c : ConnId) (backoff : Bool) : State :=
  if σ.isOpen c then { σ with lock := Function.update σ.lock c ((σ.lock c).filter (· ≠ id)) }.opened id call c
  else if call.kind ≠ .test ∧ backoff then σ.leave id
  else match paramsOf cfg.resolver call.server with
    | .error _ => σ.leave id
    | .ok params =>
      { σ with pending := Function.update σ.pending c none }.goto id call (.handshake c params none)

lemma calls_goto (pc : Pc) : (σ.goto id call pc).calls id = some { call with pc } := Function.update_self ..

lemma calls_goto_of_ne {i : CallId} (h : i ≠ id) (pc : Pc) : (σ.goto id call pc).calls i = σ.calls i :=
  Function.update_of_ne h ..

lemma calls_leave : (σ.leave id).calls id = none := Function.update_self ..

lemma calls_leave_of_ne {i : CallId} (h : i ≠ id) : (σ.leave id).calls i = σ.calls i :=
  Function.update_of_ne h ..

end

/-! ### Runs -/

/-- How the connect factory ends. -/
inductive HandshakeEnd where
  | connected
  /-- with the error of the gate -/
  | refused
  /-- with any other error -/
  | failed
  deriving DecidableEq, Repr

inductive Event where
  | start (id : CallId) (kind : Kind) (server : ServerRecord) (backoff : Bool)
  | trust (id : CallId) (server : ServerRecord) (prompt : HostKeyPrompt)
  | resume (id : CallId) (backoff : Bool)
  /-- the server of a handshake presents its key -/
  | present (id : CallId) (key : HostKey) (addr : Text)
  | ended (id : CallId) (how : HandshakeEnd)
  /-- a command ends, and with it the connection when it failed -/
  | commandEnded (id : CallId) (dropped : Bool)
  /-- the peer closes a connection -/
  | died (c : ConnId)
  /-- `note_connection_lost` -/
  | lost (server_id : Text)
  /-- a call is cancelled; one that has unregistered a connection gets to close it -/
  | cancel (id : CallId)

section
variable (cfg : Config) (σ : State)

/-- A call resumes, if what it waits for is there. -/
def State.resume (id : CallId) (call : Call) (backoff : Bool) : Option State :=
  match call.pc with
  | .waitGlobal =>
    if Fifo.Granted cfg.max_in_flight_global σ.global id then some (σ.getEntry cfg id call) else none
  | .waitRetired n =>
    if n < σ.retired call.server.server_id then some (σ.afterClose cfg id call) else none
  | .drain c k =>
    if Fifo.Granted cfg.max_in_flight_per_server (σ.slot c) (id, k) then some (σ.drainFrom cfg id call c (k + 1))
    else none
  | .closeLock c =>
    if Fifo.Granted 1 (σ.lock c) id then
      some ({ σ with
        conn := Function.update σ.conn c none
        pending := Function.update σ.pending c none
        lock := Function.update σ.lock c ((σ.lock c).filter (· ≠ id)) }.goto id call (.closeWait c))
    else none
  | .closeWait _ => some ((σ.endRetire id call).afterClose cfg id call)
  | .waitSlot c =>
    if Fifo.Granted cfg.max_in_flight_per_server (σ.slot c) (id, 0) then some (σ.inSlot cfg id call c) else none
  | .waitLock c => if Fifo.Granted 1 (σ.lock c) id then some (σ.inLock cfg id call c backoff) else none
  | .handshake _ _ _ | .command _ => none

/-- The server presents a key to a handshake that has no answer yet. -/
def State.present (id : CallId) (call : Call) (key : HostKey) (addr : Text) : Option State :=
  match call.pc with
  | .handshake c params none =>
    let answer := presentKey cfg.casefold σ.trust cfg.known_hosts params addr key
    let unknown := match answer with
      | .ok _ => false
      | .error e => e.code = .hostKeyUnknown
    some ({ σ with presented := ⟨c, params, key, unknown⟩ :: σ.presented }.goto id call
      (.handshake c params (some answer)))
  | _ => none

/-- The connect factory ends. -/
def State.handshakeEnds (id : CallId) (call : Call) (how : HandshakeEnd) : Option State :=
  match call.pc, how with
  | .handshake c _ answer, .connected =>
    match answer with
    | some (.error _) => none
    | _ =>
      some ({ σ with
        conn := Function.update σ.conn c (some true)
        lock := Function.update σ.lock c ((σ.lock c).filter (· ≠ id)) }.opened id call c)
  | .handshake c _ (some (.error e)), .refused =>
    some ({ σ with pending := Function.update σ.pending c e.pending_host_key }.leave id)
  | .handshake _ _ _, .failed => some (σ.leave id)
  | _, _ => none

/-- `trust_host_key`. -/
def State.trustHostKey (id : CallId) (server : ServerRecord) (prompt : HostKeyPrompt) : State :=
  match σ.registered server.server_id with
  | none => σ
  | some c =>
    match σ.pending c with
    | none => σ
    | some pending =>
      match consent cfg.casefold pending prompt with
      | none => σ
      | some entry =>
        { σ with
          trust := σ.trust.add cfg.casefold entry
          pending := Function.update σ.pending c none
          added := (c, HostKeyTrust.normalized cfg.casefold entry) :: σ.added }.getEntry cfg id
            ⟨.test, server, .waitGlobal⟩

def State.next : Event → Option State
  | .start id kind server backoff =>
    if (σ.calls id).isSome then none
    else match kind with
      | .test => some (σ.getEntry cfg id ⟨.test, server, .waitGlobal⟩)
      | .close => some (σ.closeServer cfg id ⟨.close, server, .waitGlobal⟩)
      | kind =>
        -- `_reject_if_backoff`
        if backoff then some σ
        else some ({ σ with global := σ.global ++ [id] }.goto id ⟨kind, server, .waitGlobal⟩ .waitGlobal)
  | .trust id server prompt => if (σ.calls id).isSome then none else some (σ.trustHostKey cfg id server prompt)
  | .resume id backoff => (σ.calls id).bind fun call => σ.resume cfg id call backoff
  | .present id key addr => (σ.calls id).bind fun call => σ.present cfg id call key addr
  | .ended id how => (σ.calls id).bind fun call => σ.handshakeEnds id call how
  | .commandEnded id dropped => (σ.calls id).bind fun call =>
    match call.pc with
    | .command c =>
      some ({ σ with conn := if dropped then Function.update σ.conn c none else σ.conn }.leave id)
    | _ => none
  | .died c => some { σ with conn := Function.update σ.conn c ((σ.conn c).map fun _ => false) }
  | .lost server_id =>
    match σ.registered server_id with
    | none => some σ
    | some c => some { σ with conn := Function.update σ.conn c none }
  | .cancel id => (σ.calls id).bind fun call =>
    match call.pc with
    | .closeLock _ => none
    | .drain _ _ | .closeWait _ => some ((σ.endRetire id call).leave id)
    | _ => some (σ.leave id)

end

/-! ### What a step can do -/

/-- The ways an event can go. -/
inductive Step (cfg : Config) (σ : State) : Event → State → Prop where
  | rejected {id kind server} : Step cfg σ (.start id kind server true) σ
  | queued {id kind server} (hid : σ.calls id = none) (hk : kind = .run ∨ kind = .acquire) :
    Step cfg σ (.start id kind server false)
      ({ σ with global := σ.global ++ [id] }.goto id ⟨kind, server, .waitGlobal⟩ .waitGlobal)
  | test {id server b} (hid : σ.calls id = none) :
    Step cfg σ (.start id .test server b) (σ.getEntry cfg id ⟨.test, server, .waitGlobal⟩)
  | close {id server b} (hid : σ.calls id = none) :
    Step cfg σ (.start id .close server b) (σ.closeServer cfg id ⟨.close, server, .waitGlobal⟩)
  | untrusted {id server prompt} : Step cfg σ (.trust id server prompt) σ
  | trusted {id server prompt c pending entry} (hid : σ.calls id = none)
    (hc : σ.registered server.server_id = some c) (hp : σ.pending c = some pending)
    (he : consent cfg.casefold pending prompt = some entry) :
    Step cfg σ (.trust id server prompt)
      ({ σ with
          trust := σ.trust.add cfg.casefold entry
          pending := Function.update σ.pending c none
          added := (c, HostKeyTrust.normalized cfg.casefold entry) :: σ.added }.getEntry cfg id
        ⟨.test, server, .waitGlobal⟩)
  | gotGlobal {id call b} (hid : σ.calls id = some call) (hpc : call.pc = .waitGlobal)
    (hg : Fifo.Granted cfg.max_in_flight_global σ.global id) :
    Step cfg σ (.resume id b) (σ.getEntry cfg id call)
  | retired {id call b n} (hid : σ.calls id = some call) (hpc : call.pc = .waitRetired n) :
    Step cfg σ (.resume id b) (σ.afterClose cfg id call)
  | drained {id call b c k} (hid : σ.calls id = some call) (hpc : call.pc = .drain c k)
    (hg : Fifo.Granted cfg.max_in_flight_per_server (σ.slot c) (id, k)) :
    Step cfg σ (.resume id b) (σ.drainFrom cfg id call c (k + 1))
  | closing {id call b c} (hid : σ.calls id = some call) (hpc : call.pc = .closeLock c)
    (hg : Fifo.Granted 1 (σ.lock c) id) :
    Step cfg σ (.resume id b)
      ({ σ with
        conn := Function.update σ.conn c none
        pending := Function.update σ.pending c none
        lock := Function.update σ.lock c ((σ.lock c).filter (· ≠ id)) }.goto id call (.closeWait c))
  | closed {id call b c} (hid : σ.calls id = some call) (hpc : call.pc = .closeWait c) :
    Step cfg σ (.resume id b) ((σ.endRetire id call).afterClose cfg id call)
  | gotSlot {id call b c} (hid : σ.calls id = some call) (hpc : call.pc = .waitSlot c)
    (hg : Fifo.Granted cfg.max_in_flight_per_server (σ.slot c) (id, 0)) :
    Step cfg σ (.resume id b) (σ.inSlot cfg id call c)
  | gotLock {id call b c} (hid : σ.calls id = some call) (hpc : call.pc = .waitLock c)
    (hg : Fifo.Granted 1 (σ.lock c) id) : Step cfg σ (.resume id b) (σ.inLock cfg id call c b)
  | judged {id call key addr c params} (hid : σ.calls id = some call) (hpc : call.pc = .handshake c params none)
    (answer : Except ConnectError Unit)
    (ha : answer = presentKey cfg.casefold σ.trust cfg.known_hosts params addr key) (unknown : Bool)
    (hu : ∀ e, answer = .error e → e.code = .hostKeyUnknown → unknown = true) :
    Step cfg σ (.present id key addr)
      ({ σ with presented := ⟨c, params, key, unknown⟩ :: σ.presented }.goto id call
        (.handshake c params (some answer)))
  | connected {id call c params answer} (hid : σ.calls id = some call) (hpc : call.pc = .handshake c params answer) :
    Step cfg σ (.ended id .connected)
      ({ σ with
        conn := Function.update σ.conn c (some true)
        lock := Function.update σ.lock c ((σ.lock c).filter (· ≠ id)) }.opened id call c)
  | refused {id call c params e} (hid : σ.calls id = some call)
    (hpc : call.pc = .handshake c params (some (.error e))) :
    Step cfg σ (.ended id .refused)
      ({ σ with pending := Function.update σ.pending c e.pending_host_key }.leave id)
  | failed {id call c params answer} (hid : σ.calls id = some call) (hpc : call.pc = .handshake c params answer) :
    Step cfg σ (.ended id .failed) (σ.leave id)
  | done {id call c} (hid : σ.calls id = some call) (hpc : call.pc = .command c) (dropped : Bool) :
    Step cfg σ (.commandEnded id dropped)
      ({ σ with conn := if dropped then Function.update σ.conn c none else σ.conn }.leave id)
  | died {c} : Step cfg σ (.died c) { σ with conn := Function.update σ.conn c ((σ.conn c).map fun _ => false) }
  | unknown {server_id} : Step cfg σ (.lost server_id) σ
  | lost {server_id c} : Step cfg σ (.lost server_id) { σ with conn := Function.update σ.conn c none }
  | cancelledRetiring {id call c} (hid : σ.calls id = some call)
    (hpc : (∃ k, call.pc = .drain c k) ∨ call.pc = .closeWait c) :
    Step cfg σ (.cancel id) ((σ.endRetire id call).leave id)
  | cancelled {id call} (hid : σ.calls id = some call) (hd : ∀ c k, call.pc ≠ .drain c k)
    (hl : ∀ c, call.pc ≠ .closeLock c) (hw : ∀ c, call.pc ≠ .closeWait c) :
    Step cfg σ (.cancel id) (σ.leave id)

/-- A call resumes in one of the ways. -/
lemma step_of_resume {cfg : Config} {σ σ' : State} {id : CallId} {call : Call} {b : Bool}
    (hid : σ.calls id = some call) (h : σ.resume cfg id call b = some σ') : Step cfg σ (.resume id b) σ' := by
  rw [State.resume] at h
  split at h
  case h_1 hpc =>
    split at h
    · cases h
      exact .gotGlobal hid hpc ‹_›
    · cases h
  case h_2 hpc =>
    split at h
    · cases h
      exact .retired hid hpc
    · cases h
  case h_3 hpc =>
    split at h
    · cases h
      exact .drained hid hpc ‹_›
    · cases h
  case h_4 hpc =>
    split at h
    · cases h
      exact .closing hid hpc ‹_›
    · cases h
  case h_5 hpc =>
    cases h
    exact .closed hid hpc
  case h_6 hpc =>
    split at h
    · cases h
      exact .gotSlot hid hpc ‹_›
    · cases h
  case h_7 hpc =>
    split at h
    · cases h
      exact .gotLock hid hpc ‹_›
    · cases h
  case h_8 => cases h
  case h_9 => cases h

lemma step_of_present {cfg : Config} {σ σ' : State} {id : CallId} {call : Call} {key : HostKey} {addr : Text}
    (hid : σ.calls id = some call) (h : σ.present cfg id call key addr = some σ') :
    Step cfg σ (.present id key addr) σ' := by
  rw [State.present] at h
  split at h
  · rename_i hpc
    cases h
    refine .judged hid hpc _ rfl _ fun e he hcode => ?_
    rw [he]
    exact decide_eq_true hcode
  · cases h

lemma step_of_handshakeEnds {cfg : Config} {σ σ' : State} {id : CallId} {call : Call} {how : HandshakeEnd}
    (hid : σ.calls id = some call) (h : σ.handshakeEnds id call how = some σ') :
    Step cfg σ (.ended id how) σ' := by
  unfold State.handshakeEnds at h
  split at h
  · rename_i hpc
    split at h
    · cases h
    · cases h
      exact .connected hid hpc
  · rename_i hpc
    cases h
    exact .refused hid hpc
  · rename_i hpc
    cases h
    exact .failed hid hpc
  · cases h

lemma step_of_trust {cfg : Config} {σ : State} {id : CallId} (hid : σ.calls id = none) (server : ServerRecord)
    (prompt : HostKeyPrompt) :
    Step cfg σ (.trust id server prompt) (σ.trustHostKey cfg id server prompt) := by
  rw [State.trustHostKey]
  split
  · exact .untrusted
  · split
    · exact .untrusted
    · split
      · exact .untrusted
      · exact .trusted hid ‹_› ‹_› ‹_›

/-- An event goes in one of the ways. -/
theorem step_of_next {cfg : Config} {σ σ' : State} {e : Event} (h : σ.next cfg e = some σ') : Step cfg σ e σ' := by
  cases e with
  | start id kind server backoff =>
    simp only [State.next] at h
    split at h
    · cases h
    · rename_i hid
      have hid : σ.calls id = none := by simpa using hid
      cases kind with
      | test => cases h; exact .test hid
      | close => cases h; exact .close hid
      | run =>
        cases backoff with
        | true => cases h; exact .rejected
        | false => cases h; exact .queued hid (.inl rfl)
      | acquire =>
        cases backoff with
        | true => cases h; exact .rejected
        | false => cases h; exact .queued hid (.inr rfl)
  | trust id server prompt =>
    simp only [State.next] at h
    split at h
    · cases h
    · rename_i hid
      cases h
      exact step_of_trust (by simpa using hid) server prompt
  | resume id backoff =>
    obtain ⟨call, hid, h⟩ := Option.bind_eq_some_iff.1 h
    exact step_of_resume hid h
  | present id key addr =>
    obtain ⟨call, hid, h⟩ := Option.bind_eq_some_iff.1 h
    exact step_of_present hid h
  | ended id how =>
    obtain ⟨call, hid, h⟩ := Option.bind_eq_some_iff.1 h
    exact step_of_handshakeEnds hid h
  | commandEnded id dropped =>
    obtain ⟨call, hid, h⟩ := Option.bind_eq_some_iff.1 h
    split at h
    · rename_i hpc
      cases h
      exact .done hid hpc dropped
    · cases h
  | died c => cases h; exact .died
  | lost server_id =>
    simp only [State.next] at h
    split at h
    · cases h
      exact .unknown
    · cases h
      exact .lost
  | cancel id =>
    obtain ⟨call, hid, h⟩ := Option.bind_eq_some_iff.1 h
    split at h
    · cases h
    · rename_i hpc
      cases h
      exact .cancelledRetiring hid (.inl ⟨_, hpc⟩)
    · rename_i hpc
      cases h
      exact .cancelledRetiring hid (.inr hpc)
    · rename_i hl hd hw
      cases h
      exact .cancelled hid hd hl hw

/-- The states of a manager that starts with some trust store, in runs whose events are admitted. -/
inductive Reachable (cfg : Config) (admitted : State → Event → Prop) : State → Prop where
  | init (trust : HostKeyTrust) : Reachable cfg admitted { trust }
  | step {σ σ' : State} {e : Event} (h : Reachable cfg admitted σ) (ha : admitted σ e)
    (he : σ.next cfg e = some σ') : Reachable cfg admitted σ'

/-- A manager whose configuration says nothing about any host. -/
def plainConfig (max_in_flight_global max_in_flight_per_server : ℕ) : Config where
  max_in_flight_global := max_in_flight_global
  max_in_flight_per_server := max_in_flight_per_server
  resolver := ⟨fun _ => {}, fun _ => false, .ok⟩
  casefold t := t
  known_hosts _ _ _ := false

/-- A sequence of events. -/
def State.run (cfg : Config) : State → List Event → Option State
  | σ, [] => some σ
  | σ, e :: es => (σ.next cfg e).bind fun σ' => σ'.run cfg es

lemma Reachable.run {cfg : Config} {admitted : State → Event → Prop} {es : List Event} {σ σ' : State}
    (h : Reachable cfg admitted σ) (ha : ∀ e ∈ es, ∀ σ, admitted σ e) (he : σ.run cfg es = some σ') :
    Reachable cfg admitted σ' := by
  induction es generalizing σ with
  | nil =>
    cases he
    exact h
  | cons e es ih =>
    obtain ⟨σ₁, h₁, he⟩ := Option.bind_eq_some_iff.1 he
    have hstep := h.step (ha e List.mem_cons_self σ) h₁
    exact ih hstep (fun e' he' => ha e' (List.mem_cons_of_mem e he')) he

end SshGpuConsole.Ssh.Manager
