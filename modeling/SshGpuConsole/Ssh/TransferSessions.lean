import SshGpuConsole.Lib.Fifo
import SshGpuConsole.Ssh.HostKeys

/-!
# Transfer sessions

The cache of SFTP sessions of `SshManager` (`transfer_session` and `close_transfer_sessions` in
`ssh/manager.py`) beside the registry whose records its callers read, as a state machine: any number of calls,
each stepping from one await to the next. The routes that change a record, a credential or a server
(`api/v1/servers.py`) close the telemetry connection, which is another one; of the sessions they say nothing.
-/

namespace SshGpuConsole.Ssh.TransferSessions
open Shell (Text)

abbrev CallId := ℕ
abbrev SessionId := ℕ

/-- `SftpTransferSession`: what it is connected with, and `is_usable`. -/
structure Session where
  params : ConnectParams
  usable : Bool
  deriving DecidableEq, Repr

/-- Where a call of `transfer_session` waits. -/
inductive Pc where
  /-- for the lock of its server -/
  | waitLock
  /-- for the connect factory -/
  | connecting (params : ConnectParams)
  /-- for the SFTP client -/
  | starting (params : ConnectParams)
  deriving DecidableEq, Repr

structure Call where
  server : ServerRecord
  pc : Pc
  deriving DecidableEq, Repr

structure State where
  /-- The registry. -/
  records : Text → Option ServerRecord := fun _ => none
  /-- The records that were read from it. -/
  read : List ServerRecord := []
  /-- `_transfer_sessions` -/
  cache : Text → Option SessionId := fun _ => none
  /-- The sessions made so far. -/
  created : ℕ := 0
  session : SessionId → Option Session := fun _ => none
  /-- `_transfer_session_locks` -/
  lock : Text → List CallId := fun _ => []
  calls : CallId → Option Call := fun _ => none
  /-- What the calls returned so far, with the records they were passed. -/
  returned : List (ServerRecord × SessionId) := []

inductive Event where
  /-- `POST`, `PATCH` and `DELETE` of a server -/
  | create (record : ServerRecord)
  | patch (record : ServerRecord)
  | delete (server_id : Text)
  /-- a stored password is set or removed -/
  | credential (server_id : Text)
  | read (server_id : Text)
  | request (id : CallId) (server : ServerRecord)
  | resume (id : CallId)
  | connected (id : CallId)
  | started (id : CallId)
  /-- a call raises, or is cancelled -/
  | raised (id : CallId)
  /-- the connection of a session dies, or a relay closes the session -/
  | ended (s : SessionId)
  /-- a step of `close_transfer_sessions` -/
  | close (server_id : Text)
  deriving DecidableEq, Repr

section
variable (resolver : Resolver) (σ : State) (id : CallId)

def State.usable (s : SessionId) : Bool := (σ.session s).any Session.usable

/-- `SftpTransferSession.close`. -/
def State.endSession (s : SessionId) : State :=
  { σ with session := Function.update σ.session s ((σ.session s).map fun session => { session with usable := false }) }

/-- A cached session is popped and closed; `_drop_dead_transfer_session` when it is not usable. -/
def State.dropSession (server_id : Text) : State :=
  match σ.cache server_id with
  | none => σ
  | some s => { σ with cache := Function.update σ.cache server_id none }.endSession s

/-- A call ends, and releases its lock. -/
def State.leave : State :=
  { σ with
    lock := fun server_id => (σ.lock server_id).filter (· ≠ id)
    calls := Function.update σ.calls id none }

def State.giveBack (server : ServerRecord) (s : SessionId) : State :=
  { σ with returned := (server, s) :: σ.returned }.leave id

def State.goto (server : ServerRecord) (pc : Pc) : State :=
  { σ with calls := Function.update σ.calls id (some ⟨server, pc⟩) }

/-- The session cached for a server, when it is usable. -/
def State.cached (server_id : Text) : Option SessionId := (σ.cache server_id).filter σ.usable

/-- `transfer_session`, up to its lock. -/
def State.request (server : ServerRecord) : State :=
  match σ.cached server.server_id with
  | some s => σ.giveBack id server s
  | none =>
    let σ := σ.dropSession server.server_id
    { σ with lock := Function.update σ.lock server.server_id (σ.lock server.server_id ++ [id]) }.goto id server
      .waitLock

/-- `transfer_session`, inside its lock. -/
def State.inLock (server : ServerRecord) : State :=
  match σ.cached server.server_id with
  | some s => σ.giveBack id server s
  | none =>
    match paramsOf resolver server with
    | .error _ => (σ.dropSession server.server_id).leave id
    | .ok params => (σ.dropSession server.server_id).goto id server (.connecting params)

/-- The new session, cached and returned. -/
def State.started (server : ServerRecord) (params : ConnectParams) : State :=
  { σ with
    cache := Function.update σ.cache server.server_id (some σ.created)
    created := σ.created + 1
    session := Function.update σ.session σ.created (some ⟨params, true⟩) }.giveBack id server σ.created

def State.next : Event → Option State
  | .create record =>
    if (σ.records record.server_id).isSome then none
    else some { σ with records := Function.update σ.records record.server_id (some record) }
  | .patch record =>
    if (σ.records record.server_id).isSome then
      some { σ with records := Function.update σ.records record.server_id (some record) }
    else none
  | .delete server_id => some { σ with records := Function.update σ.records server_id none }
  | .credential _ => some σ
  | .read server_id => (σ.records server_id).map fun record => { σ with read := record :: σ.read }
  | .request id server =>
    if (σ.calls id).isSome || !σ.read.contains server then none else some (σ.request id server)
  | .resume id => (σ.calls id).bind fun call =>
    if call.pc = .waitLock ∧ Fifo.Granted 1 (σ.lock call.server.server_id) id then
      some (σ.inLock resolver id call.server)
    else none
  | .connected id => (σ.calls id).bind fun call =>
    match call.pc with
    | .connecting params => some (σ.goto id call.server (.starting params))
    | _ => none
  | .started id => (σ.calls id).bind fun call =>
    match call.pc with
    | .starting params => some (σ.started id call.server params)
    | _ => none
  | .raised id => (σ.calls id).map fun _ => σ.leave id
  | .ended s => some (σ.endSession s)
  | .close server_id => some (σ.dropSession server_id)

end

/-- The states of runs whose events are admitted. -/
inductive Reachable (resolver : Resolver) (admitted : State → Event → Prop) : State → Prop where
  | init : Reachable resolver admitted {}
  | step {σ σ' : State} {e : Event} (h : Reachable resolver admitted σ) (ha : admitted σ e)
    (he : σ.next resolver e = some σ') : Reachable resolver admitted σ'

/-- A sequence of events. -/
def State.run (resolver : Resolver) : State → List Event → Option State
  | σ, [] => some σ
  | σ, e :: es => (σ.next resolver e).bind fun σ' => σ'.run resolver es

lemma Reachable.run {resolver : Resolver} {admitted : State → Event → Prop} {es : List Event} {σ σ' : State}
    (h : Reachable resolver admitted σ) (ha : ∀ σ, ∀ e ∈ es, admitted σ e) (he : σ.run resolver es = some σ') :
    Reachable resolver admitted σ' := by
  induction es generalizing σ with
  | nil =>
    cases he
    exact h
  | cons e es ih =>
    obtain ⟨σ₁, h₁, he⟩ := Option.bind_eq_some_iff.1 he
    have hstep := h.step (ha σ e List.mem_cons_self) h₁
    exact ih hstep (fun σ e' he' => ha σ e' (List.mem_cons_of_mem e he')) he

/-! ### Sessions and records -/

variable {resolver : Resolver} {σ σ' : State} {id : CallId} {server : ServerRecord}

/-- The session is connected with what the record resolves to. -/
def State.OpenedFor (resolver : Resolver) (σ : State) (s : SessionId) (server : ServerRecord) : Prop :=
  ∃ session, σ.session s = some session ∧ paramsOf resolver server = .ok session.params

/-- Every session that was returned is connected with what the record passed in resolves to. -/
def Follows (resolver : Resolver) (σ : State) : Prop :=
  ∀ x ∈ σ.returned, σ.OpenedFor resolver x.2 x.1

/-- A call meets no usable session that was opened with other parameters, and no call in progress with other
parameters. -/
def Agreeing (resolver : Resolver) (σ : State) : Event → Prop
  | .request _ server =>
    (∀ s, σ.cached server.server_id = some s → σ.OpenedFor resolver s server) ∧
      ∀ i call, σ.calls i = some call → call.server.server_id = server.server_id →
        paramsOf resolver call.server = paramsOf resolver server
  | _ => True

/-- What the calls in progress for a server share with each other and with the session cached for it. -/
structure Agreed (resolver : Resolver) (σ : State) : Prop where
  calls : ∀ i j call call', σ.calls i = some call → σ.calls j = some call' →
    call.server.server_id = call'.server.server_id → paramsOf resolver call.server = paramsOf resolver call'.server
  cached : ∀ i call s, σ.calls i = some call → σ.cached call.server.server_id = some s →
    σ.OpenedFor resolver s call.server
  connecting : ∀ i call params, σ.calls i = some call → call.pc = .connecting params ∨ call.pc = .starting params →
    paramsOf resolver call.server = .ok params
  cache : ∀ server_id s, σ.cache server_id = some s → s < σ.created
  fresh : ∀ s, σ.created ≤ s → σ.session s = none
  follows : Follows resolver σ

/-- A step that adds no call, no session and no answer. -/
structure Fades (σ σ' : State) : Prop where
  calls : ∀ i call', σ'.calls i = some call' → ∃ call, σ.calls i = some call ∧ call.server = call'.server ∧
    ∀ params, call'.pc = .connecting params ∨ call'.pc = .starting params →
      call.pc = .connecting params ∨ call.pc = .starting params
  cache : ∀ server_id s, σ'.cache server_id = some s → σ.cache server_id = some s
  usable : ∀ s, σ'.usable s = true → σ.usable s = true
  session : ∀ s, (σ'.session s).map Session.params = (σ.session s).map Session.params
  created : σ'.created = σ.created
  returned : σ'.returned = σ.returned

lemma cached_iff {server_id : Text} {s : SessionId} :
    σ.cached server_id = some s ↔ σ.cache server_id = some s ∧ σ.usable s = true := by
  rw [State.cached, Option.filter_eq_some_iff]

lemma Fades.cached (h : Fades σ σ') {server_id : Text} {s : SessionId} (hs : σ'.cached server_id = some s) :
    σ.cached server_id = some s := by
  obtain ⟨hc, hu⟩ := cached_iff.1 hs
  exact cached_iff.2 ⟨h.cache _ _ hc, h.usable _ hu⟩

lemma openedFor_iff {s : SessionId} :
    σ.OpenedFor resolver s server ↔
      ∃ params, (σ.session s).map Session.params = some params ∧ paramsOf resolver server = .ok params := by
  constructor
  · rintro ⟨session, hs, hp⟩
    exact ⟨_, by rw [hs]; rfl, hp⟩
  · rintro ⟨params, hs, hp⟩
    obtain ⟨session, hsession, rfl⟩ := Option.map_eq_some_iff.1 hs
    exact ⟨session, hsession, hp⟩

lemma Fades.openedFor (h : Fades σ σ') {s : SessionId} (ho : σ.OpenedFor resolver s server) :
    σ'.OpenedFor resolver s server := by
  rw [openedFor_iff, h.session]
  exact openedFor_iff.1 ho

lemma Agreed.fades (h : Agreed resolver σ) (hf : Fades σ σ') : Agreed resolver σ' where
  calls i j call call' hi hj hid := by
    obtain ⟨c, hc, hs, -⟩ := hf.calls i call hi
    obtain ⟨c', hc', hs', -⟩ := hf.calls j call' hj
    rw [← hs, ← hs'] at hid ⊢
    exact h.calls i j c c' hc hc' hid
  cached i call s hi hs := by
    obtain ⟨c, hc, hserver, -⟩ := hf.calls i call hi
    have hcached := hf.cached hs
    rw [← hserver] at hcached ⊢
    exact hf.openedFor (h.cached i c s hc hcached)
  connecting i call params hi hpc := by
    obtain ⟨c, hc, hserver, hpcs⟩ := hf.calls i call hi
    rw [← hserver]
    exact h.connecting i c params hc (hpcs params hpc)
  cache server_id s hs := by
    rw [hf.created]
    exact h.cache server_id s (hf.cache server_id s hs)
  fresh s hs := by
    have hnone := congrArg (Option.map Session.params) (h.fresh s (hf.created ▸ hs))
    rw [← hf.session] at hnone
    exact Option.map_eq_none_iff.1 hnone
  follows x hx := hf.openedFor (h.follows x (hf.returned ▸ hx))

lemma Fades.refl (σ : State) : Fades σ σ :=
  ⟨fun _ call h => ⟨call, h, rfl, fun _ h => h⟩, fun _ _ h => h, fun _ h => h, fun _ => rfl, rfl, rfl⟩

lemma calls_goto (pc : Pc) : (σ.goto id server pc).calls id = some ⟨server, pc⟩ := Function.update_self ..

lemma calls_goto_of_ne {i : CallId} (h : i ≠ id) (pc : Pc) : (σ.goto id server pc).calls i = σ.calls i :=
  Function.update_of_ne h ..

lemma calls_leave : (σ.leave id).calls id = none := Function.update_self ..

lemma calls_leave_of_ne {i : CallId} (h : i ≠ id) : (σ.leave id).calls i = σ.calls i := Function.update_of_ne h ..

lemma fades_leave : Fades σ (σ.leave id) where
  calls i call h := by
    by_cases hi : i = id
    · subst hi
      rw [calls_leave] at h
      cases h
    · rw [calls_leave_of_ne hi] at h
      exact ⟨call, h, rfl, fun _ h => h⟩
  cache _ _ h := h
  usable _ h := h
  session _ := rfl
  created := rfl
  returned := rfl

lemma session_endSession (s s' : SessionId) :
    ((σ.endSession s).session s').map Session.params = (σ.session s').map Session.params := by
  rw [State.endSession]
  by_cases h : s' = s
  · subst h
    show (Function.update σ.session s' _ s').map _ = _
    rw [Function.update_self, Option.map_map]
    rfl
  · show (Function.update σ.session s _ s').map _ = _
    rw [Function.update_of_ne h]

lemma usable_of_endSession {s s' : SessionId} (h : (σ.endSession s).usable s' = true) : σ.usable s' = true := by
  by_cases hs : s' = s
  · subst hs
    rw [State.usable, State.endSession] at h
    have h : (Function.update σ.session s' ((σ.session s').map fun session => { session with usable := false })
      s').any Session.usable = true := h
    rw [Function.update_self] at h
    cases hse : σ.session s' with
    | none =>
      rw [hse] at h
      cases h
    | some session =>
      rw [hse] at h
      cases h
  · have h : (Function.update σ.session s ((σ.session s).map fun session => { session with usable := false })
      s').any Session.usable = true := h
    rw [Function.update_of_ne hs] at h
    exact h

lemma fades_endSession (s : SessionId) : Fades σ (σ.endSession s) where
  calls _ call h := ⟨call, h, rfl, fun _ h => h⟩
  cache _ _ h := h
  usable _ := usable_of_endSession
  session := session_endSession s
  created := rfl
  returned := rfl

lemma fades_dropSession (server_id : Text) : Fades σ (σ.dropSession server_id) where
  calls i call h := by
    refine ⟨call, ?_, rfl, fun _ h => h⟩
    rw [State.dropSession] at h
    split at h
    · exact h
    · exact h
  cache server_id' s h := by
    rw [State.dropSession] at h
    split at h
    · exact h
    · have h : Function.update σ.cache server_id none server_id' = some s := h
      by_cases hid : server_id' = server_id
      · subst hid
        rw [Function.update_self] at h
        cases h
      · rwa [Function.update_of_ne hid] at h
  usable s h := by
    rw [State.dropSession] at h
    split at h
    · exact h
    · exact usable_of_endSession h
  session s := by
    rw [State.dropSession]
    split
    · rfl
    · exact session_endSession _ s
  created := by
    rw [State.dropSession]
    split
    · rfl
    · rfl
  returned := by
    rw [State.dropSession]
    split
    · rfl
    · rfl

lemma cached_dropSession (h : σ.cached server.server_id = none) (s : SessionId) :
    (σ.dropSession server.server_id).cached server.server_id ≠ some s := by
  intro hs
  have hold := (fades_dropSession _).cached hs
  rw [h] at hold
  cases hold

/-- A call that agrees with the others comes to wait somewhere. -/
lemma Agreed.goto {pc : Pc} (h : Agreed resolver σ)
    (hcalls : ∀ i call, σ.calls i = some call → call.server.server_id = server.server_id →
      paramsOf resolver call.server = paramsOf resolver server)
    (hcached : ∀ s, σ.cached server.server_id = some s → σ.OpenedFor resolver s server)
    (hpc : ∀ params, pc = .connecting params ∨ pc = .starting params → paramsOf resolver server = .ok params) :
    Agreed resolver (σ.goto id server pc) := by
  have hcases : ∀ i call, (σ.goto id server pc).calls i = some call → σ.calls i = some call ∨ call = ⟨server, pc⟩ := by
    intro i call hc
    by_cases hi : i = id
    · subst hi
      rw [calls_goto] at hc
      exact .inr (Option.some.inj hc).symm
    · rw [calls_goto_of_ne hi] at hc
      exact .inl hc
  refine ⟨fun i j call call' hi hj hid => ?_, fun i call s hi hs => ?_, fun i call params hi hp => ?_, h.cache,
    h.fresh, h.follows⟩
  · rcases hcases i call hi with hi | rfl
    · rcases hcases j call' hj with hj | rfl
      · exact h.calls i j call call' hi hj hid
      · exact hcalls i call hi hid
    · rcases hcases j call' hj with hj | rfl
      · exact (hcalls j call' hj hid.symm).symm
      · rfl
  · rcases hcases i call hi with hi | rfl
    · exact h.cached i call s hi hs
    · exact hcached s hs
  · rcases hcases i call hi with hi | rfl
    · exact h.connecting i call params hi hp
    · exact hpc params hp

lemma Agreed.giveBack (h : Agreed resolver σ) {s : SessionId} (hs : σ.OpenedFor resolver s server) :
    Agreed resolver (σ.giveBack id server s) := by
  have hf : Follows resolver { σ with returned := (server, s) :: σ.returned } := by
    intro x hx
    rcases List.mem_cons.1 hx with rfl | hx
    · exact hs
    · exact h.follows x hx
  have hadded : Agreed resolver { σ with returned := (server, s) :: σ.returned } :=
    ⟨h.calls, h.cached, h.connecting, h.cache, h.fresh, hf⟩
  exact hadded.fades fades_leave

/-- A call joins the queue for the lock. -/
lemma Agreed.lock (h : Agreed resolver σ) (lock : Text → List CallId) : Agreed resolver { σ with lock } :=
  ⟨h.calls, h.cached, h.connecting, h.cache, h.fresh, h.follows⟩

lemma Agreed.request (h : Agreed resolver σ) (ha : Agreeing resolver σ (.request id server)) :
    Agreed resolver (σ.request id server) := by
  rw [State.request]
  split
  · rename_i s hs
    exact h.giveBack (ha.1 s hs)
  · rename_i hnone
    have hdrop : Fades σ _ := fades_dropSession server.server_id
    refine Agreed.goto ((h.fades hdrop).lock _) (fun i call hc hid => ?_) (fun s hs => ?_) (fun params hp => ?_)
    · obtain ⟨call', hc', hserver, -⟩ := hdrop.calls i call hc
      rw [← hserver] at hid ⊢
      exact ha.2 i call' hc' hid
    · exact absurd hs (cached_dropSession hnone s)
    · rcases hp with hp | hp
      · cases hp
      · cases hp

lemma Agreed.inLock {call : Call} (h : Agreed resolver σ) (hid : σ.calls id = some call) :
    Agreed resolver (σ.inLock resolver id call.server) := by
  rw [State.inLock]
  split
  · rename_i s hs
    exact h.giveBack (h.cached id call s hid hs)
  · rename_i hnone
    have hdrop : Fades σ _ := fades_dropSession call.server.server_id
    split
    · exact (h.fades hdrop).fades fades_leave
    · rename_i params hparams
      refine Agreed.goto (h.fades hdrop) (fun i call' hc hserver => ?_) (fun s hs => ?_) (fun params' hp => ?_)
      · obtain ⟨c, hc', hs, -⟩ := hdrop.calls i call' hc
        rw [← hs] at hserver ⊢
        exact h.calls i id c call hc' hid hserver
      · exact absurd hs (cached_dropSession hnone s)
      · rcases hp with hp | hp
        · cases hp
          exact hparams
        · cases hp

lemma Agreed.started {call : Call} {params : ConnectParams} (h : Agreed resolver σ) (hid : σ.calls id = some call)
    (hp : paramsOf resolver call.server = .ok params) : Agreed resolver (σ.started id call.server params) := by
  have hnew : σ.session σ.created = none := h.fresh _ le_rfl
  have hother : ∀ s, (σ.session s).isSome → Function.update σ.session σ.created (some ⟨params, true⟩) s =
      σ.session s := by
    intro s hs
    refine Function.update_of_ne (fun heq => ?_) ..
    rw [heq, hnew] at hs
    cases hs
  have hkeep : ∀ {s : SessionId} {server : ServerRecord}, σ.OpenedFor resolver s server →
      ∃ session, Function.update σ.session σ.created (some ⟨params, true⟩) s = some session ∧
        paramsOf resolver server = .ok session.params := by
    rintro s server ⟨session, hs, hps⟩
    exact ⟨session, (hother s (by rw [hs]; rfl)).trans hs, hps⟩
  have hcached : ∀ server_id s, server_id ≠ call.server.server_id →
      (σ.started id call.server params).cached server_id = some s → σ.cached server_id = some s := by
    intro server_id s hne hs
    obtain ⟨hcache, husable⟩ := cached_iff.1 hs
    have hcache : Function.update σ.cache call.server.server_id (some σ.created) server_id = some s := hcache
    rw [Function.update_of_ne hne] at hcache
    have husable : (Function.update σ.session σ.created (some ⟨params, true⟩) s).any Session.usable = true := husable
    rw [Function.update_of_ne (h.cache server_id s hcache).ne] at husable
    exact cached_iff.2 ⟨hcache, husable⟩
  let σ' : State :=
    { σ with
      cache := Function.update σ.cache call.server.server_id (some σ.created)
      created := σ.created + 1
      session := Function.update σ.session σ.created (some ⟨params, true⟩) }
  suffices hσ' : Agreed resolver σ' from hσ'.giveBack ⟨⟨params, true⟩, Function.update_self .., hp⟩
  refine ⟨h.calls, fun i call' s hc hs => ?_, h.connecting, fun server_id s hs => ?_, fun s hs => ?_, fun x hx => ?_⟩
  · by_cases hsame : call'.server.server_id = call.server.server_id
    · -- the new session, for a call that agrees with this one
      have hcache := (cached_iff.1 hs).1
      rw [hsame] at hcache
      have hcache : Function.update σ.cache call.server.server_id (some σ.created) call.server.server_id =
        some s := hcache
      rw [Function.update_self] at hcache
      cases hcache
      exact ⟨⟨params, true⟩, Function.update_self .., (h.calls i id call' call hc hid hsame).trans hp⟩
    · exact hkeep (h.cached i call' s hc (hcached _ s hsame hs))
  · by_cases hsame : server_id = call.server.server_id
    · subst hsame
      have hs : Function.update σ.cache call.server.server_id (some σ.created) call.server.server_id =
        some s := hs
      rw [Function.update_self] at hs
      cases hs
      exact Nat.lt_succ_self _
    · have hs : Function.update σ.cache call.server.server_id (some σ.created) server_id = some s := hs
      rw [Function.update_of_ne hsame] at hs
      exact Nat.lt_succ_of_lt (h.cache server_id s hs)
  · have hle : σ.created + 1 ≤ s := hs
    exact (Function.update_of_ne (Nat.ne_of_gt hle) ..).trans (h.fresh s (Nat.le_of_succ_le hle))
  · exact hkeep (h.follows x hx)

/-- A step whose request agrees keeps the agreement. -/
lemma Agreed.step {e : Event} (h : Agreed resolver σ) (ha : Agreeing resolver σ e)
    (he : σ.next resolver e = some σ') : Agreed resolver σ' := by
  have hregistry : ∀ (records : Text → Option ServerRecord) (read : List ServerRecord),
      Agreed resolver { σ with records, read } :=
    fun _ _ => ⟨h.calls, h.cached, h.connecting, h.cache, h.fresh, h.follows⟩
  cases e with
  | create record =>
    simp only [State.next] at he
    split at he
    · cases he
    · cases he
      exact hregistry _ _
  | patch record =>
    simp only [State.next] at he
    split at he
    · cases he
      exact hregistry _ _
    · cases he
  | delete server_id =>
    cases he
    exact hregistry _ _
  | credential server_id =>
    cases he
    exact h
  | read server_id =>
    obtain ⟨record, -, rfl⟩ := Option.map_eq_some_iff.1 he
    exact hregistry _ _
  | request id server =>
    simp only [State.next] at he
    split at he
    · cases he
    · cases he
      exact h.request ha
  | resume id =>
    obtain ⟨call, hid, he⟩ := Option.bind_eq_some_iff.1 he
    split at he
    · cases he
      exact h.inLock hid
    · cases he
  | connected id =>
    obtain ⟨call, hid, he⟩ := Option.bind_eq_some_iff.1 he
    split at he
    · rename_i params hpc
      cases he
      refine h.goto (fun i call' hc hserver => h.calls i id call' call hc hid hserver) (fun s hs => ?_) fun p hp => ?_
      · exact h.cached id call s hid hs
      · rcases hp with hp | hp
        · cases hp
        · cases hp
          exact h.connecting id call params hid (.inl hpc)
    · cases he
  | started id =>
    obtain ⟨call, hid, he⟩ := Option.bind_eq_some_iff.1 he
    split at he
    · rename_i params hpc
      cases he
      exact h.started hid (h.connecting id call params hid (.inr hpc))
    · cases he
  | raised id =>
    obtain ⟨call, hid, rfl⟩ := Option.map_eq_some_iff.1 he
    exact h.fades fades_leave
  | ended s =>
    cases he
    exact h.fades (fades_endSession s)
  | close server_id =>
    cases he
    exact h.fades (fades_dropSession server_id)

lemma Reachable.agreed (h : Reachable resolver (Agreeing resolver) σ) : Agreed resolver σ := by
  induction h with
  | init =>
    exact ⟨fun _ _ _ _ h => (nomatch h), fun _ _ _ h => (nomatch h), fun _ _ _ h => (nomatch h),
      fun _ _ h => (nomatch h), fun _ _ => rfl, fun _ h => absurd h List.not_mem_nil⟩
  | step _ ha he ih => exact ih.step ha he

/-- A resolver whose configuration says nothing about any host. -/
def plainResolver : Resolver := ⟨fun _ => {}, fun _ => false, .ok⟩

/-- A session is opened for a server. -/
def openingRun (record : ServerRecord) : List Event :=
  [.resume 0, .connected 0, .started 0, .patch { record with ssh_host := ['b'] }, .read record.server_id]

end SshGpuConsole.Ssh.TransferSessions
