import SshGpuConsole.Ssh.Manager

/-!
# Quiet steps

What most steps of a call leave alone: no key is presented or trusted, the other calls stay where they are,
and nobody joins the queue for the global permits.
-/

namespace SshGpuConsole.Ssh.Manager

/-- The call neither waits for a global permit nor for a handshake whose key was judged. -/
def Plain : Pc → Prop
  | .waitGlobal | .handshake _ _ (some _) => False
  | _ => True

/-- What a step of one call leaves alone. -/
structure Quiet (id : CallId) (server : ServerRecord) (σ σ' : State) : Prop where
  presented : σ'.presented = σ.presented
  added : σ'.added = σ.added
  pending : ∀ c, σ'.pending c = σ.pending c ∨ σ'.pending c = none
  calls : ∀ i call, σ'.calls i = some call → σ.calls i = some call ∨ i = id ∧ call.server = server ∧ Plain call.pc
  global : σ'.global.Sublist σ.global
  waits : ∀ i call, σ'.calls i = some call → call.pc = .waitGlobal → i ∈ σ.global → i ∈ σ'.global
  keeps : ∀ i ∈ σ'.global, ∀ call, σ.calls i = some call → ∃ call', σ'.calls i = some call'

variable {cfg : Config} {σ σ' : State} {id : CallId} {call : Call} {server : ServerRecord}

lemma Quiet.refl (σ : State) : Quiet id server σ σ :=
  ⟨rfl, rfl, fun _ => .inl rfl, fun _ _ h => .inl h, List.Sublist.refl _, fun _ _ _ _ h => h,
    fun _ _ call h => ⟨call, h⟩⟩

lemma Quiet.trans {σ₁ σ₂ σ₃ : State} (h : Quiet id server σ₁ σ₂) (h' : Quiet id server σ₂ σ₃) :
    Quiet id server σ₁ σ₃ where
  presented := h'.presented.trans h.presented
  added := h'.added.trans h.added
  pending c := by
    rcases h'.pending c with hc | hc
    · rw [hc]
      exact h.pending c
    · exact .inr hc
  calls i call hc := by
    rcases h'.calls i call hc with hc | hc
    · exact h.calls i call hc
    · exact .inr hc
  global := h'.global.trans h.global
  waits i call hc hpc hg := by
    rcases h'.calls i call hc with hc' | ⟨-, -, hp⟩
    · exact h'.waits i call hc hpc (h.waits i call hc' hpc hg)
    · rw [hpc] at hp
      exact hp.elim
  keeps i hi call hc := by
    obtain ⟨call', hc'⟩ := h.keeps i (h'.global.subset hi) call hc
    exact h'.keeps i hi call' hc'

/-- A quiet step behind changes of other fields. -/
lemma Quiet.behind {σ₁ : State} (h : Quiet id server σ₁ σ') (hp : σ₁.presented = σ.presented)
    (ha : σ₁.added = σ.added) (hq : σ₁.pending = σ.pending) (hc : σ₁.calls = σ.calls)
    (hg : σ₁.global = σ.global) : Quiet id server σ σ' where
  presented := h.presented.trans hp
  added := h.added.trans ha
  pending c := by
    rw [← hq]
    exact h.pending c
  calls i call hcall := by
    rw [← hc]
    exact h.calls i call hcall
  global := by
    rw [← hg]
    exact h.global
  waits i call hcall hpc hmem := h.waits i call hcall hpc (hg ▸ hmem)
  keeps i hi call hcall := h.keeps i hi call (hc ▸ hcall)

lemma quiet_goto {pc : Pc} (h : Plain pc) : Quiet id call.server σ (σ.goto id call pc) where
  presented := rfl
  added := rfl
  pending _ := .inl rfl
  calls i call' hc := by
    by_cases hid : i = id
    · subst hid
      rw [calls_goto] at hc
      cases hc
      exact .inr ⟨rfl, rfl, h⟩
    · rw [calls_goto_of_ne _ _ _ hid] at hc
      exact .inl hc
  global := List.Sublist.refl _
  waits _ _ _ _ h := h
  keeps i _ call' hc := by
    by_cases hid : i = id
    · subst hid
      exact ⟨_, calls_goto ..⟩
    · exact ⟨call', (calls_goto_of_ne _ _ _ hid _).trans hc⟩

lemma quiet_leave : Quiet id server σ (σ.leave id) where
  presented := rfl
  added := rfl
  pending _ := .inl rfl
  calls i call' hc := by
    by_cases hid : i = id
    · subst hid
      rw [calls_leave] at hc
      cases hc
    · rw [calls_leave_of_ne _ _ hid] at hc
      exact .inl hc
  global := List.filter_sublist
  waits i call' hc _ hg := by
    refine List.mem_filter.2 ⟨hg, decide_eq_true fun hid => ?_⟩
    subst hid
    rw [calls_leave] at hc
    cases hc
  keeps i hi call' hc := by
    have hid : i ≠ id := of_decide_eq_true (List.mem_filter.1 hi).2
    exact ⟨call', (calls_leave_of_ne _ _ hid).trans hc⟩

lemma quiet_connect (c : ConnId) : Quiet id call.server σ (σ.connect cfg id call c) := by
  rw [State.connect]
  split
  · exact quiet_leave
  · exact Quiet.behind (quiet_goto trivial) rfl rfl rfl rfl rfl

lemma quiet_withEntry (c : ConnId) : Quiet id call.server σ (σ.withEntry cfg id call c) := by
  rw [State.withEntry]
  split
  · exact quiet_connect c
  · exact Quiet.behind (quiet_goto trivial) rfl rfl rfl rfl rfl

lemma quiet_findEntry : Quiet id call.server σ (σ.findEntry cfg id call) := by
  rw [State.findEntry]
  split
  · exact quiet_leave
  · split
    · exact quiet_withEntry _
    · split
      · exact quiet_leave
      · exact Quiet.behind (quiet_withEntry _) rfl rfl rfl rfl rfl

lemma quiet_afterClose : Quiet id call.server σ (σ.afterClose cfg id call) := by
  rw [State.afterClose]
  split
  · exact quiet_leave
  · exact quiet_findEntry

lemma quiet_endRetire : Quiet id call.server σ (σ.endRetire id call) :=
  (Quiet.refl _).behind rfl rfl rfl rfl rfl

lemma quiet_drainFrom (c : ConnId) (k : ℕ) : Quiet id call.server σ (σ.drainFrom cfg id call c k) := by
  rw [State.drainFrom]
  split
  · exact Quiet.behind (quiet_goto trivial) rfl rfl rfl rfl rfl
  · split
    · exact Quiet.behind (quiet_goto trivial) rfl rfl rfl rfl rfl
    · exact quiet_endRetire.trans quiet_afterClose

lemma quiet_closeServer : Quiet id call.server σ (σ.closeServer cfg id call) := by
  rw [State.closeServer]
  split
  · exact quiet_goto trivial
  · dsimp only
    split
    · exact Quiet.behind (quiet_endRetire.trans quiet_afterClose) rfl rfl rfl rfl rfl
    · exact Quiet.behind (quiet_drainFrom _ 0) rfl rfl rfl rfl rfl

lemma quiet_getEntry : Quiet id call.server σ (σ.getEntry cfg id call) := by
  rw [State.getEntry]
  split
  · exact quiet_leave
  · split
    · split
      · exact quiet_closeServer
      · exact quiet_findEntry
    · exact quiet_findEntry

lemma quiet_opened (c : ConnId) : Quiet id call.server σ (σ.opened id call c) := by
  rw [State.opened]
  split
  · exact quiet_goto trivial
  · exact quiet_leave

lemma quiet_inSlot (c : ConnId) : Quiet id call.server σ (σ.inSlot cfg id call c) := by
  rw [State.inSlot, State.acquire]
  split
  · exact quiet_leave
  · split
    · exact quiet_opened c
    · exact quiet_connect c

lemma cleared (pending : ConnId → Option HostKeyPrompt) (c c' : ConnId) :
    Function.update pending c none c' = pending c' ∨ Function.update pending c none c' = none := by
  by_cases h : c' = c
  · exact .inr (h ▸ Function.update_self ..)
  · exact .inl (Function.update_of_ne h ..)

/-- Clearing the pending key of a connection. -/
lemma quiet_clear (c : ConnId) : Quiet id server σ { σ with pending := Function.update σ.pending c none } where
  presented := rfl
  added := rfl
  pending := cleared σ.pending c
  calls _ _ h := .inl h
  global := List.Sublist.refl _
  waits _ _ _ _ h := h
  keeps _ _ call h := ⟨call, h⟩

lemma quiet_inLock (c : ConnId) (backoff : Bool) : Quiet id call.server σ (σ.inLock cfg id call c backoff) := by
  rw [State.inLock]
  split
  · exact Quiet.behind (quiet_opened c) rfl rfl rfl rfl rfl
  · split
    · exact quiet_leave
    · split
      · exact quiet_leave
      · exact (quiet_clear c).trans (quiet_goto trivial)

/-! ### The steps that are not quiet -/

/-- A call queues for a global permit, a consent adds an entry, a key is judged, or a handshake ends with the
gate's error. -/
inductive Loud (cfg : Config) (σ : State) : Event → State → Prop where
  | queued {id kind server} (hid : σ.calls id = none) (hk : kind = .run ∨ kind = .acquire) :
    Loud cfg σ (.start id kind server false)
      ({ σ with global := σ.global ++ [id] }.goto id ⟨kind, server, .waitGlobal⟩ .waitGlobal)
  | trusted {id server prompt c pending entry} (hid : σ.calls id = none)
    (hc : σ.registered server.server_id = some c) (hp : σ.pending c = some pending)
    (he : consent cfg.casefold pending prompt = some entry) :
    Loud cfg σ (.trust id server prompt)
      ({ σ with
          trust := σ.trust.add cfg.casefold entry
          pending := Function.update σ.pending c none
          added := (c, HostKeyTrust.normalized cfg.casefold entry) :: σ.added }.getEntry cfg id
        ⟨.test, server, .waitGlobal⟩)
  | judged {id call key addr c params} (hid : σ.calls id = some call) (hpc : call.pc = .handshake c params none)
    (answer : Except ConnectError Unit)
    (ha : answer = presentKey cfg.casefold σ.trust cfg.known_hosts params addr key) (unknown : Bool)
    (hu : ∀ e, answer = .error e → e.code = .hostKeyUnknown → unknown = true) :
    Loud cfg σ (.present id key addr)
      ({ σ with presented := ⟨c, params, key, unknown⟩ :: σ.presented }.goto id call
        (.handshake c params (some answer)))
  | refused {id call c params e} (hid : σ.calls id = some call)
    (hpc : call.pc = .handshake c params (some (.error e))) :
    Loud cfg σ (.ended id .refused)
      ({ σ with pending := Function.update σ.pending c e.pending_host_key }.leave id)

/-- A quiet step of some call, which keeps its server. -/
def QuietStep (σ σ' : State) : Prop :=
  ∃ id server, Quiet id server σ σ' ∧ ∀ call, σ.calls id = some call → call.server = server

lemma Quiet.resumed (hid : σ.calls id = some call) (h : Quiet id call.server σ σ') : QuietStep σ σ' := by
  refine ⟨id, call.server, h, fun call' hc => ?_⟩
  rw [hid] at hc
  cases hc
  rfl

lemma Quiet.fresh (hid : σ.calls id = none) (h : Quiet id server σ σ') : QuietStep σ σ' := by
  refine ⟨id, server, h, fun call hc => ?_⟩
  rw [hid] at hc
  cases hc

/-- A step without a call of its own, which only touches the connections. -/
lemma quiet_conn (conn : ConnId → Option Bool) : QuietStep σ { σ with conn } := by
  cases hc : σ.calls 0 with
  | none =>
    have hq : Quiet 0 ⟨[], [], none, none⟩ σ { σ with conn } := (Quiet.refl _).behind rfl rfl rfl rfl rfl
    exact hq.fresh hc
  | some call => exact Quiet.resumed hc ((Quiet.refl _).behind rfl rfl rfl rfl rfl)

/-- Every other step is quiet. -/
theorem Step.quiet_or_loud {e : Event} (hs : Step cfg σ e σ') : QuietStep σ σ' ∨ Loud cfg σ e σ' := by
  cases hs with
  | rejected => exact .inl (quiet_conn _)
  | queued hid hk => exact .inr (.queued hid hk)
  | test hid => exact .inl (quiet_getEntry.fresh hid)
  | close hid => exact .inl (quiet_closeServer.fresh hid)
  | untrusted => exact .inl (quiet_conn _)
  | trusted hid hc hp he => exact .inr (.trusted hid hc hp he)
  | gotGlobal hid => exact .inl (quiet_getEntry.resumed hid)
  | retired hid => exact .inl (quiet_afterClose.resumed hid)
  | drained hid => exact .inl ((quiet_drainFrom _ _).resumed hid)
  | @closing id call b c hid =>
    refine .inl (Quiet.resumed hid ((quiet_clear c).trans ?_))
    exact Quiet.behind (quiet_goto trivial) rfl rfl rfl rfl rfl
  | closed hid => exact .inl ((quiet_endRetire.trans quiet_afterClose).resumed hid)
  | gotSlot hid => exact .inl ((quiet_inSlot _).resumed hid)
  | gotLock hid => exact .inl ((quiet_inLock _ _).resumed hid)
  | judged hid hpc answer ha unknown hu => exact .inr (.judged hid hpc answer ha unknown hu)
  | connected hid =>
    refine .inl (Quiet.resumed hid ?_)
    exact Quiet.behind (quiet_opened _) rfl rfl rfl rfl rfl
  | refused hid hpc => exact .inr (.refused hid hpc)
  | failed hid => exact .inl (quiet_leave.resumed hid)
  | done hid =>
    refine .inl (Quiet.resumed hid ?_)
    exact Quiet.behind quiet_leave rfl rfl rfl rfl rfl
  | died => exact .inl (quiet_conn _)
  | unknown => exact .inl (quiet_conn _)
  | lost => exact .inl (quiet_conn _)
  | cancelledRetiring hid => exact .inl ((quiet_endRetire.trans quiet_leave).resumed hid)
  | cancelled hid => exact .inl (quiet_leave.resumed hid)

end SshGpuConsole.Ssh.Manager
