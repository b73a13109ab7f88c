import SshGpuConsole.Ssh.Manager

/-!
# The retire discipline

A retiring call asks for every permit of the slot before it unregisters the connection, and nobody joins the
slot while it does. As permits are handed out in order, no call has a permit of the slot, or waits for one, when
the connection is unregistered; so no command runs on a connection that is gone, and nothing opens it again.
-/

namespace SshGpuConsole.Ssh.Manager
open Shell (Text)

/-! ### The permits a retiring call asks for -/

/-- The first `n` permits of a retiring call. -/
def tokens (id : CallId) (n : ℕ) : List Token := (List.range n).map fun k => (id, k)

lemma tokens_succ (id : CallId) (n : ℕ) : tokens id (n + 1) = tokens id n ++ [(id, n)] := by
  rw [tokens, List.range_succ, List.map_append]
  rfl

lemma fst_of_mem_tokens {id : CallId} {n : ℕ} {t : Token} (h : t ∈ tokens id n) : t.1 = id := by
  obtain ⟨k, -, rfl⟩ := List.mem_map.1 h
  rfl

lemma snd_lt_of_mem_tokens {id : CallId} {n : ℕ} {t : Token} (h : t ∈ tokens id n) : t.2 < n := by
  obtain ⟨k, hk, rfl⟩ := List.mem_map.1 h
  exact List.mem_range.1 hk

lemma length_tokens (id : CallId) (n : ℕ) : (tokens id n).length = n := by
  rw [tokens, List.length_map, List.length_range]

lemma filter_tokens {id i : CallId} (h : i ≠ id) (n : ℕ) : (tokens i n).filter (·.1 ≠ id) = tokens i n := by
  apply List.filter_eq_self.2
  intro t ht
  rw [fst_of_mem_tokens ht]
  exact decide_eq_true h

/-- The slot holds what other calls asked for, and behind it the first `n` permits of the call. -/
def Drains (σ : State) (id : CallId) (c : ConnId) (n : ℕ) : Prop :=
  ∃ users, σ.slot c = users ++ tokens id n ∧ ∀ t ∈ users, t.1 ≠ id

/-- When the call has as many permits as there are, everybody else is gone. -/
lemma Drains.alone {σ : State} {id : CallId} {c : ConnId} {n k : ℕ} (h : Drains σ id c (k + 1)) (hn : n ≤ k + 1)
    (hg : Fifo.Granted n (σ.slot c) (id, k)) (t : Token) (ht : t ∈ σ.slot c) : t.1 = id := by
  obtain ⟨users, hslot, husers⟩ := h
  cases users with
  | nil =>
    rw [hslot] at ht
    exact fst_of_mem_tokens ht
  | cons u us =>
    -- the call's last permit would be beyond the first `n`
    exfalso
    have hlen : n ≤ (u :: us ++ tokens id k).length := by
      rw [List.length_append, length_tokens, List.length_cons]
      omega
    rw [Fifo.Granted, hslot, tokens_succ, ← List.append_assoc, List.take_append_of_le_length hlen] at hg
    rcases List.mem_append.1 (List.mem_of_mem_take hg) with hmem | hmem
    · exact husers _ hmem rfl
    · exact absurd (snd_lt_of_mem_tokens hmem) (Nat.lt_irrefl k)

/-! ### What a waiting call relies on -/

/-- The call has a permit of the slot of the connection that is registered for its server. -/
def Holds (cfg : Config) (σ : State) (id : CallId) (call : Call) (c : ConnId) : Prop :=
  Fifo.Granted cfg.max_in_flight_per_server (σ.slot c) (id, 0) ∧ σ.registered call.server.server_id = some c

/-- The connection was made and is registered no more. -/
def Gone (σ : State) (c : ConnId) : Prop := c < σ.created ∧ ∀ server_id, σ.registered server_id ≠ some c

/-- The call is the last one in the queue for the connect lock. -/
def Last (σ : State) (id : CallId) (c : ConnId) : Prop := ∃ openers, σ.lock c = openers ++ [id] ∧ id ∉ openers

/-- The call retires its server. -/
def Retires : Pc → Prop
  | .drain _ _ | .closeLock _ | .closeWait _ => True
  | _ => False

/-- The call is in the queue for the connect lock of the connection. -/
def Locks : Pc → ConnId → Prop
  | .waitLock c, c' | .handshake c _ _, c' | .closeLock c, c' => c = c'
  | _, _ => False

def Waits (cfg : Config) (σ : State) (id : CallId) (call : Call) : Prop :=
  match call.pc with
  | .waitGlobal | .waitRetired _ => True
  | .drain c k =>
    σ.retiring call.server.server_id = true ∧ σ.registered call.server.server_id = some c ∧ Drains σ id c (k + 1)
  | .closeLock c => σ.retiring call.server.server_id = true ∧ Gone σ c ∧ Last σ id c
  | .closeWait _ => σ.retiring call.server.server_id = true
  | .waitSlot c =>
    (id, 0) ∈ σ.slot c ∧ (cfg.max_in_flight_per_server ≠ 0 → σ.registered call.server.server_id = some c)
  | .waitLock c | .handshake c _ _ => id ∈ σ.lock c ∧ (call.kind ≠ .test → Holds cfg σ id call c)
  | .command c => call.kind = .run ∧ Holds cfg σ id call c

/-- What holds between two awaits, with a call out of its place while it takes a step. -/
structure Inv (cfg : Config) (out : Option CallId) (σ : State) : Prop where
  waits : ∀ i call, some i ≠ out → σ.calls i = some call → Waits cfg σ i call
  permit : ∀ i call, some i ≠ out → σ.calls i = some call → call.kind = .run → call.pc ≠ .waitGlobal →
    Fifo.Granted cfg.max_in_flight_global σ.global i
  clean : ∀ c, ∀ t ∈ σ.slot c, some t.1 ≠ out → ∃ call, σ.calls t.1 = some call ∧ call.pc ≠ .waitGlobal
  locks : ∀ c, ∀ i ∈ σ.lock c, some i ≠ out → ∃ call, σ.calls i = some call ∧ Locks call.pc c
  alone : ∀ i j call call', some i ≠ out → some j ≠ out → σ.calls i = some call → σ.calls j = some call' →
    Retires call.pc → Retires call'.pc → call.server.server_id = call'.server.server_id → i = j
  owner : ∀ server_id c, σ.registered server_id = some c → σ.owner c = server_id ∧ c < σ.created
  closed : ∀ c, σ.registered (σ.owner c) ≠ some c →
    (∃ i call, some i ≠ out ∧ σ.calls i = some call ∧ call.pc = .closeLock c) ∨
      (σ.conn c ≠ some true ∧ σ.lock c = [])

variable {cfg : Config} {out : Option CallId} {σ σ' : State} {id : CallId} {call : Call}

/-- What a change spares of the things a waiting call relies on. -/
structure Spares (cfg : Config) (i : CallId) (call : Call) (σ σ' : State) : Prop where
  retiring : Retires call.pc → σ.retiring call.server.server_id = true → σ'.retiring call.server.server_id = true
  registered : ∀ c, σ.registered call.server.server_id = some c → σ'.registered call.server.server_id = some c
  gone : ∀ c, Gone σ c → Gone σ' c
  slot : ∀ c, (i, 0) ∈ σ.slot c → (i, 0) ∈ σ'.slot c
  granted : ∀ c, Fifo.Granted cfg.max_in_flight_per_server (σ.slot c) (i, 0) →
    Fifo.Granted cfg.max_in_flight_per_server (σ'.slot c) (i, 0)
  drains : ∀ c k, call.pc = .drain c k → Drains σ i c (k + 1) → Drains σ' i c (k + 1)
  lock : ∀ c, i ∈ σ.lock c → i ∈ σ'.lock c
  last : ∀ c, call.pc = .closeLock c → Last σ i c → Last σ' i c

lemma Spares.holds {c : ConnId} (hs : Spares cfg id call σ σ') (h : Holds cfg σ id call c) : Holds cfg σ' id call c :=
  ⟨hs.granted c h.1, hs.registered c h.2⟩

lemma Waits.spares (h : Waits cfg σ id call) (hs : Spares cfg id call σ σ') : Waits cfg σ' id call := by
  obtain ⟨kind, server, pc⟩ := call
  cases pc with
  | waitGlobal => trivial
  | waitRetired n => trivial
  | drain c k => exact ⟨hs.retiring trivial h.1, hs.registered c h.2.1, hs.drains c k rfl h.2.2⟩
  | closeLock c => exact ⟨hs.retiring trivial h.1, hs.gone c h.2.1, hs.last c rfl h.2.2⟩
  | closeWait c => exact hs.retiring trivial h
  | waitSlot c => exact ⟨hs.slot c h.1, fun h0 => hs.registered c (h.2 h0)⟩
  | waitLock c => exact ⟨hs.lock c h.1, fun hk => hs.holds (h.2 hk)⟩
  | handshake c params answer => exact ⟨hs.lock c h.1, fun hk => hs.holds (h.2 hk)⟩
  | command c => exact ⟨h.1, hs.holds h.2⟩

/-- A change that spares every waiting call keeps the invariant. -/
lemma Inv.spares (h : Inv cfg out σ) (hcalls : σ'.calls = σ.calls)
    (hs : ∀ i call, some i ≠ out → σ.calls i = some call → Spares cfg i call σ σ')
    (hglobal : ∀ i, some i ≠ out → Fifo.Granted cfg.max_in_flight_global σ.global i →
      Fifo.Granted cfg.max_in_flight_global σ'.global i)
    (hslot : ∀ c, ∀ t ∈ σ'.slot c, t ∈ σ.slot c ∨ some t.1 = out)
    (hlock : ∀ c, ∀ i ∈ σ'.lock c, i ∈ σ.lock c ∨ some i = out)
    (howner : ∀ server_id c, σ'.registered server_id = some c → σ'.owner c = server_id ∧ c < σ'.created)
    (hclosed : ∀ c, σ'.registered (σ'.owner c) ≠ some c → σ.registered (σ.owner c) ≠ some c ∧
      (σ.conn c ≠ some true ∧ σ.lock c = [] → σ'.conn c ≠ some true ∧ σ'.lock c = [])) : Inv cfg out σ' where
  waits i call hi hc := by
    rw [hcalls] at hc
    exact (h.waits i call hi hc).spares (hs i call hi hc)
  permit i call hi hc hk hpc := by
    rw [hcalls] at hc
    exact hglobal i hi (h.permit i call hi hc hk hpc)
  clean c t ht hout := by
    rw [hcalls]
    exact h.clean c t ((hslot c t ht).resolve_right hout) hout
  locks c i hi hout := by
    rw [hcalls]
    exact h.locks c i ((hlock c i hi).resolve_right hout) hout
  alone i j call call' hi hj hc hc' := by
    rw [hcalls] at hc hc'
    exact h.alone i j call call' hi hj hc hc'
  owner := howner
  closed c hc := by
    obtain ⟨hold, hkeep⟩ := hclosed c hc
    rw [hcalls]
    exact (h.closed c hold).imp (fun hclosing => hclosing) hkeep

/-! ### Out of place and back -/

/-- No other call retires the server. -/
def Alone (σ : State) (id : CallId) (server_id : Text) : Prop :=
  ∀ i call, i ≠ id → σ.calls i = some call → Retires call.pc → call.server.server_id ≠ server_id

lemma Inv.moving (h : Inv cfg none σ) (hpc : ∀ call c, σ.calls id = some call → call.pc ≠ .closeLock c) :
    Inv cfg (some id) σ where
  waits i call _ := h.waits i call (Option.some_ne_none i)
  permit i call _ := h.permit i call (Option.some_ne_none i)
  clean c t ht _ := h.clean c t ht (Option.some_ne_none t.1)
  locks c i hi _ := h.locks c i hi (Option.some_ne_none i)
  alone i j call call' _ _ := h.alone i j call call' (Option.some_ne_none i) (Option.some_ne_none j)
  owner := h.owner
  closed c hc := by
    rcases h.closed c hc with ⟨i, call, -, hi, hclosing⟩ | hrest
    · refine .inl ⟨i, call, fun heq => ?_, hi, hclosing⟩
      cases heq
      exact hpc call c hi hclosing
    · exact .inr hrest

lemma Inv.moving_fresh (h : Inv cfg none σ) (hid : σ.calls id = none) : Inv cfg (some id) σ := by
  refine h.moving fun call c hc => ?_
  rw [hid] at hc
  cases hc

lemma Inv.moving_call (h : Inv cfg none σ) (hid : σ.calls id = some call) (hpc : ∀ c, call.pc ≠ .closeLock c) :
    Inv cfg (some id) σ := by
  refine h.moving fun call' c hc => ?_
  rw [hid] at hc
  cases hc
  exact hpc c

lemma Inv.alone_of_retires (h : Inv cfg none σ) (hid : σ.calls id = some call) (hr : Retires call.pc) :
    Alone σ id call.server.server_id := fun i call' hne hc hr' hs =>
  hne (h.alone i id call' call (Option.some_ne_none i) (Option.some_ne_none id) hc hid hr' hr hs)

/-- A call takes its place. -/
lemma Inv.place {pc : Pc} (h : Inv cfg (some id) σ)
    (hcalls : σ'.calls = Function.update σ.calls id (some { call with pc })) (hslot : σ'.slot = σ.slot)
    (hglobal : σ'.global = σ.global)
    (hothers : ∀ i call', i ≠ id → σ.calls i = some call' → Waits cfg σ' i call')
    (hw : Waits cfg σ' id { call with pc })
    (hp : call.kind = .run → pc ≠ .waitGlobal → Fifo.Granted cfg.max_in_flight_global σ.global id)
    (hclean : pc = .waitGlobal → ∀ c, ∀ t ∈ σ.slot c, t.1 ≠ id)
    (hlock : ∀ c, ∀ i ∈ σ'.lock c, i ∈ σ.lock c ∨ i = id) (hlocks : ∀ c, id ∈ σ'.lock c → Locks pc c)
    (ha : Retires pc → Alone σ id call.server.server_id)
    (howner : ∀ server_id c, σ'.registered server_id = some c → σ'.owner c = server_id ∧ c < σ'.created)
    (hclosed : ∀ c, σ'.registered (σ'.owner c) ≠ some c →
      (∃ i call', σ'.calls i = some call' ∧ call'.pc = .closeLock c) ∨ (σ'.conn c ≠ some true ∧ σ'.lock c = [])) :
    Inv cfg none σ' := by
  have hcases : ∀ {i call'}, σ'.calls i = some call' →
      (i = id ∧ call' = { call with pc }) ∨ (i ≠ id ∧ σ.calls i = some call') := by
    intro i call' hc
    rw [hcalls] at hc
    by_cases hi : i = id
    · subst hi
      rw [Function.update_self] at hc
      exact .inl ⟨rfl, (Option.some.inj hc).symm⟩
    · rw [Function.update_of_ne hi] at hc
      exact .inr ⟨hi, hc⟩
  have hout : ∀ {i : CallId}, i ≠ id → some i ≠ some id := fun hi heq => hi (Option.some.inj heq)
  refine ⟨fun i call' _ hc => ?_, fun i call' _ hc hk hpc => ?_, fun c t ht _ => ?_, fun c i hi _ => ?_,
    fun i j call₁ call₂ _ _ hi hj hr₁ hr₂ hs => ?_, howner, fun c hc => ?_⟩
  · rcases hcases hc with ⟨rfl, rfl⟩ | ⟨hi, hc⟩
    · exact hw
    · exact hothers i call' hi hc
  · rw [hglobal]
    rcases hcases hc with ⟨rfl, rfl⟩ | ⟨hi, hc⟩
    · exact hp hk hpc
    · exact h.permit i call' (hout hi) hc hk hpc
  · rw [hslot] at ht
    rw [hcalls]
    by_cases hi : t.1 = id
    · rw [hi, Function.update_self]
      exact ⟨_, rfl, fun hpc => hclean hpc c t ht hi⟩
    · rw [Function.update_of_ne hi]
      exact h.clean c t ht (hout hi)
  · rw [hcalls]
    by_cases hid : i = id
    · subst hid
      rw [Function.update_self]
      exact ⟨_, rfl, hlocks c hi⟩
    · rw [Function.update_of_ne hid]
      exact h.locks c i ((hlock c i hi).resolve_right hid) (hout hid)
  · rcases hcases hi with ⟨rfl, rfl⟩ | ⟨hi', hi⟩
    · rcases hcases hj with ⟨rfl, rfl⟩ | ⟨hj', hj⟩
      · rfl
      · exact absurd hs.symm (ha hr₁ j call₂ hj' hj hr₂)
    · rcases hcases hj with ⟨rfl, rfl⟩ | ⟨hj', hj⟩
      · exact absurd hs (ha hr₂ i call₁ hi' hi hr₁)
      · exact h.alone i j call₁ call₂ (hout hi') (hout hj') hi hj hr₁ hr₂ hs
  · rcases hclosed c hc with ⟨i, call', hi, hpc⟩ | hrest
    · exact .inl ⟨i, call', Option.some_ne_none i, hi, hpc⟩
    · exact .inr hrest

lemma Inv.goto {pc : Pc} (h : Inv cfg (some id) σ) (hw : Waits cfg σ id { call with pc })
    (hp : call.kind = .run → pc ≠ .waitGlobal → Fifo.Granted cfg.max_in_flight_global σ.global id)
    (hclean : pc = .waitGlobal → ∀ c, ∀ t ∈ σ.slot c, t.1 ≠ id) (hlocks : ∀ c, id ∈ σ.lock c → Locks pc c)
    (ha : Retires pc → Alone σ id call.server.server_id) : Inv cfg none (σ.goto id call pc) := by
  refine h.place rfl rfl rfl (fun i call' hi hc => ?_) hw hp hclean (fun _ _ h => .inl h) hlocks ha h.owner
    fun c hc => ?_
  · exact h.waits i call' (fun heq => hi (Option.some.inj heq)) hc
  · rcases h.closed c hc with ⟨i, call', hi, hcall, hpc⟩ | hrest
    · have hne : i ≠ id := fun heq => hi (congrArg some heq)
      exact .inl ⟨i, call', (calls_goto_of_ne _ _ _ hne _).trans hcall, hpc⟩
    · exact .inr hrest

/-! ### What a step of one call spares of the others -/

lemma drains_filter {i : CallId} (hi : i ≠ id) {c : ConnId} {n : ℕ} (h : Drains σ i c n) :
    ∃ users, (σ.slot c).filter (·.1 ≠ id) = users ++ tokens i n ∧ ∀ t ∈ users, t.1 ≠ i := by
  obtain ⟨users, hslot, husers⟩ := h
  refine ⟨users.filter (·.1 ≠ id), ?_, fun t ht => husers t (List.mem_filter.1 ht).1⟩
  rw [hslot, List.filter_append, filter_tokens hi]

lemma last_filter {i : CallId} (hi : i ≠ id) {c : ConnId} (h : Last σ i c) :
    ∃ openers, (σ.lock c).filter (· ≠ id) = openers ++ [i] ∧ i ∉ openers := by
  obtain ⟨openers, hlock, hopeners⟩ := h
  refine ⟨openers.filter (· ≠ id), ?_, fun hmem => hopeners (List.mem_filter.1 hmem).1⟩
  have hself : [i].filter (· ≠ id) = [i] :=
    List.filter_eq_self.2 fun t ht => decide_eq_true (List.mem_singleton.1 ht ▸ hi)
  rw [hlock, List.filter_append, hself]

/-- Releasing what a call holds spares the others. -/
lemma spares_leave {i : CallId} (hi : i ≠ id) (call : Call) : Spares cfg i call σ (σ.leave id) where
  retiring _ h := h
  registered _ h := h
  gone _ h := h
  slot _ h := List.mem_filter.2 ⟨h, decide_eq_true hi⟩
  granted _ h := h.filter (decide_eq_true hi)
  drains _ _ _ h := drains_filter hi h
  lock _ h := List.mem_filter.2 ⟨h, decide_eq_true hi⟩
  last _ _ h := last_filter hi h

/-- A call returns. -/
lemma Inv.leave (h : Inv cfg (some id) σ) : Inv cfg none (σ.leave id) where
  waits i call _ hc := by
    by_cases hi : i = id
    · subst hi
      rw [calls_leave] at hc
      cases hc
    · rw [calls_leave_of_ne _ _ hi] at hc
      exact (h.waits i call (fun heq => hi (Option.some.inj heq)) hc).spares (spares_leave hi call)
  permit i call _ hc hk hpc := by
    by_cases hi : i = id
    · subst hi
      rw [calls_leave] at hc
      cases hc
    · rw [calls_leave_of_ne _ _ hi] at hc
      exact (h.permit i call (fun heq => hi (Option.some.inj heq)) hc hk hpc).filter (decide_eq_true hi)
  clean c t ht _ := by
    obtain ⟨ht, hne⟩ := List.mem_filter.1 ht
    have hne : t.1 ≠ id := of_decide_eq_true hne
    rw [calls_leave_of_ne _ _ hne]
    exact h.clean c t ht fun heq => hne (Option.some.inj heq)
  locks c i hi _ := by
    obtain ⟨hi, hne⟩ := List.mem_filter.1 hi
    have hne : i ≠ id := of_decide_eq_true hne
    rw [calls_leave_of_ne _ _ hne]
    exact h.locks c i hi fun heq => hne (Option.some.inj heq)
  alone i j call₁ call₂ _ _ hi hj := by
    have hne : ∀ {i call}, (σ.leave id).calls i = some call → i ≠ id ∧ σ.calls i = some call := by
      intro i call hc
      by_cases hid : i = id
      · subst hid
        rw [calls_leave] at hc
        cases hc
      · exact ⟨hid, (calls_leave_of_ne _ _ hid).symm.trans hc⟩
    obtain ⟨hii, hi⟩ := hne hi
    obtain ⟨hji, hj⟩ := hne hj
    exact h.alone i j call₁ call₂ (fun heq => hii (Option.some.inj heq)) (fun heq => hji (Option.some.inj heq)) hi hj
  owner := h.owner
  closed c hc := by
    rcases h.closed c hc with ⟨i, call, hi, hcall, hclosing⟩ | ⟨hconn, hlock⟩
    · have hne : i ≠ id := fun heq => hi (congrArg some heq)
      exact .inl ⟨i, call, Option.some_ne_none i, (calls_leave_of_ne _ _ hne).trans hcall, hclosing⟩
    · refine .inr ⟨hconn, ?_⟩
      show (σ.lock c).filter _ = []
      rw [hlock, List.filter_nil]

lemma spares_queueSlot {i : CallId} {c : ConnId} (hd : ∀ k, call.pc ≠ .drain c k) (t : Token) :
    Spares cfg i call σ { σ with slot := Function.update σ.slot c (σ.slot c ++ [t]) } where
  retiring _ h := h
  registered _ h := h
  gone _ h := h
  slot c' h := by
    show (i, 0) ∈ Function.update σ.slot c (σ.slot c ++ [t]) c'
    by_cases hc : c' = c
    · subst hc
      rw [Function.update_self]
      exact List.mem_append_left _ h
    · rwa [Function.update_of_ne hc]
  granted c' h := by
    show Fifo.Granted _ (Function.update σ.slot c (σ.slot c ++ [t]) c') (i, 0)
    by_cases hc : c' = c
    · subst hc
      rw [Function.update_self]
      exact h.append [t]
    · rwa [Function.update_of_ne hc]
  drains c' k hpc h := by
    have hc : c' ≠ c := fun heq => hd k (heq ▸ hpc)
    rw [Drains]
    show ∃ users, Function.update σ.slot c (σ.slot c ++ [t]) c' = _ ∧ _
    rwa [Function.update_of_ne hc]
  lock _ h := h
  last _ _ h := h

lemma spares_queueLock {i : CallId} {c : ConnId} (hl : call.pc ≠ .closeLock c) (id : CallId) :
    Spares cfg i call σ { σ with lock := Function.update σ.lock c (σ.lock c ++ [id]) } where
  retiring _ h := h
  registered _ h := h
  gone _ h := h
  slot _ h := h
  granted _ h := h
  drains _ _ _ h := h
  lock c' h := by
    show i ∈ Function.update σ.lock c (σ.lock c ++ [id]) c'
    by_cases hc : c' = c
    · subst hc
      rw [Function.update_self]
      exact List.mem_append_left _ h
    · rwa [Function.update_of_ne hc]
  last c' hpc h := by
    have hc : c' ≠ c := fun heq => hl (heq ▸ hpc)
    rw [Last]
    show ∃ openers, Function.update σ.lock c (σ.lock c ++ [id]) c' = _ ∧ _
    rwa [Function.update_of_ne hc]

lemma spares_releaseLock {i : CallId} (hi : i ≠ id) (call : Call) (c : ConnId) :
    Spares cfg i call σ { σ with lock := Function.update σ.lock c ((σ.lock c).filter (· ≠ id)) } where
  retiring _ h := h
  registered _ h := h
  gone _ h := h
  slot _ h := h
  granted _ h := h
  drains _ _ _ h := h
  lock c' h := by
    show i ∈ Function.update σ.lock c ((σ.lock c).filter (· ≠ id)) c'
    by_cases hc : c' = c
    · subst hc
      rw [Function.update_self]
      exact List.mem_filter.2 ⟨h, decide_eq_true hi⟩
    · rwa [Function.update_of_ne hc]
  last c' _ h := by
    rw [Last]
    show ∃ openers, Function.update σ.lock c ((σ.lock c).filter (· ≠ id)) c' = _ ∧ _
    by_cases hc : c' = c
    · subst hc
      rw [Function.update_self]
      exact last_filter hi h
    · rwa [Function.update_of_ne hc]

lemma spares_endRetire {i : CallId} {call' : Call} (hi : i ≠ id)
    (hs : Retires call'.pc → call'.server.server_id ≠ call.server.server_id) :
    Spares cfg i call' σ (σ.endRetire id call) where
  retiring hr h := (Function.update_of_ne (hs hr) ..).trans h
  registered _ h := h
  gone _ h := h
  slot _ h := List.mem_filter.2 ⟨h, decide_eq_true hi⟩
  granted _ h := h.filter (decide_eq_true hi)
  drains _ _ _ h := drains_filter hi h
  lock _ h := h
  last _ _ h := h

lemma registered_register {server : ServerRecord} (h : σ.registered server.server_id = none) :
    (σ.register cfg server).registered server.server_id = some σ.created := by
  have hget := Dict.get_push σ.managed (Option.map_eq_none_iff.1 h) ⟨σ.created, identityOf cfg server⟩
  exact congrArg (Option.map Entry.connection) hget

lemma registered_register_of_ne {server : ServerRecord} {server_id : Text} (h : server_id ≠ server.server_id) :
    (σ.register cfg server).registered server_id = σ.registered server_id :=
  congrArg (Option.map Entry.connection) (Dict.get_push_of_ne σ.managed h ⟨σ.created, identityOf cfg server⟩)

lemma spares_register {i : CallId} {server : ServerRecord} (h : σ.registered server.server_id = none) (call : Call) :
    Spares cfg i call σ (σ.register cfg server) where
  retiring _ h := h
  registered c hc := by
    rw [registered_register_of_ne]
    · exact hc
    · intro heq
      rw [heq, h] at hc
      cases hc
  gone c hc := by
    refine ⟨Nat.lt_succ_of_lt hc.1, fun server_id hreg => ?_⟩
    by_cases hs : server_id = server.server_id
    · rw [hs, registered_register h] at hreg
      exact absurd (Option.some.inj hreg) (Nat.ne_of_gt hc.1)
    · rw [registered_register_of_ne hs] at hreg
      exact hc.2 server_id hreg
  slot _ h := h
  granted _ h := h
  drains _ _ _ h := h
  lock _ h := h
  last _ _ h := h

/-! ### Changes that keep the invariant -/

/-- A retiring call of another server is none of this one. -/
lemma Inv.alone_of_idle {server_id : Text} (h : Inv cfg (some id) σ) (hr : σ.retiring server_id = false) :
    Alone σ id server_id := by
  intro i call hi hc hret hs
  have hw := h.waits i call (fun heq => hi (Option.some.inj heq)) hc
  obtain ⟨kind, server, pc⟩ := call
  subst hs
  cases pc with
  | drain c k => exact nomatch hr.symm.trans hw.1
  | closeLock c => exact nomatch hr.symm.trans hw.1
  | closeWait c => exact nomatch hr.symm.trans hw
  | _ => exact hret.elim

/-- Nobody closes a connection that is registered. -/
lemma Inv.not_closing {server_id : Text} {c : ConnId} (h : Inv cfg out σ) (hc : σ.registered server_id = some c)
    {i : CallId} (hi : some i ≠ out) (hcall : σ.calls i = some call) : call.pc ≠ .closeLock c := by
  intro hpc
  have hw := h.waits i call hi hcall
  rw [Waits, hpc] at hw
  exact hw.2.1.2 server_id hc

/-- Nobody else drains the slot of a connection whose server no other call retires. -/
lemma Inv.not_draining {server_id : Text} {c : ConnId} (h : Inv cfg (some id) σ)
    (hc : σ.registered server_id = some c) (ha : Alone σ id server_id) {i : CallId} (hi : some i ≠ some id)
    (hcall : σ.calls i = some call) (k : ℕ) : call.pc ≠ .drain c k := by
  intro hpc
  have hw := h.waits i call hi hcall
  rw [Waits, hpc] at hw
  have hs := (h.owner _ _ hw.2.1).1.symm.trans (h.owner _ _ hc).1
  exact ha i call (fun heq => hi (congrArg some heq)) hcall (hpc ▸ trivial) hs

lemma Inv.queueSlot {server_id : Text} {c : ConnId} (h : Inv cfg (some id) σ) (hc : σ.registered server_id = some c)
    (ha : Alone σ id server_id) (k : ℕ) :
    Inv cfg (some id) { σ with slot := Function.update σ.slot c (σ.slot c ++ [(id, k)]) } := by
  refine h.spares rfl (fun i call hi hcall => spares_queueSlot (h.not_draining hc ha hi hcall) _) (fun _ _ h => h)
    (fun c' t ht => ?_) (fun _ _ h => .inl h) h.owner fun c' hc' => ⟨hc', fun h => h⟩
  have ht : t ∈ Function.update σ.slot c (σ.slot c ++ [(id, k)]) c' := ht
  by_cases heq : c' = c
  · subst heq
    rw [Function.update_self] at ht
    rcases List.mem_append.1 ht with ht | ht
    · exact .inl ht
    · rw [List.mem_singleton.1 ht]
      exact .inr rfl
  · rw [Function.update_of_ne heq] at ht
    exact .inl ht

lemma mem_queueLock {c c' : ConnId} {i : CallId} (h : i ∈ Function.update σ.lock c (σ.lock c ++ [id]) c') :
    i ∈ σ.lock c' ∨ i = id ∧ c' = c := by
  by_cases heq : c' = c
  · subst heq
    rw [Function.update_self] at h
    exact (List.mem_append.1 h).imp (fun h => h) fun h => ⟨List.mem_singleton.1 h, rfl⟩
  · rw [Function.update_of_ne heq] at h
    exact .inl h

lemma mem_releaseLock {c c' : ConnId} {i : CallId}
    (h : i ∈ Function.update σ.lock c ((σ.lock c).filter (· ≠ id)) c') : i ∈ σ.lock c' ∧ (c' = c → i ≠ id) := by
  by_cases heq : c' = c
  · subst heq
    rw [Function.update_self] at h
    obtain ⟨h, hne⟩ := List.mem_filter.1 h
    exact ⟨h, fun _ => of_decide_eq_true hne⟩
  · rw [Function.update_of_ne heq] at h
    exact ⟨h, fun hc => absurd hc heq⟩

lemma Inv.queueLock {server_id : Text} {c : ConnId} (h : Inv cfg (some id) σ) (hc : σ.registered server_id = some c) :
    Inv cfg (some id) { σ with lock := Function.update σ.lock c (σ.lock c ++ [id]) } := by
  refine h.spares rfl (fun i call hi hcall => spares_queueLock (h.not_closing hc hi hcall) id) (fun _ _ h => h)
    (fun _ _ h => .inl h) (fun c' i hi => ?_) h.owner fun c' hc' => ⟨hc', fun ⟨hconn, hlock⟩ => ⟨hconn, ?_⟩⟩
  · exact (mem_queueLock hi).imp (fun h => h) fun h => congrArg some h.1
  · have hne : c' ≠ c := by
      rintro rfl
      rw [← (h.owner _ _ hc).1] at hc
      exact hc' hc
    exact (Function.update_of_ne hne ..).trans hlock

lemma Inv.releaseLock (h : Inv cfg (some id) σ) (c : ConnId) :
    Inv cfg (some id) { σ with lock := Function.update σ.lock c ((σ.lock c).filter (· ≠ id)) } := by
  refine h.spares rfl (fun i call hi _ => spares_releaseLock (fun heq => hi (congrArg some heq)) call c)
    (fun _ _ h => h) (fun _ _ h => .inl h) (fun c' i hi => .inl (mem_releaseLock hi).1) h.owner
    fun c' hc' => ⟨hc', fun ⟨hconn, hlock⟩ => ⟨hconn, ?_⟩⟩
  show Function.update σ.lock c ((σ.lock c).filter (· ≠ id)) c' = []
  by_cases heq : c' = c
  · subst heq
    rw [Function.update_self, hlock, List.filter_nil]
  · rw [Function.update_of_ne heq, hlock]

lemma Inv.endRetire (h : Inv cfg (some id) σ) (ha : Alone σ id call.server.server_id) :
    Inv cfg (some id) (σ.endRetire id call) := by
  refine h.spares rfl (fun i call' hi hcall => ?_) (fun _ _ h => h) (fun c t ht => .inl (List.mem_filter.1 ht).1)
    (fun _ _ h => .inl h) h.owner fun _ hc => ⟨hc, fun h => h⟩
  have hne : i ≠ id := fun heq => hi (congrArg some heq)
  exact spares_endRetire hne (ha i call' hne hcall)

lemma Inv.register {server : ServerRecord} (h : Inv cfg out σ) (hnone : σ.registered server.server_id = none) :
    Inv cfg out (σ.register cfg server) := by
  refine h.spares rfl (fun i call _ _ => spares_register hnone call) (fun _ _ h => h) (fun _ _ h => .inl h)
    (fun _ _ h => .inl h) (fun server_id c hreg => ?_) fun c hc => ?_
  · by_cases hs : server_id = server.server_id
    · subst hs
      rw [registered_register hnone] at hreg
      cases hreg
      exact ⟨Function.update_self .., Nat.lt_succ_self _⟩
    · rw [registered_register_of_ne hs] at hreg
      obtain ⟨howner, hlt⟩ := h.owner server_id c hreg
      exact ⟨(Function.update_of_ne hlt.ne ..).trans howner, Nat.lt_succ_of_lt hlt⟩
  · refine ⟨fun hold => hc ?_, fun h => h⟩
    -- a connection that is registered stays so
    have hlt := (h.owner _ c hold).2
    have howner : (σ.register cfg server).owner c = σ.owner c := Function.update_of_ne hlt.ne ..
    rw [howner, registered_register_of_ne]
    · exact hold
    · intro heq
      rw [heq, hnone] at hold
      cases hold

/-! ### The steps of a call -/

/-- A call that takes a step, outside every connect lock. -/
structure Moving (cfg : Config) (σ : State) (id : CallId) (call : Call) : Prop where
  inv : Inv cfg (some id) σ
  permit : call.kind = .run → Fifo.Granted cfg.max_in_flight_global σ.global id
  unlocked : ∀ c, id ∉ σ.lock c

/-- The call has asked for no permit of a slot. -/
def Clean (σ : State) (id : CallId) : Prop := ∀ c, ∀ t ∈ σ.slot c, t.1 ≠ id

lemma Moving.goto {pc : Pc} (h : Moving cfg σ id call) (hw : Waits cfg σ id { call with pc })
    (hpc : pc ≠ .waitGlobal) (ha : Retires pc → Alone σ id call.server.server_id) :
    Inv cfg none (σ.goto id call pc) :=
  h.inv.goto hw (fun hr _ => h.permit hr) (fun heq => absurd heq hpc) (fun c hc => absurd hc (h.unlocked c)) ha

lemma Moving.connect {c : ConnId} (h : Moving cfg σ id call) (hc : σ.registered call.server.server_id = some c)
    (hk : call.kind ≠ .test → Holds cfg σ id call c) : Inv cfg none (σ.connect cfg id call c) := by
  rw [State.connect]
  split
  · exact h.inv.leave
  · refine (h.inv.queueLock hc).goto ⟨?_, hk⟩ (fun hr _ => h.permit hr) nofun (fun c' hl => ?_) nofun
    · show id ∈ Function.update σ.lock c (σ.lock c ++ [id]) c
      rw [Function.update_self]
      exact List.mem_append_right _ (List.mem_singleton_self id)
    · rcases mem_queueLock hl with hl | ⟨-, rfl⟩
      · exact absurd hl (h.unlocked c')
      · rfl

lemma Moving.withEntry {c : ConnId} (h : Moving cfg σ id call) (hc : σ.registered call.server.server_id = some c)
    (hr : σ.retiring call.server.server_id = false) : Inv cfg none (σ.withEntry cfg id call c) := by
  rw [State.withEntry]
  split
  · rename_i hk
    exact h.connect hc fun hne => absurd hk hne
  · have hqueued : Moving cfg { σ with slot := Function.update σ.slot c (σ.slot c ++ [(id, 0)]) } id call :=
      ⟨h.inv.queueSlot hc (h.inv.alone_of_idle hr) 0, h.permit, h.unlocked⟩
    refine hqueued.goto ⟨?_, fun _ => hc⟩ nofun nofun
    show (id, 0) ∈ Function.update σ.slot c (σ.slot c ++ [(id, 0)]) c
    rw [Function.update_self]
    exact List.mem_append_right _ (List.mem_singleton_self _)

lemma Moving.findEntry (h : Moving cfg σ id call) : Inv cfg none (σ.findEntry cfg id call) := by
  rw [State.findEntry]
  split
  · exact h.inv.leave
  · rename_i hr
    have hr := Bool.eq_false_iff.2 hr
    split
    · rename_i c hc
      exact h.withEntry hc hr
    · rename_i hnone
      split
      · exact h.inv.leave
      · have hnew : Moving cfg (σ.register cfg call.server) id call :=
          ⟨h.inv.register hnone, h.permit, h.unlocked⟩
        exact hnew.withEntry (registered_register hnone) hr

lemma Moving.afterClose (h : Moving cfg σ id call) : Inv cfg none (σ.afterClose cfg id call) := by
  rw [State.afterClose]
  split
  · exact h.inv.leave
  · exact h.findEntry

lemma Moving.endRetire (h : Moving cfg σ id call) (ha : Alone σ id call.server.server_id) :
    Moving cfg (σ.endRetire id call) id call :=
  ⟨h.inv.endRetire ha, h.permit, h.unlocked⟩

lemma registered_pop (server_id : Text) :
    State.registered { σ with managed := σ.managed.pop server_id } server_id = none :=
  congrArg (Option.map Entry.connection) (Dict.get_pop σ.managed server_id)

lemma registered_pop_of_ne {server_id server_id' : Text} (h : server_id' ≠ server_id) :
    State.registered { σ with managed := σ.managed.pop server_id } server_id' = σ.registered server_id' :=
  congrArg (Option.map Entry.connection) (Dict.get_pop_of_ne σ.managed h)

/-- What the other calls rely on survives that a call which has every permit unregisters its connection. -/
lemma Waits.unregister {server_id : Text} {c : ConnId} {i : CallId} {call' : Call} (hi : i ≠ id)
    (hw : Waits cfg σ i call') (ha : Retires call'.pc → call'.server.server_id ≠ server_id)
    (hnot : call'.pc ≠ .closeLock c) (hc : σ.registered server_id = some c)
    (hfull : cfg.max_in_flight_per_server ≠ 0 → ∀ t ∈ σ.slot c, t.1 = id) :
    Waits cfg { σ with
      managed := σ.managed.pop server_id
      lock := Function.update σ.lock c (σ.lock c ++ [id]) } i call' := by
  have hkeep : ∀ c', cfg.max_in_flight_per_server ≠ 0 → (i, 0) ∈ σ.slot c' →
      σ.registered call'.server.server_id = some c' →
      State.registered { σ with managed := σ.managed.pop server_id } call'.server.server_id = some c' := by
    intro c' h0 hmem hreg
    rw [registered_pop_of_ne]
    · exact hreg
    · intro heq
      rw [heq, hc] at hreg
      cases hreg
      exact hi (hfull h0 _ hmem)
  have hholds : ∀ {c'}, Holds cfg σ i call' c' → Holds cfg { σ with
      managed := σ.managed.pop server_id
      lock := Function.update σ.lock c (σ.lock c ++ [id]) } i call' c' :=
    fun h => ⟨h.1, hkeep _ h.1.ne_zero h.1.mem h.2⟩
  have hspares : Spares cfg i call' σ { σ with lock := Function.update σ.lock c (σ.lock c ++ [id]) } :=
    spares_queueLock hnot id
  obtain ⟨kind, server, pc⟩ := call'
  cases pc with
  | waitGlobal => trivial
  | waitRetired n => trivial
  | drain c' k => exact ⟨hw.1, (registered_pop_of_ne (ha trivial)).trans hw.2.1, hw.2.2⟩
  | closeLock c' =>
    refine ⟨hw.1, ⟨hw.2.1.1, fun server_id' hreg => ?_⟩, hspares.last c' rfl hw.2.2⟩
    by_cases hs : server_id' = server_id
    · subst hs
      exact nomatch (registered_pop _).symm.trans hreg
    · exact hw.2.1.2 server_id' ((registered_pop_of_ne hs).symm.trans hreg)
  | closeWait c' => exact hw
  | waitSlot c' => exact ⟨hw.1, fun h0 => hkeep c' h0 hw.1 (hw.2 h0)⟩
  | waitLock c' => exact ⟨hspares.lock c' hw.1, fun hk => hholds (hw.2 hk)⟩
  | handshake c' params answer => exact ⟨hspares.lock c' hw.1, fun hk => hholds (hw.2 hk)⟩
  | command c' => exact ⟨hw.1, hholds hw.2⟩

/-- The retiring call has all permits: it unregisters the connection and queues for the connect lock. -/
lemma Moving.unregister {c : ConnId} (h : Moving cfg σ id call) (ha : Alone σ id call.server.server_id)
    (hr : σ.retiring call.server.server_id = true) (hc : σ.registered call.server.server_id = some c)
    (hfull : cfg.max_in_flight_per_server ≠ 0 → ∀ t ∈ σ.slot c, t.1 = id) :
    Inv cfg none ({ σ with
      managed := σ.managed.pop call.server.server_id
      lock := Function.update σ.lock c (σ.lock c ++ [id]) }.goto id call (.closeLock c)) := by
  have hreg_of : ∀ {server_id c'}, State.registered { σ with managed := σ.managed.pop call.server.server_id }
      server_id = some c' → server_id ≠ call.server.server_id ∧ σ.registered server_id = some c' := by
    intro server_id c' hreg
    have hs : server_id ≠ call.server.server_id := by
      rintro rfl
      exact nomatch (registered_pop _).symm.trans hreg
    exact ⟨hs, (registered_pop_of_ne hs).symm.trans hreg⟩
  have howner := h.inv.owner _ c hc
  refine h.inv.place rfl rfl rfl (fun i call' hi hcall => ?_) ?_ (fun hr _ => h.permit hr) nofun
    (fun c' i hi => (mem_queueLock hi).imp (fun h => h) And.left) (fun c' hl => ?_) (fun _ => ha)
    (fun server_id c' hreg => h.inv.owner server_id c' (hreg_of hreg).2) fun c' hc' => ?_
  · have hne : some i ≠ some id := fun heq => hi (Option.some.inj heq)
    exact (h.inv.waits i call' hne hcall).unregister hi (ha i call' hi hcall) (h.inv.not_closing hc hne hcall) hc
      hfull
  · refine ⟨hr, ⟨howner.2, fun server_id hreg => ?_⟩, σ.lock c, Function.update_self .., h.unlocked c⟩
    obtain ⟨hs, hreg⟩ := hreg_of hreg
    exact hs ((h.inv.owner _ c hreg).1.symm.trans howner.1)
  · rcases mem_queueLock hl with hl | ⟨-, rfl⟩
    · exact absurd hl (h.unlocked c')
    · rfl
  · by_cases heq : c' = c
    · subst heq
      exact .inl ⟨id, _, calls_goto .., rfl⟩
    · have hold : σ.registered (σ.owner c') ≠ some c' := by
        intro hreg
        by_cases hs : σ.owner c' = call.server.server_id
        · rw [hs, hc] at hreg
          exact heq (Option.some.inj hreg).symm
        · exact hc' ((registered_pop_of_ne hs).trans hreg)
      rcases h.inv.closed c' hold with ⟨i, call', hi, hcall, hpc⟩ | ⟨hconn, hlock⟩
      · have hne : i ≠ id := fun heq => hi (congrArg some heq)
        exact .inl ⟨i, call', (calls_goto_of_ne _ _ _ hne _).trans hcall, hpc⟩
      · exact .inr ⟨hconn, (Function.update_of_ne heq ..).trans hlock⟩

lemma Moving.drainFrom {c : ConnId} {n : ℕ} (h : Moving cfg σ id call) (ha : Alone σ id call.server.server_id)
    (hr : σ.retiring call.server.server_id = true) (hc : σ.registered call.server.server_id = some c)
    (hd : Drains σ id c n)
    (hfull : cfg.max_in_flight_per_server ≤ n → cfg.max_in_flight_per_server ≠ 0 → ∀ t ∈ σ.slot c, t.1 = id) :
    Inv cfg none (σ.drainFrom cfg id call c n) := by
  rw [State.drainFrom]
  split
  · have hqueued : Moving cfg { σ with slot := Function.update σ.slot c (σ.slot c ++ [(id, n)]) } id call :=
      ⟨h.inv.queueSlot hc ha n, h.permit, h.unlocked⟩
    refine hqueued.goto ⟨hr, hc, ?_⟩ nofun fun _ => ha
    obtain ⟨users, hslot, husers⟩ := hd
    refine ⟨users, ?_, husers⟩
    show Function.update σ.slot c (σ.slot c ++ [(id, n)]) c = _
    rw [Function.update_self, hslot, tokens_succ, List.append_assoc]
  · rename_i hn
    exact h.unregister ha hr hc (hfull (Nat.not_lt.1 hn))

/-- The server is marked as retiring. -/
lemma Inv.mark (h : Inv cfg out σ) (server_id : Text) :
    Inv cfg out { σ with retiring := Function.update σ.retiring server_id true } := by
  refine h.spares rfl (fun i call _ _ => ?_) (fun _ _ h => h) (fun _ _ h => .inl h) (fun _ _ h => .inl h) h.owner
    fun c hc => ⟨hc, fun h => h⟩
  refine ⟨fun _ hr => ?_, fun _ h => h, fun _ h => h, fun _ h => h, fun _ h => h, fun _ _ _ h => h, fun _ h => h,
    fun _ _ h => h⟩
  show Function.update σ.retiring server_id true call.server.server_id = true
  by_cases hs : call.server.server_id = server_id
  · rw [hs, Function.update_self]
  · rwa [Function.update_of_ne hs]

lemma Moving.closeServer (h : Moving cfg σ id call) (hclean : Clean σ id) :
    Inv cfg none (σ.closeServer cfg id call) := by
  rw [State.closeServer]
  split
  · exact h.goto trivial nofun nofun
  · rename_i hidle
    have ha := h.inv.alone_of_idle (Bool.eq_false_iff.2 hidle)
    have hmark : Moving cfg { σ with retiring := Function.update σ.retiring call.server.server_id true } id call :=
      ⟨h.inv.mark _, h.permit, h.unlocked⟩
    dsimp only
    split
    · exact (hmark.endRetire ha).afterClose
    · rename_i c hc
      refine hmark.drainFrom ha (Function.update_self ..) hc ?_ fun hle hne => ?_
      · exact ⟨σ.slot c, by rw [tokens, List.range_zero, List.map_nil, List.append_nil], hclean c⟩
      · exact absurd (Nat.le_zero.1 hle) hne

lemma Moving.getEntry (h : Moving cfg σ id call) (hclean : Clean σ id) : Inv cfg none (σ.getEntry cfg id call) := by
  rw [State.getEntry]
  split
  · exact h.inv.leave
  · split
    · split
      · exact h.closeServer hclean
      · exact h.findEntry
    · exact h.findEntry

lemma Moving.opened {c : ConnId} (h : Moving cfg σ id call) (hk : call.kind ≠ .test → Holds cfg σ id call c) :
    Inv cfg none (σ.opened id call c) := by
  rw [State.opened]
  split
  · rename_i hrun
    refine h.goto ⟨hrun, hk fun htest => ?_⟩ nofun nofun
    rw [hrun] at htest
    cases htest
  · exact h.inv.leave

lemma Moving.inSlot {c : ConnId} (h : Moving cfg σ id call) (hk : Holds cfg σ id call c) :
    Inv cfg none (σ.inSlot cfg id call c) := by
  rw [State.inSlot]
  split
  · exact h.inv.leave
  · rw [State.acquire]
    split
    · exact h.opened fun _ => hk
    · exact h.connect hk.2 fun _ => hk

/-- A call leaves the connect lock it is in. -/
lemma Inv.unlock {c : ConnId} (h : Inv cfg (some id) σ)
    (hp : call.kind = .run → Fifo.Granted cfg.max_in_flight_global σ.global id)
    (hl : ∀ c', id ∈ σ.lock c' → c' = c) :
    Moving cfg { σ with lock := Function.update σ.lock c ((σ.lock c).filter (· ≠ id)) } id call := by
  refine ⟨h.releaseLock c, hp, fun c' hmem => ?_⟩
  obtain ⟨hmem, hne⟩ := mem_releaseLock hmem
  exact hne (hl c' hmem) rfl

lemma Inv.inLock {c : ConnId} {backoff : Bool} (h : Inv cfg (some id) σ)
    (hp : call.kind = .run → Fifo.Granted cfg.max_in_flight_global σ.global id)
    (hl : ∀ c', id ∈ σ.lock c' → c' = c) (hmem : id ∈ σ.lock c) (hk : call.kind ≠ .test → Holds cfg σ id call c) :
    Inv cfg none (σ.inLock cfg id call c backoff) := by
  rw [State.inLock]
  split
  · exact (h.unlock hp hl).opened hk
  · split
    · exact h.leave
    · split
      · exact h.leave
      · have hclear : Inv cfg (some id) { σ with pending := Function.update σ.pending c none } :=
          ⟨h.waits, h.permit, h.clean, h.locks, h.alone, h.owner, h.closed⟩
        exact hclear.goto ⟨hmem, hk⟩ (fun hr _ => hp hr) nofun (fun c' hc' => (hl c' hc').symm) nofun

/-! ### Every step keeps the invariant -/

lemma Inv.clean_of (h : Inv cfg none σ) (hid : ∀ call, σ.calls id = some call → call.pc = .waitGlobal) :
    Clean σ id := by
  rintro c t ht rfl
  obtain ⟨call, hc, hpc⟩ := h.clean c t ht (Option.some_ne_none t.1)
  exact hpc (hid call hc)

lemma Inv.locked (h : Inv cfg none σ) (hid : σ.calls id = some call) (c : ConnId) (hc : id ∈ σ.lock c) :
    Locks call.pc c := by
  obtain ⟨call', hc', hl⟩ := h.locks c id hc (Option.some_ne_none id)
  rw [hid] at hc'
  cases hc'
  exact hl

/-- A call that waits outside the connect locks takes a step. -/
lemma Inv.moves (h : Inv cfg none σ) (hid : σ.calls id = some call) (hl : ∀ c, ¬Locks call.pc c)
    (hp : call.kind = .run → Fifo.Granted cfg.max_in_flight_global σ.global id) : Moving cfg σ id call := by
  refine ⟨h.moving_call hid fun c hpc => hl c ?_, hp, fun c hc => hl c (h.locked hid c hc)⟩
  rw [hpc]
  rfl

/-- A call that is new takes its first step. -/
lemma Inv.starts (h : Inv cfg none σ) (call : Call) (hid : σ.calls id = none) (hk : call.kind ≠ .run) :
    Moving cfg σ id call ∧ Clean σ id := by
  refine ⟨⟨h.moving_fresh hid, fun hrun => absurd hrun hk, fun c hc => ?_⟩, h.clean_of fun call hc => ?_⟩
  · obtain ⟨call, hc', -⟩ := h.locks c id hc (Option.some_ne_none id)
    rw [hid] at hc'
    cases hc'
  · rw [hid] at hc
    cases hc

/-- The fields the invariant does not look at. -/
lemma Inv.aside (h : Inv cfg out σ) (pending : ConnId → Option HostKeyPrompt) (trust : HostKeyTrust)
    (presented : List Presented) (added : List (ConnId × TrustedHostKey)) :
    Inv cfg out { σ with pending, trust, presented, added } :=
  ⟨h.waits, h.permit, h.clean, h.locks, h.alone, h.owner, h.closed⟩

/-- Connections that were closed stay closed. -/
lemma Inv.dropped (h : Inv cfg out σ) {conn : ConnId → Option Bool}
    (hconn : ∀ c, conn c = some true → σ.conn c = some true) : Inv cfg out { σ with conn } :=
  ⟨h.waits, h.permit, h.clean, h.locks, h.alone, h.owner, fun c hc =>
    (h.closed c hc).imp (fun hclosing => hclosing) fun hrest => ⟨fun hopen => hrest.1 (hconn c hopen), hrest.2⟩⟩

lemma conn_drop {conn : ConnId → Option Bool} {c c' : ConnId} {dead : Option Bool}
    (h : Function.update conn c dead c' = some true) (hdead : dead ≠ some true) : conn c' = some true := by
  by_cases heq : c' = c
  · subst heq
    rw [Function.update_self] at h
    exact absurd h hdead
  · rwa [Function.update_of_ne heq] at h

/-- A connection is opened by a call in its connect lock. -/
lemma Inv.opens {c : ConnId} (h : Inv cfg (some id) σ) (hmem : id ∈ σ.lock c) :
    Inv cfg (some id) { σ with conn := Function.update σ.conn c (some true) } := by
  refine ⟨h.waits, h.permit, h.clean, h.locks, h.alone, h.owner, fun c' hc' => ?_⟩
  rcases h.closed c' hc' with hclosing | ⟨hconn, hlock⟩
  · exact .inl hclosing
  · have hne : c' ≠ c := by
      rintro rfl
      rw [hlock] at hmem
      exact absurd hmem List.not_mem_nil
    exact .inr ⟨fun hopen => hconn ((Function.update_of_ne hne ..).symm.trans hopen), hlock⟩

/-- The retiring call is first in the queue for the connect lock of the connection it unregistered, and
nobody is behind it. -/
lemma Inv.closes {c : ConnId} (h : Inv cfg none σ) (hid : σ.calls id = some call) (hpc : call.pc = .closeLock c)
    (hg : Fifo.Granted 1 (σ.lock c) id) :
    Moving cfg { σ with
      conn := Function.update σ.conn c none
      lock := Function.update σ.lock c ((σ.lock c).filter (· ≠ id)) } id call := by
  have hw := h.waits id call (Option.some_ne_none id) hid
  rw [Waits, hpc] at hw
  obtain ⟨openers, hlock, hnot⟩ := hw.2.2
  have hlock : σ.lock c = [id] := by
    cases openers with
    | nil => exact hlock
    | cons i openers =>
      rw [hlock] at hg
      exact absurd (List.mem_singleton.1 hg ▸ List.mem_cons_self) hnot
  have hlocks := h.locked hid
  rw [hpc] at hlocks
  refine ⟨⟨fun i call' hi hc => ?_, fun i call' _ => h.permit i call' (Option.some_ne_none i),
    fun c' t ht _ => h.clean c' t ht (Option.some_ne_none t.1), fun c' i hi _ => ?_,
    fun i j call₁ call₂ _ _ => h.alone i j call₁ call₂ (Option.some_ne_none i) (Option.some_ne_none j), h.owner,
    fun c' hc' => ?_⟩, fun hr => ?_, fun c' hmem => ?_⟩
  · have hne : i ≠ id := fun heq => hi (congrArg some heq)
    have hkept := (h.waits i call' (Option.some_ne_none i) hc).spares (spares_releaseLock hne call' c)
    exact hkept
  · exact h.locks c' i (mem_releaseLock hi).1 (Option.some_ne_none i)
  · by_cases heq : c' = c
    · subst heq
      refine .inr ⟨fun hopen => ?_, ?_⟩
      · exact nomatch (Function.update_self ..).symm.trans hopen
      · show Function.update σ.lock c' ((σ.lock c').filter (· ≠ id)) c' = []
        rw [Function.update_self, hlock]
        exact List.filter_eq_nil_iff.2 fun t ht => by simpa using List.mem_singleton.1 ht
    · rcases h.closed c' hc' with ⟨i, call', -, hi, hclosing⟩ | ⟨hconn, hlock'⟩
      · refine .inl ⟨i, call', fun hout => ?_, hi, hclosing⟩
        cases hout
        rw [hid] at hi
        cases hi
        rw [hpc] at hclosing
        exact heq (Pc.closeLock.inj hclosing).symm
      · refine .inr ⟨fun hopen => hconn ((Function.update_of_ne heq ..).symm.trans hopen), ?_⟩
        exact (Function.update_of_ne heq ..).trans hlock'
  · exact h.permit id call (Option.some_ne_none id) hid hr (hpc ▸ nofun)
  · obtain ⟨hmem, hne⟩ := mem_releaseLock hmem
    exact hne (hlocks c' hmem).symm rfl

lemma Inv.queued (h : Inv cfg none σ) (hid : σ.calls id = none) (kind : Kind) (server : ServerRecord) :
    Inv cfg none ({ σ with global := σ.global ++ [id] }.goto id ⟨kind, server, .waitGlobal⟩ .waitGlobal) := by
  obtain ⟨⟨hinv, -, hunlocked⟩, hclean⟩ := h.starts ⟨.test, server, .waitGlobal⟩ hid nofun
  have hjoined : Inv cfg (some id) { σ with global := σ.global ++ [id] } := by
    refine hinv.spares rfl (fun i call _ _ => ?_) (fun i _ hg => hg.append [id]) (fun _ _ h => .inl h)
      (fun _ _ h => .inl h) hinv.owner fun c hc => ⟨hc, fun h => h⟩
    exact ⟨fun _ h => h, fun _ h => h, fun _ h => h, fun _ h => h, fun _ h => h, fun _ _ _ h => h, fun _ h => h,
      fun _ _ h => h⟩
  exact hjoined.goto trivial (fun _ hne => absurd rfl hne) (fun _ => hclean) (fun c hc => absurd hc (hunlocked c)) nofun

/-- Every step keeps the invariant. -/
theorem Inv.step {e : Event} (h : Inv cfg none σ) (hs : Step cfg σ e σ') : Inv cfg none σ' := by
  have hpermit : ∀ {id call}, σ.calls id = some call → call.pc ≠ .waitGlobal → call.kind = .run →
      Fifo.Granted cfg.max_in_flight_global σ.global id :=
    fun {id call} hid hpc hr => h.permit id call (Option.some_ne_none id) hid hr hpc
  have hwaits : ∀ {id call}, σ.calls id = some call → Waits cfg σ id call :=
    fun {id call} hid => h.waits id call (Option.some_ne_none id) hid
  cases hs with
  | rejected => exact h
  | queued hid => exact h.queued hid _ _
  | @test id server b hid =>
    obtain ⟨hm, hclean⟩ := h.starts ⟨.test, server, .waitGlobal⟩ hid nofun
    exact hm.getEntry hclean
  | @close id server b hid =>
    obtain ⟨hm, hclean⟩ := h.starts ⟨.close, server, .waitGlobal⟩ hid nofun
    exact hm.closeServer hclean
  | untrusted => exact h
  | @trusted id server prompt c pending entry hid =>
    obtain ⟨hm, hclean⟩ := (h.aside (Function.update σ.pending c none) (σ.trust.add cfg.casefold entry) σ.presented
      ((c, HostKeyTrust.normalized cfg.casefold entry) :: σ.added)).starts ⟨.test, server, .waitGlobal⟩ hid nofun
    exact hm.getEntry hclean
  | gotGlobal hid hpc hg =>
    refine (h.moves hid (hpc ▸ fun _ hl => hl) fun _ => hg).getEntry (h.clean_of fun call' hc => ?_)
    rw [hid] at hc
    cases hc
    exact hpc
  | retired hid hpc => exact (h.moves hid (hpc ▸ fun _ hl => hl) (hpermit hid (hpc ▸ nofun))).afterClose
  | drained hid hpc hg =>
    have hw := hwaits hid
    rw [Waits, hpc] at hw
    have hm := h.moves hid (hpc ▸ fun _ hl => hl) (hpermit hid (hpc ▸ nofun))
    have ha := h.alone_of_retires hid (hpc ▸ trivial)
    exact hm.drainFrom ha hw.1 hw.2.1 hw.2.2 fun hle _ => hw.2.2.alone hle hg
  | closing hid hpc hg =>
    have hw := hwaits hid
    rw [Waits, hpc] at hw
    have hm := h.closes hid hpc hg
    have ha := h.alone_of_retires hid (hpc ▸ trivial)
    exact Moving.goto ⟨hm.inv.aside _ _ _ _, hm.permit, hm.unlocked⟩ hw.1 nofun fun _ => ha
  | closed hid hpc =>
    have hm := h.moves hid (hpc ▸ fun _ hl => hl) (hpermit hid (hpc ▸ nofun))
    exact (hm.endRetire (h.alone_of_retires hid (hpc ▸ trivial))).afterClose
  | gotSlot hid hpc hg =>
    have hw := hwaits hid
    rw [Waits, hpc] at hw
    have hm := h.moves hid (hpc ▸ fun _ hl => hl) (hpermit hid (hpc ▸ nofun))
    exact hm.inSlot ⟨hg, hw.2 hg.ne_zero⟩
  | gotLock hid hpc hg =>
    have hw := hwaits hid
    rw [Waits, hpc] at hw
    have hl := h.locked hid
    rw [hpc] at hl
    exact (h.moving_call hid (hpc ▸ nofun)).inLock (hpermit hid (hpc ▸ nofun)) (fun c' hc' => (hl c' hc').symm) hw.1
      hw.2
  | judged hid hpc =>
    have hw := hwaits hid
    rw [Waits, hpc] at hw
    have hl := h.locked hid
    rw [hpc] at hl
    exact ((h.moving_call hid (hpc ▸ nofun)).aside _ _ _ _).goto hw (fun hr _ => hpermit hid (hpc ▸ nofun) hr) nofun
      hl nofun
  | connected hid hpc =>
    have hw := hwaits hid
    rw [Waits, hpc] at hw
    have hl := h.locked hid
    rw [hpc] at hl
    have hopen := (h.moving_call hid (hpc ▸ nofun)).opens hw.1
    exact (hopen.unlock (hpermit hid (hpc ▸ nofun)) fun c' hc' => (hl c' hc').symm).opened hw.2
  | refused hid hpc => exact ((h.moving_call hid (hpc ▸ nofun)).aside _ _ _ _).leave
  | failed hid hpc => exact (h.moving_call hid (hpc ▸ nofun)).leave
  | done hid hpc dropped =>
    refine ((h.moving_call hid (hpc ▸ nofun)).dropped fun c' hopen => ?_).leave
    split at hopen
    · exact conn_drop hopen nofun
    · exact hopen
  | @died c =>
    refine h.dropped fun c' hopen => conn_drop hopen fun hdead => ?_
    obtain ⟨_, -, hfalse⟩ := Option.map_eq_some_iff.1 hdead
    cases hfalse
  | unknown => exact h
  | lost => exact h.dropped fun c' hopen => conn_drop hopen nofun
  | @cancelledRetiring id call c hid hpc =>
    obtain ⟨hl, hg, hr⟩ : (∀ c, ¬Locks call.pc c) ∧ call.pc ≠ .waitGlobal ∧ Retires call.pc := by
      rcases hpc with ⟨k, hpc⟩ | hpc
      · rw [hpc]
        exact ⟨fun _ hl => hl, nofun, trivial⟩
      · rw [hpc]
        exact ⟨fun _ hl => hl, nofun, trivial⟩
    exact ((h.moves hid hl (hpermit hid hg)).endRetire (h.alone_of_retires hid hr)).inv.leave
  | cancelled hid hd hl => exact (h.moving_call hid hl).leave

lemma Reachable.inv {admitted : State → Event → Prop} (h : Reachable cfg admitted σ) : Inv cfg none σ := by
  induction h with
  | init trust =>
    exact ⟨fun _ _ _ h => (nomatch h), fun _ _ _ h => (nomatch h), fun _ _ h => absurd h List.not_mem_nil,
      fun _ _ h => absurd h List.not_mem_nil, fun _ _ _ _ _ _ h => (nomatch h), fun _ _ h => (nomatch h),
      fun _ _ => .inr ⟨nofun, rfl⟩⟩
  | step _ _ he ih => exact ih.step (step_of_next he)

/-! ### The discipline -/

/-- The call runs a command for the server. -/
def Commands (σ : State) (server_id : Text) (id : CallId) : Prop :=
  ∃ call c, σ.calls id = some call ∧ call.pc = .command c ∧ call.server.server_id = server_id

lemma Inv.command {c : ConnId} (h : Inv cfg none σ) (hid : σ.calls id = some call) (hpc : call.pc = .command c) :
    call.kind = .run ∧ Holds cfg σ id call c := by
  have hw := h.waits id call (Option.some_ne_none id) hid
  rwa [Waits, hpc] at hw

/-- The commands of a server have permits of one slot. -/
lemma Inv.commands_le (h : Inv cfg none σ) {server_id : Text} {ids : List CallId} (hnodup : ids.Nodup)
    (hids : ∀ i ∈ ids, Commands σ server_id i) : ids.length ≤ cfg.max_in_flight_per_server := by
  cases hreg : σ.registered server_id with
  | none =>
    cases ids with
    | nil => exact Nat.zero_le _
    | cons i ids =>
      obtain ⟨call, c, hi, hpc, rfl⟩ := hids i List.mem_cons_self
      exact nomatch hreg.symm.trans (h.command hi hpc).2.2
  | some c =>
    have hlen : (ids.map fun i => (i, 0)).length ≤ cfg.max_in_flight_per_server := by
      refine Fifo.length_le_of_granted (q := σ.slot c) (hnodup.map fun i j heq => (Prod.mk.inj heq).1) fun t ht => ?_
      obtain ⟨i, hi, rfl⟩ := List.mem_map.1 ht
      obtain ⟨call, c', hi, hpc, rfl⟩ := hids i hi
      have hholds := (h.command hi hpc).2
      rw [Option.some.inj (hreg.symm.trans hholds.2)]
      exact hholds.1
    rwa [List.length_map] at hlen

structure Disciplined (cfg : Config) (σ : State) : Prop where
  /-- A command runs on the connection that is registered for its server. -/
  registered : ∀ id call c, σ.calls id = some call → call.pc = .command c →
    σ.registered call.server.server_id = some c
  per_server : ∀ server_id (ids : List CallId), ids.Nodup → (∀ i ∈ ids, Commands σ server_id i) →
    ids.length ≤ cfg.max_in_flight_per_server
  global : ∀ ids : List CallId, ids.Nodup → (∀ i ∈ ids, ∃ server_id, Commands σ server_id i) →
    ids.length ≤ cfg.max_in_flight_global
  /-- While nothing is in progress, what is open is registered. -/
  quiescent : (∀ id, σ.calls id = none) → ∀ c, σ.conn c = some true → σ.registered (σ.owner c) = some c

/-- Over all interleavings, no command starts on a retired connection, the bounds on the commands hold, and
nothing is left open that nobody can close. -/
theorem retire_discipline (cfg : Config) (σ : State) (h : Reachable cfg (fun _ _ => True) σ) :
    Disciplined cfg σ where
  registered _ _ _ hid hpc := (h.inv.command hid hpc).2.2
  per_server _ _ hnodup hids := h.inv.commands_le hnodup hids
  global ids hnodup hids := by
    refine Fifo.length_le_of_granted (q := σ.global) hnodup fun i hi => ?_
    obtain ⟨server_id, call, c, hid, hpc, -⟩ := hids i hi
    exact h.inv.permit i call (Option.some_ne_none i) hid (h.inv.command hid hpc).1 (hpc ▸ nofun)
  quiescent hnone c hopen := by
    by_contra hreg
    rcases h.inv.closed c hreg with ⟨i, call, -, hi, -⟩ | ⟨hconn, -⟩
    · exact nomatch (hnone i).symm.trans hi
    · exact hconn hopen

/-- A command runs while the identity of its server changes and another command queues behind the retirement. -/
def retireRun : List Event :=
  let server := { server_id := ['s'], ssh_host := "gpu".toList }
  let moved := { server_id := ['s'], ssh_host := "gpu2".toList }
  [.start 0 .run server false, .resume 0 false, .resume 0 false, .resume 0 false, .ended 0 .connected,
    .start 1 .run moved false, .resume 1 false, .resume 1 false, .start 2 .acquire server false, .resume 2 false]

theorem retire_discipline_moved :
    ∃ σ, Reachable (plainConfig 8 2) (fun _ _ => True) σ ∧ (σ.calls 0).map Call.pc = some (.command 0) ∧
      (σ.calls 1).map Call.pc = some (.drain 0 1) ∧ Disciplined (plainConfig 8 2) σ := by
  obtain ⟨σ, hσ, hcommand, hdrain⟩ : ∃ σ, State.run (plainConfig 8 2) { trust := {} } retireRun = some σ ∧
    (σ.calls 0).map Call.pc = some (.command 0) ∧ (σ.calls 1).map Call.pc = some (.drain 0 1) := ⟨_, rfl, rfl, rfl⟩
  have hr := (Reachable.init {}).run (fun _ _ _ => trivial) hσ
  exact ⟨σ, hr, hcommand, hdrain, retire_discipline _ σ hr⟩

end SshGpuConsole.Ssh.Manager
