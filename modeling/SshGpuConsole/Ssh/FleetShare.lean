import SshGpuConsole.Ssh.Quiet

/-!
# The share of a server in the global permits

A call takes its global permit before it asks for the slot of its server, so the calls that wait for a slow
server sit on global permits.
-/

namespace SshGpuConsole.Ssh.Manager
open Shell (Text)

variable {cfg : Config} {σ σ' : State} {e : Event}

/-- The call is one for the server. -/
def State.callFor (σ : State) (server_id : Text) (id : CallId) : Bool :=
  (σ.calls id).any fun call => call.server.server_id = server_id

/-- No server's calls hold more global permits than the server has slots. -/
def FairShare (cfg : Config) (σ : State) : Prop :=
  ∀ server_id (ids : List CallId), ids.Nodup →
    (∀ i ∈ ids, Fifo.Granted cfg.max_in_flight_global σ.global i ∧ σ.callFor server_id i = true) →
    ids.length ≤ cfg.max_in_flight_per_server

/-- No call waits for a global permit while all of them are with the calls of one other server. -/
def Unstarved (cfg : Config) (σ : State) : Prop :=
  ∀ i call, σ.calls i = some call → call.pc = .waitGlobal →
    ¬Fifo.Granted cfg.max_in_flight_global σ.global i → ∀ server_id, server_id ≠ call.server.server_id →
      ∃ j, Fifo.Granted cfg.max_in_flight_global σ.global j ∧ σ.callFor server_id j = false

lemma callFor_iff {server_id : Text} {id : CallId} :
    σ.callFor server_id id = true ↔ ∃ call, σ.calls id = some call ∧ call.server.server_id = server_id := by
  rw [State.callFor, Option.any_eq_true]
  exact exists_congr fun call => and_congr_right fun _ => decide_eq_true_iff

/-! ### The queue for the global permits -/

/-- A step at which nobody joins the queue. -/
structure Aside (σ σ' : State) : Prop where
  global : σ'.global.Sublist σ.global
  waits : ∀ i call, σ'.calls i = some call → call.pc = .waitGlobal →
    σ.calls i = some call ∧ (i ∈ σ.global → i ∈ σ'.global)
  keeps : ∀ i ∈ σ'.global, ∀ call, σ.calls i = some call → ∃ call', σ'.calls i = some call'
  servers : ∀ i call call', σ.calls i = some call → σ'.calls i = some call' → call'.server = call.server

lemma QuietStep.aside (h : QuietStep σ σ') : Aside σ σ' := by
  obtain ⟨id, server, hq, hserver⟩ := h
  refine ⟨hq.global, fun i call hc hpc => ?_, hq.keeps, fun i call call' hc hc' => ?_⟩
  · rcases hq.calls i call hc with hc' | ⟨-, -, hp⟩
    · exact ⟨hc', hq.waits i call hc hpc⟩
    · rw [hpc] at hp
      exact hp.elim
  · rcases hq.calls i call' hc' with hsame | ⟨rfl, hs, -⟩
    · rw [hc] at hsame
      cases hsame
      rfl
    · rw [hs, hserver call hc]

/-- A step at which nobody joins the queue, behind changes of other fields. -/
lemma Aside.behind {σ₁ : State} (h : Aside σ₁ σ') (hc : σ₁.calls = σ.calls) (hg : σ₁.global = σ.global) :
    Aside σ σ' where
  global := hg ▸ h.global
  waits := by
    rw [← hc, ← hg]
    exact h.waits
  keeps := by
    rw [← hc]
    exact h.keeps
  servers := by
    rw [← hc]
    exact h.servers

/-- A judged key leaves the queue alone. -/
lemma aside_judged {id : CallId} {call : Call} (hid : σ.calls id = some call) (presented : List Presented)
    (c : ConnId) (params : ConnectParams) (answer : Option (Except ConnectError Unit)) :
    Aside σ ({ σ with presented }.goto id call (.handshake c params answer)) where
  global := List.Sublist.refl _
  waits i call' hc hpc := by
    by_cases hi : i = id
    · subst hi
      rw [calls_goto] at hc
      cases hc
      cases hpc
    · rw [calls_goto_of_ne _ _ _ hi] at hc
      exact ⟨hc, fun h => h⟩
  keeps i _ call' hc := by
    by_cases hi : i = id
    · subst hi
      exact ⟨_, calls_goto ..⟩
    · exact ⟨call', (calls_goto_of_ne _ _ _ hi _).trans hc⟩
  servers i call₁ call₂ h₁ h₂ := by
    by_cases hi : i = id
    · subst hi
      rw [calls_goto] at h₂
      cases h₂
      rw [hid] at h₁
      cases h₁
      rfl
    · rw [calls_goto_of_ne _ _ _ hi] at h₂
      rw [Option.some.inj (h₁.symm.trans h₂)]

/-- At a step a call joins the queue, or nobody does. -/
lemma Step.aside_or_queued (hs : Step cfg σ e σ') : Aside σ σ' ∨
    ∃ id kind server, e = .start id kind server false ∧ (kind = .run ∨ kind = .acquire) ∧ σ.calls id = none ∧
      σ' = { σ with global := σ.global ++ [id] }.goto id ⟨kind, server, .waitGlobal⟩ .waitGlobal := by
  rcases hs.quiet_or_loud with hq | hl
  · exact .inl hq.aside
  · cases hl with
    | queued hid hk => exact .inr ⟨_, _, _, rfl, hk, hid, rfl⟩
    | trusted hid =>
      refine .inl (Aside.behind (QuietStep.aside (Quiet.fresh ?_ quiet_getEntry)) rfl rfl)
      exact hid
    | judged hid => exact .inl (aside_judged hid _ _ _ _)
    | @refused id call c params e hid =>
      have hq : QuietStep { σ with pending := Function.update σ.pending c e.pending_host_key } _ :=
        Quiet.resumed hid quiet_leave
      exact .inl (hq.aside.behind rfl rfl)

/-- Who waits is in the queue, and who is in the queue is a call. -/
structure Queue (σ : State) : Prop where
  nodup : σ.global.Nodup
  waits : ∀ i call, σ.calls i = some call → call.pc = .waitGlobal → i ∈ σ.global
  calls : ∀ i ∈ σ.global, ∃ call, σ.calls i = some call

lemma Queue.aside (h : Queue σ) (ha : Aside σ σ') : Queue σ' where
  nodup := ha.global.nodup h.nodup
  waits i call hc hpc := by
    obtain ⟨hc', hkeep⟩ := ha.waits i call hc hpc
    exact hkeep (h.waits i call hc' hpc)
  calls i hi := by
    obtain ⟨call, hc⟩ := h.calls i (ha.global.subset hi)
    exact ha.keeps i hi call hc

lemma Queue.queued {id : CallId} (h : Queue σ) (hid : σ.calls id = none) (kind : Kind) (server : ServerRecord) :
    Queue ({ σ with global := σ.global ++ [id] }.goto id ⟨kind, server, .waitGlobal⟩ .waitGlobal) where
  nodup := by
    have hnew : id ∉ σ.global := by
      intro hmem
      obtain ⟨call, hc⟩ := h.calls id hmem
      rw [hid] at hc
      cases hc
    exact List.nodup_append.2 ⟨h.nodup, List.nodup_singleton id, fun i hi j hj heq =>
      hnew (List.mem_singleton.1 hj ▸ heq ▸ hi)⟩
  waits i call hc hpc := by
    by_cases hi : i = id
    · subst hi
      exact List.mem_append_right _ (List.mem_singleton_self i)
    · rw [calls_goto_of_ne _ _ _ hi] at hc
      exact List.mem_append_left _ (h.waits i call hc hpc)
  calls i hmem := by
    by_cases hi : i = id
    · subst hi
      exact ⟨_, calls_goto ..⟩
    · rw [calls_goto_of_ne _ _ _ hi]
      have hmem : i ∈ σ.global := (List.mem_append.1 hmem).resolve_right fun h => hi (List.mem_singleton.1 h)
      exact h.calls i hmem

lemma Reachable.queue {admitted : State → Event → Prop} (h : Reachable cfg admitted σ) : Queue σ := by
  induction h with
  | init trust => exact ⟨List.nodup_nil, fun _ _ h => (nomatch h), fun _ h => absurd h List.not_mem_nil⟩
  | step _ _ he ih =>
    rcases (step_of_next he).aside_or_queued with ha | ⟨id, kind, server, -, -, hid, rfl⟩
    · exact ih.aside ha
    · exact ih.queued hid kind server

/-! ### Throttled runs -/

/-- How many calls of a server have a global permit or wait for one. -/
def State.share (σ : State) (server_id : Text) : ℕ := σ.global.countP (σ.callFor server_id)

/-- A command or a connection is only asked for while the server has fewer calls in the queue than slots. -/
def Throttled (cfg : Config) (σ : State) : Event → Prop
  | .start _ kind server _ => kind = .run ∨ kind = .acquire → σ.share server.server_id < cfg.max_in_flight_per_server
  | _ => True

lemma share_aside (hq : Queue σ) (ha : Aside σ σ') (server_id : Text) : σ'.share server_id ≤ σ.share server_id := by
  have hmono : σ'.share server_id ≤ σ'.global.countP (σ.callFor server_id) := by
    apply List.countP_mono_left
    intro i hi hfor
    obtain ⟨call', hc', hs⟩ := callFor_iff.1 hfor
    obtain ⟨call, hc⟩ := hq.calls i (ha.global.subset hi)
    exact callFor_iff.2 ⟨call, hc, by rw [← ha.servers i call call' hc hc', hs]⟩
  exact hmono.trans ha.global.countP_le

/-- Who joins the queue counts for its own server. -/
lemma share_queued {id : CallId} (hq : Queue σ) (hid : σ.calls id = none) (kind : Kind) (server : ServerRecord)
    (server_id : Text) :
    State.share ({ σ with global := σ.global ++ [id] }.goto id ⟨kind, server, .waitGlobal⟩ .waitGlobal) server_id =
      σ.share server_id + if server.server_id = server_id then 1 else 0 := by
  have hothers : ∀ i ∈ σ.global, State.callFor ({ σ with global := σ.global ++ [id] }.goto id
      ⟨kind, server, .waitGlobal⟩ .waitGlobal) server_id i = σ.callFor server_id i := by
    intro i hi
    have hne : i ≠ id := by
      rintro rfl
      obtain ⟨call, hc⟩ := hq.calls i hi
      rw [hid] at hc
      cases hc
    rw [State.callFor, calls_goto_of_ne _ _ _ hne]
    rfl
  have hself : State.callFor ({ σ with global := σ.global ++ [id] }.goto id ⟨kind, server, .waitGlobal⟩
      .waitGlobal) server_id id = decide (server.server_id = server_id) := by
    rw [State.callFor, calls_goto]
    rfl
  have hcount := List.countP_congr fun i hi => iff_of_eq (congrArg (· = true) (hothers i hi))
  show (σ.global ++ [id]).countP _ = _
  rw [List.countP_append, hcount, List.countP_singleton, hself, State.share]
  simp only [decide_eq_true_eq]

/-- A throttled step keeps every share within the slots. -/
lemma share_step (hq : Queue σ) (h : ∀ server_id, σ.share server_id ≤ cfg.max_in_flight_per_server)
    (ht : Throttled cfg σ e) (hs : Step cfg σ e σ') (server_id : Text) :
    σ'.share server_id ≤ cfg.max_in_flight_per_server := by
  rcases hs.aside_or_queued with ha | ⟨id, kind, server, rfl, hk, hid, rfl⟩
  · exact (share_aside hq ha server_id).trans (h server_id)
  · have hroom := ht hk
    rw [share_queued hq hid]
    split
    · rename_i heq
      rw [← heq]
      exact hroom
    · exact h server_id

lemma Reachable.share (h : Reachable cfg (Throttled cfg) σ) (server_id : Text) :
    σ.share server_id ≤ cfg.max_in_flight_per_server := by
  induction h generalizing server_id with
  | init trust => exact Nat.zero_le _
  | step h ht he ih => exact share_step h.queue ih ht (step_of_next he) server_id

/-- A server with no more calls in the queue than slots has its share. -/
lemma fairShare_of_share (h : ∀ server_id, σ.share server_id ≤ cfg.max_in_flight_per_server) : FairShare cfg σ := by
  intro server_id ids hnodup hids
  have hsub : ids ⊆ σ.global.filter (σ.callFor server_id) := fun i hi =>
    List.mem_filter.2 ⟨(hids i hi).1.mem, (hids i hi).2⟩
  have hlen := (hnodup.subperm hsub).length_le
  rw [← List.countP_eq_length_filter] at hlen
  exact hlen.trans (h server_id)

/-- When the shares are fair and smaller than the permits, one server's calls cannot fill them. -/
lemma FairShare.unstarved (h : FairShare cfg σ) (hq : Queue σ)
    (hlt : cfg.max_in_flight_per_server < cfg.max_in_flight_global) : Unstarved cfg σ := by
  intro i call hc hpc hwait server_id hne
  by_contra hnone
  have hall : ∀ j, Fifo.Granted cfg.max_in_flight_global σ.global j → ¬σ.callFor server_id j = false :=
    fun j hj hfor => hnone ⟨j, hj, hfor⟩
  have hfull := Fifo.length_take_of_waiting (hq.waits i call hc hpc) hwait
  have hle := h server_id (σ.global.take cfg.max_in_flight_global) (hq.nodup.sublist (List.take_sublist _ _))
    fun j hj => ⟨hj, Bool.of_not_eq_false (hall j hj)⟩
  omega

/-! ### A slow server -/

/-- Calls that start and go no further hold the permits there are. -/
lemma reachable_starts (cfg : Config) (server : ServerRecord) (n : ℕ) : ∃ σ, Reachable cfg (fun _ _ => True) σ ∧
    σ.global = List.range n ∧ (∀ i < n, σ.calls i = some ⟨.run, server, .waitGlobal⟩) ∧
    ∀ i, n ≤ i → σ.calls i = none := by
  induction n with
  | zero => exact ⟨_, .init {}, rfl, fun i hi => absurd hi (Nat.not_lt_zero i), fun _ _ => rfl⟩
  | succ n ih =>
    obtain ⟨σ, hr, hg, hin, hout⟩ := ih
    have hnext : σ.next cfg (.start n .run server false) =
        some ({ σ with global := σ.global ++ [n] }.goto n ⟨.run, server, .waitGlobal⟩ .waitGlobal) := by
      simp only [State.next, hout n le_rfl, Option.isSome_none, Bool.false_eq_true, if_false]
    refine ⟨_, hr.step trivial hnext, ?_, fun i hi => ?_, fun i hi => ?_⟩
    · show σ.global ++ [n] = _
      rw [hg, List.range_succ]
    · rcases Nat.lt_succ_iff_lt_or_eq.1 hi with hi | rfl
      · exact (calls_goto_of_ne _ _ _ hi.ne _).trans (hin i hi)
      · exact calls_goto ..
    · exact (calls_goto_of_ne _ _ _ (Nat.ne_of_gt hi) _).trans (hout i (Nat.le_of_succ_le hi))

/-- The calls of one server can have more global permits than the server has slots, when there are more. -/
lemma le_of_fairShare (h : ∀ σ, Reachable cfg (fun _ _ => True) σ → FairShare cfg σ) :
    cfg.max_in_flight_global ≤ cfg.max_in_flight_per_server := by
  obtain ⟨σ, hr, hg, hin, -⟩ := reachable_starts cfg ⟨[], [], none, none⟩ cfg.max_in_flight_global
  have hle := h σ hr [] (List.range cfg.max_in_flight_global) List.nodup_range fun i hi => ?_
  · rwa [List.length_range] at hle
  · have hlt := List.mem_range.1 hi
    refine ⟨?_, callFor_iff.2 ⟨_, hin i hlt, rfl⟩⟩
    rwa [hg, Fifo.Granted, List.take_of_length_le List.length_range.le]

/-- The shares of all runs are fair exactly when there are no more global permits than slots for each server;
with more of them the shares are fair, and nobody starves, in the runs that are throttled. -/
theorem fair_share_iff (cfg : Config) :
    ((∀ σ, Reachable cfg (fun _ _ => True) σ → FairShare cfg σ ∧
        (cfg.max_in_flight_per_server < cfg.max_in_flight_global → Unstarved cfg σ)) ↔
      cfg.max_in_flight_global ≤ cfg.max_in_flight_per_server) ∧
    ∀ σ, Reachable cfg (Throttled cfg) σ → FairShare cfg σ ∧
      (cfg.max_in_flight_per_server < cfg.max_in_flight_global → Unstarved cfg σ) := by
  refine ⟨⟨fun h => le_of_fairShare fun σ hr => (h σ hr).1, fun hle σ _ => ⟨?_, fun hlt => ?_⟩⟩, fun σ hr => ?_⟩
  · intro server_id ids hnodup hids
    exact (Fifo.length_le_of_granted hnodup fun i hi => (hids i hi).1).trans hle
  · exact absurd hlt (Nat.not_lt.2 hle)
  · have hfair := fairShare_of_share hr.share
    exact ⟨hfair, hfair.unstarved hr.queue⟩

/-- Eight commands for a server that answers none of them, and one for another server. -/
def slowRun : List Event :=
  let slow := { server_id := ['s'], ssh_host := "slow".toList }
  let other := { server_id := ['o'], ssh_host := "other".toList }
  [.start 0 .run slow false, .resume 0 false, .resume 0 false, .resume 0 false, .ended 0 .connected] ++
    ((List.range 7).flatMap fun i => [.start (i + 1) .run slow false, .resume (i + 1) false]) ++
    [.resume 1 false, .start 8 .run other false]

/-- With the default settings the commands of one slow server make those of the others wait. -/
theorem slow_server_starves :
    ¬∀ σ, Reachable (plainConfig 8 2) (fun _ _ => True) σ → FairShare (plainConfig 8 2) σ ∧
      (2 < 8 → Unstarved (plainConfig 8 2) σ) := by
  intro h
  obtain ⟨σ, hσ, hglobal, hslow, hwait, hserver⟩ :
      ∃ σ, State.run (plainConfig 8 2) { trust := {} } slowRun = some σ ∧ σ.global = List.range 9 ∧
        (List.range 8).all (σ.callFor ['s']) = true ∧ (σ.calls 8).map Call.pc = some .waitGlobal ∧
        (σ.calls 8).map (fun call => call.server.server_id) = some ['o'] := ⟨_, rfl, rfl, rfl, rfl, rfl⟩
  obtain ⟨call, hcall, hpc⟩ := Option.map_eq_some_iff.1 hwait
  rw [hcall] at hserver
  have hr := (Reachable.init {}).run (fun _ _ _ => trivial) hσ
  have hserver : call.server.server_id = ['o'] := Option.some.inj hserver
  have hstarved := (h σ hr).2 (by decide) 8 call hcall hpc (by rw [hglobal]; decide) ['s'] (by rw [hserver]; decide)
  obtain ⟨j, hj, hother⟩ := hstarved
  rw [hglobal] at hj
  have hfor := List.all_eq_true.1 hslow j hj
  rw [hother] at hfor
  cases hfor

end SshGpuConsole.Ssh.Manager
