import SshGpuConsole.Transfer.Wakeups

/-!
# Deadlocks

A worker takes a slot of its source before one of its target, so workers can wait for each other in a circle. They do
not where there are fewer permits of the service than two servers have slots, and not where there are at most two of
them (`no_deadlock`); with three, and one slot a server, they can (`bothWays`).
-/

namespace SshGpuConsole.Transfers
open Shell (Text)
open Batch (TransferState)
open Workspace (TransferStrategy)

/-- The worker waits for a slot of a server. -/
def Phase.queues : Phase → Bool
  | .slot p => p ≠ .overall
  | _ => false

/-- The worker may come to wait for a slot as soon as it is resumed. -/
def Phase.plans : Phase → Bool
  | .planning | .preflight => true
  | _ => false

lemma Phase.queues_of_awaits {phase : Phase} (h : phase.awaits = true) : phase.queues = false := by
  cases phase with
  | slot p => cases h
  | _ => rfl

namespace Service
variable {settings : Settings} {σ : Service} {j k : ℕ} {p : Permit} {resource : Resource} {exempt : Option ℕ}
  {held : Permit → Bool}

/-! ### What a worker leaves to the others -/

lemma phase_wakeNext (σ : Service) (resource : Resource) (k : ℕ) :
    ((σ.wakeNext resource).worker k).phase = (σ.worker k).phase := by
  rcases wakeNext_cases σ resource with heq | ⟨i, q, -, -, -, -, -, -, heq⟩
  · rw [heq]
  · rw [heq]
    exact phase_take σ i q k

lemma phase_wakeAll (resource : Resource) (n : ℕ) (σ : Service) (k : ℕ) :
    ((Service.wakeAll resource n σ).worker k).phase = (σ.worker k).phase := by
  induction n generalizing σ with
  | zero => rfl
  | succ n ih => exact (ih _).trans (phase_wakeNext σ resource k)

lemma phase_park (σ : Service) (j : ℕ) (p : Permit) : ((σ.park j p).worker j).phase = .slot p := by
  show (Function.update σ.worker j _ j).phase = _
  rw [Function.update_self]

/-- A worker moves nobody but itself, and waits for a slot only where it takes one. -/
lemma Stretch.moves {σ' : Service} {stage : Stage} (h : Stretch settings j stage held σ σ') :
    (∀ k, k ≠ j → (σ'.worker k).phase = (σ.worker k).phase) ∧ ((σ'.worker j).phase.queues = true → stage = .taking) := by
  induction h with
  | transition state _ ih => exact ih
  | assign strategy _ ih => exact ih
  | record _ ih => exact ih
  | take p _ _ _ ih => exact ⟨fun k hk => (ih.1 k hk).trans (phase_take _ j p k), ih.2⟩
  | @park stage σ p htakes _ =>
    refine ⟨fun k hk => congrArg Worker.phase (Function.update_of_ne hk _ _), fun hq => ?_⟩
    rw [phase_park] at hq
    cases stage with
    | taking => rfl
    | entering => exact absurd (of_decide_eq_true htakes) (of_decide_eq_true hq)
    | leaving => cases htakes
  | leave _ ih => exact ⟨ih.1, fun hq => nomatch ih.2 hq⟩
  | release p _ ih =>
    refine ⟨fun k hk => (ih.1 k hk).trans ?_, ih.2⟩
    unfold Service.release
    rw [phase_wakeNext, phase_giveBack]
  | suspend phase hphase =>
    refine ⟨fun k hk => congrArg Worker.phase (Function.update_of_ne hk _ _), fun hq => ?_⟩
    rw [worker_setPhase, if_pos rfl] at hq
    exact absurd ((Phase.queues_of_awaits hphase).symm.trans hq) Bool.false_ne_true
  | finish =>
    refine ⟨fun k hk => congrArg Worker.phase (Function.update_of_ne hk _ _), fun hq => ?_⟩
    unfold Service.finish at hq
    rw [worker_setPhase, if_pos rfl] at hq
    cases hq

lemma Stretch.sameServers {σ' : Service} {stage : Stage} (h : Stretch settings j stage held σ σ') :
    SameServers σ.jobs σ'.jobs := by
  induction h with
  | transition state _ ih => exact sameServers_trans (sameServers_transition _ _ j state) ih
  | assign strategy _ ih => exact sameServers_trans (sameServers_assign _ j strategy) ih
  | record _ ih => exact ih
  | take p _ _ _ ih => exact ih
  | park p _ _ => exact ⟨rfl, fun _ => rfl, fun _ => rfl, rfl⟩
  | leave _ ih => exact ih
  | release p _ ih =>
    have hjobs : ∀ σ : Service, (σ.release j p).jobs = σ.jobs := fun σ => jobs_wakeNext _ _
    rw [hjobs] at ih
    exact ih
  | suspend phase _ => exact ⟨rfl, fun _ => rfl, fun _ => rfl, rfl⟩
  | finish => exact ⟨rfl, fun _ => rfl, fun _ => rfl, rfl⟩

lemma jobs_wakeAll (resource : Resource) (n : ℕ) (σ : Service) : (Service.wakeAll resource n σ).jobs = σ.jobs := by
  induction n generalizing σ with
  | zero => rfl
  | succ n ih => exact (ih _).trans (jobs_wakeNext σ resource)

lemma Resumed.sameServers {σ' : Service} {answer : Answer} (h : Resumed settings j answer σ σ') : SameServers σ.jobs σ'.jobs := by
  have hwaiters : ∀ (σ : Service) (resource : Resource), (σ.wakeWaiters resource).jobs = σ.jobs :=
    fun σ resource => jobs_wakeAll resource _ σ
  cases h with
  | off _ => exact ⟨rfl, fun _ => rfl, fun _ => rfl, rfl⟩
  | on _ hst => exact hst.sameServers
  | pass p _ _ _ hst =>
    have h := hst.sameServers
    rw [hwaiters] at h
    exact h
  | abandon p _ hst =>
    have h := hst.sameServers
    rw [hwaiters] at h
    split at h
    · exact h
    · exact h

/-! ### A job has two servers -/

/-- No job copies from a server to itself. -/
def Apart (r : JobRegistry) : Prop := ∀ k, k < r.count → (r.job k).source_server_id ≠ (r.job k).target_server_id

lemma Apart.same {r r' : JobRegistry} (h : Apart r) (hr : SameServers r r') : Apart r' := by
  intro k hk
  rw [hr.source, hr.target]
  exact h k (hr.count ▸ hk)

lemma sameServers_interrupt (tasks : List ℕ) (σ : Service) : (tasks.foldl Service.interrupt σ).jobs = σ.jobs := by
  induction tasks generalizing σ with
  | nil => rfl
  | cons j tasks ih => exact (ih _).trans (jobs_interrupt σ j)

/-- Only `create` adds a job. -/
lemma sameServers_step (hs : Sound settings none σ) (e : Event) (he : ∀ source target path, e ≠ .create source target path) :
    SameServers σ.jobs (σ.step settings e).jobs := by
  have hrefl : SameServers σ.jobs σ.jobs := ⟨rfl, fun _ => rfl, fun _ => rfl, rfl⟩
  cases e with
  | create source target path => exact absurd rfl (he source target path)
  | cancel j =>
    have hcancelled := sameServers_transition σ.jobs settings.transfer_job_history j .cancelled
    show SameServers σ.jobs (σ.cancel settings j).jobs
    unfold Service.cancel
    split
    · exact hrefl
    · split
      · exact hrefl
      · dsimp only
        split
        · exact hcancelled
        · exact hcancelled
  | clearHistory => exact ⟨rfl, fun _ => rfl, fun _ => rfl, rfl⟩
  | stop =>
    have hcancelled := sameServers_cancelLoop σ.jobs settings.transfer_job_history σ.jobs.active
    show SameServers σ.jobs (σ.stop settings).1.jobs
    unfold Service.stop
    dsimp only
    split
    · exact hcancelled
    · rw [sameServers_interrupt]
      exact hcancelled
  | complete j answer =>
    unfold Service.step
    dsimp only
    split
    · exact hrefl
    · exact hrefl
  | run fault =>
    show SameServers σ.jobs (σ.run settings fault).jobs
    rcases hs.run_cases fault with ⟨-, heq⟩ | ⟨j, x, rest, answer, -, -, -, -, -, hres⟩
    · rw [heq]
      exact hrefl
    · exact hres.sameServers

lemma Apart.step (h : Apart σ.jobs) (hs : Sound settings none σ) (e : Event) : Apart (σ.step settings e).jobs := by
  have hsame := sameServers_step hs e
  cases e with
  | create source target path =>
    show Apart (σ.create source target path).jobs
    unfold Service.create
    dsimp only
    split
    · exact h
    split
    · exact h
    split
    · exact h
    rename_i hne _
    intro k hk
    by_cases hkn : k = σ.jobs.count
    · show (Function.update σ.jobs.job σ.jobs.count _ k).source_server_id ≠ (Function.update σ.jobs.job _ _ k).target_server_id
      rw [hkn, Function.update_self]
      exact hne
    · show (Function.update σ.jobs.job σ.jobs.count _ k).source_server_id ≠ (Function.update σ.jobs.job _ _ k).target_server_id
      rw [Function.update_of_ne hkn]
      exact h k (lt_of_le_of_ne (Nat.le_of_lt_succ hk) hkn)
  | cancel j => exact h.same (hsame fun _ _ _ => Event.noConfusion)
  | clearHistory => exact h.same (hsame fun _ _ _ => Event.noConfusion)
  | stop => exact h.same (hsame fun _ _ _ => Event.noConfusion)
  | complete j answer => exact h.same (hsame fun _ _ _ => Event.noConfusion)
  | run fault => exact h.same (hsame fun _ _ _ => Event.noConfusion)

/-! ### Who waits, and who is in the way -/

/-- The worker waits for a slot of a server, or has it and is about to go on. -/
def Queues (σ : Service) (k : ℕ) : Prop := (σ.worker k).phase.queues = true ∧ (σ.worker k).interrupted = false

lemma queues_slot (h : (σ.worker k).phase.queues = true) : ∃ p, p ≠ .overall ∧ (σ.worker k).phase = .slot p := by
  cases hp : (σ.worker k).phase with
  | slot p =>
    rw [hp] at h
    exact ⟨p, of_decide_eq_true h, rfl⟩
  | _ =>
    rw [hp] at h
    cases h

/-- A worker that waits for a slot has its permit of the service. -/
lemma Sound.inside_of_queues (h : Sound settings exempt σ) (hk : some k ≠ exempt)
    (hq : (σ.worker k).phase.queues = true) : k < σ.jobs.count ∧ (σ.worker k).held .overall = true := by
  obtain ⟨p, hp, hphase⟩ := queues_slot hq
  constructor
  · by_contra hge
    rw [h.unborn k (Nat.le_of_not_lt hge)] at hphase
    cases hphase
  · rw [h.agrees k hk .overall fun e => hp (Phase.slot.inj (hphase.symm.trans e)), hphase]
    cases p with
    | overall => exact absurd rfl hp
    | _ => rfl

lemma Sound.inside_of_plans (h : Sound settings exempt σ) (hk : some k ≠ exempt)
    (hq : (σ.worker k).phase.plans = true) : k < σ.jobs.count ∧ (σ.worker k).held .overall = true := by
  have hslot : (σ.worker k).phase ≠ .slot .overall := by
    intro e
    rw [e] at hq
    cases hq
  constructor
  · by_contra hge
    rw [h.unborn k (Nat.le_of_not_lt hge)] at hq
    cases hq
  · rw [h.agrees k hk .overall hslot]
    cases hp : (σ.worker k).phase with
    | planning => rfl
    | preflight => rfl
    | _ => rw [hp] at hq; cases hq

/-- Who has a permit of a server has one of the service. -/
lemma Sound.inside_of_holds (h : Sound settings none σ) (hp : p ≠ .overall) (hheld : (σ.worker k).held p = true) :
    (σ.worker k).held .overall = true := by
  by_cases hslot : ∃ q, (σ.worker k).phase = .slot q
  · obtain ⟨q, hq⟩ := hslot
    by_cases hov : q = .overall
    · have hnone := h.agrees k (Option.some_ne_none k) p fun e => hp (Phase.slot.inj (e.symm.trans hq) ▸ hov)
      rw [hq, hov] at hnone
      exact absurd (hnone.symm.trans hheld) Bool.false_ne_true
    · rw [h.agrees k (Option.some_ne_none k) .overall fun e => hov (Phase.slot.inj (hq.symm.trans e)), hq]
      cases q with
      | overall => exact absurd rfl hov
      | _ => rfl
  · have hfree : ∀ q, (σ.worker k).phase ≠ .slot q := fun q hq => hslot ⟨q, hq⟩
    rw [h.agrees k (Option.some_ne_none k) p (hfree p)] at hheld
    rw [h.agrees k (Option.some_ne_none k) .overall (hfree _)]
    cases hphase : (σ.worker k).phase with
    | start => rw [hphase] at hheld; cases hheld
    | finished => rw [hphase] at hheld; cases hheld
    | slot q => exact absurd hphase (hfree q)
    | _ => rfl

lemma Sound.three_inside (h : Sound settings exempt σ) (hg : settings.max_transfers_global ≤ 2) {a b c : ℕ}
    (ha : a < σ.jobs.count ∧ (σ.worker a).held .overall = true)
    (hb : b < σ.jobs.count ∧ (σ.worker b).held .overall = true)
    (hc : c < σ.jobs.count ∧ (σ.worker c).held .overall = true) (hab : a ≠ b) (hac : a ≠ c) (hbc : b ≠ c) : False := by
  have hsub : ({a, b, c} : Finset ℕ).map ⟨fun k => (k, Permit.overall), fun _ _ e => congrArg Prod.fst e⟩ ⊆
      σ.holders .service := by
    intro x hx
    obtain ⟨k, hk, rfl⟩ := Finset.mem_map.1 hx
    rw [Finset.mem_insert, Finset.mem_insert, Finset.mem_singleton] at hk
    rcases hk with rfl | rfl | rfl
    · exact mem_holders.2 ⟨ha.1, ha.2, rfl⟩
    · exact mem_holders.2 ⟨hb.1, hb.2, rfl⟩
    · exact mem_holders.2 ⟨hc.1, hc.2, rfl⟩
  have hcard := Finset.card_le_card hsub
  rw [Finset.card_map, Finset.card_eq_three.2 ⟨a, b, c, hab, hac, hbc, rfl⟩] at hcard
  have hcapacity := h.capacity .service
  have hbound : settings.capacity .service = settings.max_transfers_global := rfl
  omega

/-! ### Two workers -/

/-- At most one worker waits for a slot, and nobody who may come to wait is resumed before one that has its slot. -/
structure Single (exempt : Option ℕ) (σ : Service) : Prop where
  alone : ∀ k i, some k ≠ exempt → some i ≠ exempt → k ≠ i → σ.Queues k → ¬σ.Queues i
  ahead : ∀ k i, some k ≠ exempt → some i ≠ exempt → (σ.worker k).phase.plans = true → σ.Queues i → σ.Woken i →
    ¬[k, i].Sublist (σ.ready.map Prod.fst)

lemma sublist_concat {k i x : ℕ} {l : List ℕ} (h : [k, i].Sublist (l ++ [x])) (hne : i ≠ x) : [k, i].Sublist l := by
  obtain ⟨a, b, hab, ha, hb⟩ := List.sublist_append_iff.1 h
  rcases List.sublist_singleton.1 hb with rfl | rfl
  · rw [List.append_nil] at hab
    exact hab ▸ ha
  · have hlast := congrArg List.getLast? hab
    rw [List.getLast?_concat] at hlast
    exact absurd (Option.some.inj hlast) hne

lemma Single.wakeNext (h : Single (some j) σ) (hb : Between settings σ j held)
    (hg : settings.max_transfers_global ≤ 2) (hr : resource = .service ∨ held .overall = true) :
    Single (some j) (σ.wakeNext resource) := by
  rcases wakeNext_cases σ resource with heq | ⟨i, q, hi, hq, hres, -, -, -, heq⟩
  · rw [heq]
    exact h
  have hqueues : ∀ k, (σ.wakeNext resource).Queues k ↔ σ.Queues k := by
    intro k
    unfold Queues
    rw [heq]
    show ((σ.take i q).worker k).phase.queues = true ∧ ((σ.take i q).worker k).interrupted = false ↔ _
    rw [phase_take, interrupted_take]
  refine ⟨fun k i hk hi hne hqk hqi => h.alone k i hk hi hne ((hqueues k).1 hqk) ((hqueues i).1 hqi), ?_⟩
  intro k m hk hm hplans hqm hwoken hbefore
  rw [phase_wakeNext] at hplans
  have hqm := (hqueues m).1 hqm
  rw [heq] at hbefore hwoken
  have hbefore : [k, m].Sublist (σ.ready.map Prod.fst ++ [i]) := by
    rw [← List.map_singleton (f := Prod.fst) (a := (i, Answer.done)), ← List.map_append]
    exact hbefore
  by_cases hmi : m = i
  · -- the worker that runs, the one that is woken and the one that plans are three
    subst hmi
    obtain ⟨p, hp, hphase⟩ := queues_slot hqm.1
    obtain rfl := Phase.slot.inj (hq.symm.trans hphase)
    have hserver : resource ≠ .service := by
      rintro rfl
      cases q with
      | overall => exact hp rfl
      | _ => cases hres
    have hj : j < σ.jobs.count ∧ (σ.worker j).held .overall = true := ⟨hb.here, hb.held ▸ hr.resolve_left hserver⟩
    refine hb.sound.three_inside hg hj (hb.sound.inside_of_queues hm hqm.1) (hb.sound.inside_of_plans hk hplans)
      (fun e => hm (congrArg some e.symm)) (fun e => hk (congrArg some e.symm)) ?_
    rintro rfl
    rw [hphase] at hplans
    cases hplans
  · have hw : (σ.take i q).worker m = σ.worker m := worker_take_of_ne hmi
    exact h.ahead k m hk hm hplans hqm ((woken_congr hw).1 hwoken) (sublist_concat hbefore hmi)

lemma queues_wakeNext (σ : Service) (resource : Resource) (k : ℕ) : (σ.wakeNext resource).Queues k ↔ σ.Queues k := by
  unfold Queues
  rcases wakeNext_cases σ resource with heq | ⟨i, q, -, -, -, -, -, -, heq⟩
  · rw [heq]
  · rw [heq]
    show ((σ.take i q).worker k).phase.queues = true ∧ ((σ.take i q).worker k).interrupted = false ↔ _
    rw [phase_take, interrupted_take]

lemma queues_wakeAll (resource : Resource) (n : ℕ) (σ : Service) (k : ℕ) :
    (Service.wakeAll resource n σ).Queues k ↔ σ.Queues k := by
  induction n generalizing σ with
  | zero => exact Iff.rfl
  | succ n ih => exact (ih _).trans (queues_wakeNext σ resource k)

lemma Single.wakeAll (hg : settings.max_transfers_global ≤ 2) (hr : resource = .service ∨ held .overall = true) (n : ℕ) :
    ∀ σ : Service, Single (some j) σ → Between settings σ j held → Single (some j) (Service.wakeAll resource n σ) := by
  induction n with
  | zero => exact fun _ h _ => h
  | succ n ih => exact fun σ h hb => ih _ (h.wakeNext hb hg hr) (hb.wakeNext resource)

/-- What moves no other worker. -/
lemma Single.congr {σ' : Service} (h : Single (some j) σ) (hworker : ∀ k, k ≠ j → σ'.worker k = σ.worker k)
    (hready : σ'.ready = σ.ready) : Single (some j) σ' := by
  have hw : ∀ k, some k ≠ some j → σ'.worker k = σ.worker k := fun k hk => hworker k fun e => hk (congrArg some e)
  have hqueues : ∀ k, some k ≠ some j → σ'.Queues k → σ.Queues k := by
    intro k hk hq
    unfold Queues at hq
    rw [hw k hk] at hq
    exact hq
  refine ⟨fun k i hk hi hne hqk hqi => h.alone k i hk hi hne (hqueues k hk hqk) (hqueues i hi hqi), ?_⟩
  intro k i hk hi hplans hqi hwoken
  rw [hready]
  rw [hw k hk] at hplans
  exact h.ahead k i hk hi hplans (hqueues i hi hqi) ((woken_congr (hw i hi)).1 hwoken)

/-- The worker that ran waits for no slot, or it is the only one that does. -/
lemma Single.settle {σ' : Service} (h : Single (some j) σ) (hworker : ∀ k, k ≠ j → σ'.worker k = σ.worker k)
    (hready : σ'.ready = σ.ready) (hnot : j ∉ σ.ready.map Prod.fst) (hwoken : ¬σ'.Woken j)
    (hclear : σ'.Queues j → ∀ i, i ≠ j → ¬σ.Queues i) : Single none σ' := by
  have hqueues : ∀ k, k ≠ j → σ'.Queues k → σ.Queues k := by
    intro k hk hq
    unfold Queues at hq
    rw [hworker k hk] at hq
    exact hq
  have hsome : ∀ k, k ≠ j → some k ≠ some j := fun k hk e => hk (Option.some.inj e)
  constructor
  · intro k i _ _ hne hqk hqi
    by_cases hk : k = j
    · subst hk
      exact hclear hqk i hne.symm (hqueues i hne.symm hqi)
    · by_cases hi : i = j
      · subst hi
        exact hclear hqi k hk (hqueues k hk hqk)
      · exact h.alone k i (hsome k hk) (hsome i hi) hne (hqueues k hk hqk) (hqueues i hi hqi)
  · intro k i _ _ hplans hqi hw hbefore
    rw [hready] at hbefore
    have hi : i ≠ j := by
      rintro rfl
      exact hwoken hw
    by_cases hk : k = j
    · subst hk
      exact hnot (hbefore.subset List.mem_cons_self)
    · rw [hworker k hk] at hplans
      exact h.ahead k i (hsome k hk) (hsome i hi) hplans (hqueues i hi hqi) ((woken_congr (hworker i hi)).1 hw) hbefore

lemma Single.stretch {σ' : Service} {stage : Stage} (hst : Stretch settings j stage held σ σ')
    (hg : settings.max_transfers_global ≤ 2) (hb : Between settings σ j held) (h : Single (some j) σ)
    (hclear : stage = .taking → ∀ i, i ≠ j → ¬σ.Queues i) : Single none σ' := by
  have hnot : ∀ {σ : Service}, Sound settings (some j) σ → j ∉ σ.ready.map Prod.fst := by
    intro σ hs hm
    obtain ⟨x, hx, hxj⟩ := List.mem_map.1 hm
    exact (hs.ready x hx).1 (congrArg some hxj)
  induction hst with
  | transition state _ ih =>
    exact ih (hb.transition state) ⟨h.alone, h.ahead⟩ hclear
  | assign strategy _ ih =>
    exact ih (hb.jobs (sameServers_assign _ j strategy)) ⟨h.alone, h.ahead⟩ hclear
  | record _ ih => exact ih ⟨hb.sound.rest _ _ _, hb.here, hb.held⟩ ⟨h.alone, h.ahead⟩ hclear
  | take p _ hopen _ ih =>
    refine ih (p.update_before ▸ hb.take p.before_self hopen) (h.congr (fun k hk => worker_take_of_ne hk) rfl) ?_
    intro hstage i hi hq
    refine hclear hstage i hi ?_
    unfold Queues at hq
    rw [worker_take_of_ne hi] at hq
    exact hq
  | @park stage σ p htakes hlocked =>
    have hparks : Stretch settings j stage p.before σ (σ.park j p) := .park p htakes hlocked
    refine h.settle (fun k hk => Function.update_of_ne hk _ _) rfl (hnot hb.sound) ?_ fun hq => hclear ?_
    · rintro ⟨q, hq, hheld⟩
      obtain rfl := Phase.slot.inj ((phase_park σ j p).symm.trans hq)
      have hself : ((σ.park j p).worker j).held = (σ.worker j).held := held_setPhase _ j _ j
      rw [hself, hb.held, p.before_self] at hheld
      cases hheld
    · exact hparks.moves.2 hq.1
  | leave _ ih => exact ih hb h (fun hstage => nomatch hstage)
  | release p _ ih =>
    have hgiven : Between settings _ j p.before := p.update_upTo ▸ hb.giveBack p.upTo_self
    refine ih (hgiven.wakeNext _) ?_ fun hstage => nomatch hstage
    refine Single.wakeNext (h.congr (fun k hk => worker_giveBack_of_ne hk) rfl) hgiven hg ?_
    cases p with
    | overall => exact .inl rfl
    | source => exact .inr rfl
    | target => exact .inr rfl
  | @suspend stage σ phase hphase =>
    have hself : ((σ.setPhase j phase).worker j).phase = phase := by rw [worker_setPhase, if_pos rfl]
    refine h.settle (fun k hk => Function.update_of_ne hk _ _) rfl (hnot hb.sound) ?_ fun hq => ?_
    · rintro ⟨q, hq, -⟩
      rw [← hself, hq] at hphase
      cases hphase
    · have hq := hq.1
      rw [hself, Phase.queues_of_awaits hphase] at hq
      cases hq
  | @finish σ =>
    have hself : ((σ.finish j).worker j).phase = .finished := by
      unfold Service.finish
      rw [worker_setPhase, if_pos rfl]
    refine h.settle (fun k hk => Function.update_of_ne hk _ _) rfl (hnot hb.sound) ?_ fun hq => ?_
    · rintro ⟨q, hq, -⟩
      rw [hself] at hq
      cases hq
    · have hq := hq.1
      rw [hself] at hq
      cases hq

/-! ### Two workers are never in each other's way -/

/-- A semaphore without free permits has someone who holds one. -/
lemma Sound.holder_of_full (h : Sound settings exempt σ) (hvalue : (σ.semaphore resource).value = 0) :
    ∃ k q, k < σ.jobs.count ∧ (σ.worker k).held q = true ∧ σ.resource k q = resource := by
  have hcapacity := h.capacity resource
  have hsome : 0 < settings.capacity resource := by
    cases resource with
    | service => exact settings.global_bounds.1
    | server server_id => exact settings.per_server_bounds.1
  obtain ⟨x, hx⟩ := Finset.card_pos.1 (show 0 < (σ.holders resource).card by omega)
  exact ⟨x.1, x.2, mem_holders.1 hx⟩

lemma ne_overall_of_resource {k i : ℕ} {p q : Permit} (hp : p ≠ .overall) (h : σ.resource k q = σ.resource i p) :
    q ≠ .overall := by
  rintro rfl
  cases p with
  | overall => exact hp rfl
  | _ => cases h

/-- A worker that waits for a slot does not have one of the same server. -/
lemma Sound.waits_elsewhere (h : Sound settings exempt σ) (ha : Apart σ.jobs) {i : ℕ} {q : Permit} (hi : some i ≠ exempt)
    (hborn : i < σ.jobs.count) (hphase : (σ.worker i).phase = .slot p) (hheld : (σ.worker i).held p = false)
    (hq : (σ.worker i).held q = true) : σ.resource i q ≠ σ.resource i p := by
  have hqp : q ≠ p := by
    rintro rfl
    exact Bool.false_ne_true (hheld.symm.trans hq)
  rw [h.agrees i hi q fun e => hqp (Phase.slot.inj (hphase.symm.trans e)).symm, hphase] at hq
  cases p with
  | overall => cases hq
  | source =>
    cases q with
    | overall => exact Resource.noConfusion
    | source => exact absurd rfl hqp
    | target => cases hq
  | target =>
    cases q with
    | overall => exact Resource.noConfusion
    | source => exact fun e => ha i hborn (Resource.server.inj e)
    | target => exact absurd rfl hqp

/-- Where a worker is about to come to its source slot, nobody waits for one. -/
lemma Single.clear_of_plans (h : Single none σ) (hg : settings.max_transfers_global ≤ 2) (hs : Sound settings none σ)
    (hl : Live none σ) (ha : Apart σ.jobs) {x : Answer} {rest : List (ℕ × Answer)} (hr : σ.ready = (j, x) :: rest)
    (hplans : (σ.worker j).phase.plans = true) (i : ℕ) (hi : i ≠ j) : ¬σ.Queues i := by
  intro hq
  obtain ⟨p, hp, hphase⟩ := queues_slot hq.1
  have hinside := hs.inside_of_queues (Option.some_ne_none i) hq.1
  have hplanner := hs.inside_of_plans (Option.some_ne_none j) hplans
  have hthird : ∀ k, k < σ.jobs.count → (σ.worker k).held .overall = true → k ≠ j → k ≠ i → False :=
    fun k hk hheld hkj hki => hs.three_inside hg ⟨hk, hheld⟩ hinside hplanner hki hkj hi
  cases hheld : (σ.worker i).held p with
  | true =>
    have hmem := hl.told.told i (Option.some_ne_none i) p hphase (.inl hheld)
    rw [hr, List.map_cons, List.mem_cons] at hmem
    refine h.ahead j i (Option.some_ne_none j) (Option.some_ne_none i) hplans hq ⟨p, hphase, hheld⟩ ?_
    rw [hr, List.map_cons]
    exact List.cons_sublist_cons.2 (List.singleton_sublist.2 (hmem.resolve_left hi))
  | false =>
    by_cases hvalue : (σ.semaphore (σ.resource i p)).value = 0
    · obtain ⟨k, q, hk, hkq, hres⟩ := hs.holder_of_full hvalue
      have hq' := ne_overall_of_resource hp hres
      refine hthird k hk (hs.inside_of_holds hq' hkq) ?_ ?_
      · rintro rfl
        rw [hs.agrees k (Option.some_ne_none k) q fun e => by rw [e] at hplans; cases hplans] at hkq
        cases hphase' : (σ.worker k).phase with
        | planning =>
          rw [hphase'] at hkq
          exact hq' (of_decide_eq_true hkq)
        | preflight =>
          rw [hphase'] at hkq
          exact hq' (of_decide_eq_true hkq)
        | _ =>
          rw [hphase'] at hplans
          cases hplans
      · rintro rfl
        exact hs.waits_elsewhere ha (Option.some_ne_none k) hk hphase hheld hkq hres
    · obtain ⟨k, hk, q, hkq, hkheld⟩ := hl.served _ hvalue i (hl.told.queued i (Option.some_ne_none i) p hphase)
        (pending_iff.2 ⟨p, hphase, rfl, hheld, hq.2⟩)
      obtain ⟨-, hborn, q', hq', hres⟩ := hs.waiters _ k hk
      obtain rfl := Phase.slot.inj (hkq.symm.trans hq')
      have hserver := ne_overall_of_resource hp hres
      refine hthird k hborn (hs.inside_of_holds hserver hkheld) ?_ ?_
      · rintro rfl
        rw [hkq] at hplans
        cases hplans
      · rintro rfl
        obtain rfl := Phase.slot.inj (hphase.symm.trans hkq)
        exact Bool.false_ne_true (hheld.symm.trans hkheld)

lemma Single.popped (h : Single none σ) {x : Answer} {rest : List (ℕ × Answer)} (hr : σ.ready = (j, x) :: rest) :
    Single (some j) (σ.popped j rest) := by
  have hne : ∀ k, some k ≠ some j → (σ.popped j rest).worker k = σ.worker k :=
    fun k hk => worker_popped_of_ne fun e => hk (congrArg some e)
  have hqueues : ∀ k, some k ≠ some j → (σ.popped j rest).Queues k → σ.Queues k := by
    intro k hk hq
    unfold Queues at hq
    rw [hne k hk] at hq
    exact hq
  constructor
  · exact fun k i hk hi hki hqk hqi =>
      h.alone k i (Option.some_ne_none k) (Option.some_ne_none i) hki (hqueues k hk hqk) (hqueues i hi hqi)
  · intro k i hk hi hplans hqi hw hbefore
    rw [hne k hk] at hplans
    refine h.ahead k i (Option.some_ne_none k) (Option.some_ne_none i) hplans (hqueues i hi hqi)
      ((woken_congr (hne i hi)).1 hw) ?_
    rw [hr, List.map_cons]
    exact hbefore.cons _

lemma Single.resumed {σ' : Service} {x answer : Answer} {rest : List (ℕ × Answer)} (h : Single none σ)
    (hg : settings.max_transfers_global ≤ 2) (hs : Sound settings none σ) (hl : Live none σ) (ha : Apart σ.jobs)
    (hr : σ.ready = (j, x) :: rest) (hj : j < σ.jobs.count) (hnot : j ∉ rest.map Prod.fst)
    (hpop : Sound settings none (σ.popped j rest)) (htold : (σ.worker j).interrupted = true → answer = .raised .cancelled)
    (hres : Resumed settings j answer (σ.popped j rest) σ') : Single none σ' := by
  have hpopped := h.popped hr
  have hclear : (∀ i, i ≠ j → ¬σ.Queues i) → ∀ i, i ≠ j → ¬(σ.popped j rest).Queues i := by
    intro hclear i hi hq
    unfold Queues at hq
    rw [worker_popped_of_ne hi] at hq
    exact hclear i hi hq
  cases hres with
  | off hp =>
    have hself : (((σ.popped j rest).setPhase j .finished).worker j).phase = .finished := by
      rw [worker_setPhase, if_pos rfl]
    refine hpopped.settle (fun k hk => Function.update_of_ne hk _ _) rfl hnot ?_ fun hq => ?_
    · rintro ⟨q, hq, -⟩
      rw [hself] at hq
      cases hq
    · have hq := hq.1
      rw [hself] at hq
      cases hq
  | on hphase hst =>
    refine hpopped.stretch hst hg (hpop.enter hj hnot hphase) fun hstage => hclear (h.clear_of_plans hg hs hl ha hr ?_)
    rw [phase_popped] at hstage hphase
    cases hp : (σ.worker j).phase with
    | planning => rfl
    | preflight => rfl
    | slot p => exact absurd hp (hphase p)
    | _ => rw [hp] at hstage; cases hstage
  | pass p hanswer hphase hheld hst =>
    have hb := hpop.enterPass hj hnot hphase hheld
    have hall : Single (some j) (((σ.popped j rest).unpark j p).wakeWaiters ((σ.popped j rest).resource j p)) :=
      Single.wakeAll hg (.inr (by cases p <;> rfl)) _ _ ⟨hpopped.alone, hpopped.ahead⟩ hb
    refine hall.stretch hst hg (hb.wakeWaiters _) fun hstage i hi hq => ?_
    have hq : ((σ.popped j rest).unpark j p).Queues i := (queues_wakeAll _ _ _ i).1 hq
    refine hclear (fun k hk hqk => ?_) i hi hq
    rw [phase_popped] at hphase
    refine h.alone j k (Option.some_ne_none j) (Option.some_ne_none k) hk.symm ⟨?_, ?_⟩ hqk
    · rw [hphase]
      cases p with
      | overall => cases hstage
      | _ => rfl
    · exact Bool.eq_false_of_not_eq_true fun hi => hanswer _ (htold hi)
  | abandon p hphase hst =>
    have hb := hpop.enterAbandon hj hnot hphase
    refine Single.stretch hst hg (hb.wakeWaiters _) (Single.wakeAll hg ?_ _ _ ?_ hb) fun hstage => nomatch hstage
    · cases p with
      | overall => exact .inl rfl
      | _ => exact .inr rfl
    · split
      · exact hpopped.congr (fun k hk => worker_giveBack_of_ne hk) rfl
      · exact ⟨hpopped.alone, hpopped.ahead⟩

/-! ### The other events -/

/-- More is to be resumed, behind whoever waits for a slot. -/
lemma Single.push (h : Single none σ) {x : ℕ × Answer} (hx : ¬σ.Queues x.1) :
    Single none { σ with ready := σ.ready ++ [x] } := by
  refine ⟨h.alone, fun k i hk hi hplans hq hw hbefore => ?_⟩
  have hbefore : [k, i].Sublist (σ.ready.map Prod.fst ++ [x.1]) := by
    rw [← List.map_singleton (f := Prod.fst) (a := x), ← List.map_append]
    exact hbefore
  refine h.ahead k i hk hi hplans hq hw (sublist_concat hbefore ?_)
  rintro rfl
  exact hx hq

lemma Single.interrupt (h : Single none σ) (j : ℕ) : Single none (σ.interrupt j) := by
  unfold Service.interrupt
  split
  · exact h
  dsimp only
  have hworker : ∀ k, ((σ.setWorker j { σ.worker j with interrupted := true }).worker k).phase = (σ.worker k).phase ∧
      ((σ.setWorker j { σ.worker j with interrupted := true }).worker k).held = (σ.worker k).held ∧
      (((σ.setWorker j { σ.worker j with interrupted := true }).worker k).interrupted = false →
        k ≠ j ∧ (σ.worker k).interrupted = false) := by
    intro k
    rw [worker_setWorker]
    split
    · rename_i hk
      rw [hk]
      exact ⟨rfl, rfl, fun hi => nomatch hi⟩
    · rename_i hk
      exact ⟨rfl, rfl, fun hi => ⟨hk, hi⟩⟩
  have hqueues : ∀ k, (σ.setWorker j { σ.worker j with interrupted := true }).Queues k → k ≠ j ∧ σ.Queues k := by
    intro k hq
    obtain ⟨hk, hi⟩ := (hworker k).2.2 hq.2
    exact ⟨hk, (hworker k).1 ▸ hq.1, hi⟩
  have hsingle : Single none (σ.setWorker j { σ.worker j with interrupted := true }) := by
    refine ⟨fun k i hk hi hne hqk hqi => h.alone k i hk hi hne (hqueues k hqk).2 (hqueues i hqi).2, ?_⟩
    intro k i hk hi hplans hqi hw
    refine h.ahead k i hk hi ((hworker k).1 ▸ hplans) (hqueues i hqi).2 ?_
    obtain ⟨p, hp, hheld⟩ := hw
    exact ⟨p, (hworker i).1.symm.trans hp, (hworker i).2.1 ▸ hheld⟩
  split
  · exact hsingle.push (x := (j, .raised .cancelled)) fun hq => (hqueues j hq).1 rfl
  · exact hsingle

lemma Single.stop (h : Single none σ) : Single none (σ.stop settings).1 := by
  have hall : ∀ (tasks : List ℕ) (σ : Service), Single none σ → Single none (tasks.foldl Service.interrupt σ) := by
    intro tasks
    induction tasks with
    | nil => exact fun _ h => h
    | cons j tasks ih => exact fun σ h => ih _ (h.interrupt j)
  unfold Service.stop
  dsimp only
  split
  · exact ⟨h.alone, h.ahead⟩
  · exact hall _ _ ⟨h.alone, h.ahead⟩

lemma Single.create (h : Single none σ) (source target path : Text) : Single none (σ.create source target path) := by
  unfold Service.create
  dsimp only
  split
  · exact h
  split
  · exact h
  split
  · exact h
  generalize ({ source_server_id := source, target_server_id := target, target_path := path } : TransferJob) = job
  have hself : (Function.update σ.worker σ.jobs.count {} σ.jobs.count).phase = .start := by rw [Function.update_self]
  have hworker : ∀ k, k ≠ σ.jobs.count → Function.update σ.worker σ.jobs.count {} k = σ.worker k :=
    fun k hk => Function.update_of_ne hk _ _
  have hold : Single none { σ with worker := Function.update σ.worker σ.jobs.count {} } := by
    have hne : ∀ k, ({ σ with worker := Function.update σ.worker σ.jobs.count {} } : Service).Queues k →
        k ≠ σ.jobs.count ∧ σ.Queues k := by
      intro k hq
      have hk : k ≠ σ.jobs.count := by
        rintro rfl
        have hphase := hq.1
        rw [hself] at hphase
        cases hphase
      refine ⟨hk, ?_⟩
      unfold Queues at hq ⊢
      rw [← hworker k hk]
      exact hq
    refine ⟨fun k i hk hi hki hqk hqi => h.alone k i hk hi hki (hne k hqk).2 (hne i hqi).2, ?_⟩
    intro k i hk hi hplans hqi hw
    have hkn : k ≠ σ.jobs.count := by
      rintro rfl
      rw [hself] at hplans
      cases hplans
    have hplans : (Function.update σ.worker σ.jobs.count {} k).phase.plans = true := hplans
    rw [hworker k hkn] at hplans
    exact h.ahead k i hk hi hplans (hne i hqi).2 ((woken_congr (hworker i (hne i hqi).1)).1 hw)
  have hpushed := hold.push (x := (σ.jobs.count, .done)) fun hq => by
    have hphase := hq.1
    rw [hself] at hphase
    cases hphase
  exact ⟨hpushed.alone, hpushed.ahead⟩

lemma Single.step (h : Single none σ) (hg : settings.max_transfers_global ≤ 2) (hs : Sound settings none σ)
    (hl : Live none σ) (ha : Apart σ.jobs) (e : Event) : Single none (σ.step settings e) := by
  cases e with
  | create source target path => exact h.create source target path
  | cancel j =>
    show Single none (σ.cancel settings j)
    unfold Service.cancel
    split
    · exact h
    · split
      · exact h
      · dsimp only
        split
        · exact ⟨h.alone, h.ahead⟩
        · exact ⟨h.alone, h.ahead⟩
  | clearHistory => exact ⟨h.alone, h.ahead⟩
  | stop => exact h.stop
  | complete j answer =>
    unfold Service.step
    dsimp only
    split
    · rename_i hok
      refine h.push (x := (j, answer)) fun hq => ?_
      have hqueues := hq.1
      rw [Phase.queues_of_awaits (phase_of_admits (Bool.and_eq_true_iff.1 hok).1)] at hqueues
      cases hqueues
    · exact h
  | run fault =>
    show Single none (σ.run settings fault)
    rcases hs.run_cases fault with ⟨-, heq⟩ | ⟨j, x, rest, answer, hr, hj, hnot, hpop, htold, hres⟩
    · rw [heq]
      exact h
    · exact h.resumed hg hs hl ha hr hj hnot hpop htold hres

/-! ### Whole runs -/

/-- What holds of the service whatever happened. -/
structure Reached (settings : Settings) (σ : Service) : Prop where
  sound : Sound settings none σ
  live : Live none σ
  apart : Apart σ.jobs
  single : settings.max_transfers_global ≤ 2 → Single none σ

lemma Reached.step (h : Reached settings σ) (e : Event) : Reached settings (σ.step settings e) :=
  ⟨h.sound.step e, h.live.step h.sound e, h.apart.step h.sound e,
    fun hg => (h.single hg).step hg h.sound h.live h.apart e⟩

lemma reached_after (settings : Settings) (events : List Event) : Reached settings (after settings events) := by
  have hinit : Reached settings (Service.init settings) :=
    ⟨sound_init settings, live_after settings [], fun k hk => absurd hk (Nat.not_lt_zero k),
      fun _ => ⟨fun _ _ _ _ _ hq => absurd hq.1 Bool.false_ne_true, fun _ _ _ _ hplans => absurd hplans Bool.false_ne_true⟩⟩
  exact Machine.inv_after hinit fun _ e h => h.step e

/-- Where nothing goes on, who has a slot that is waited for has it of its source, and waits for its target. -/
lemma Reached.blocked (h : Reached settings σ) (hquiet : σ.ready = []) (hstuck : ∀ k, (σ.worker k).phase.awaits = false)
    (hp : p ≠ .overall) {i : ℕ} {q : Permit} (hx : (i, q) ∈ σ.holders (σ.resource k p)) :
    i < σ.jobs.count ∧ q = .source ∧ (σ.worker i).phase = .slot .target ∧ (σ.worker i).interrupted = false := by
  obtain ⟨hborn, hheld, hres⟩ := mem_holders.1 hx
  have hserver := ne_overall_of_resource hp hres
  have hslot : ∃ r, (σ.worker i).phase = .slot r := by
    by_contra hnone
    have hfree : ∀ r, (σ.worker i).phase ≠ .slot r := fun r hr => hnone ⟨r, hr⟩
    rw [h.sound.agrees i (Option.some_ne_none i) q (hfree q)] at hheld
    have hawaits := hstuck i
    cases hi : (σ.worker i).phase with
    | start => rw [hi] at hheld; cases hheld
    | finished => rw [hi] at hheld; cases hheld
    | slot r => exact hfree r hi
    | _ => rw [hi] at hawaits; cases hawaits
  obtain ⟨r, hr⟩ := hslot
  have hwaits := (value_of_quiet h.live hquiet hr).2
  have hqr : q ≠ r := by
    rintro rfl
    exact Bool.false_ne_true (hwaits.symm.trans hheld)
  rw [h.sound.agrees i (Option.some_ne_none i) q fun e => hqr (Phase.slot.inj (hr.symm.trans e)).symm, hr] at hheld
  refine ⟨hborn, ?_⟩
  have hi : (σ.worker i).interrupted = false := by
    refine Bool.eq_false_of_not_eq_true fun hi => ?_
    have hmem := h.live.told.told i (Option.some_ne_none i) r hr (.inr hi)
    rw [hquiet] at hmem
    cases hmem
  cases r with
  | overall => cases hheld
  | source =>
    cases q with
    | overall => exact absurd rfl hserver
    | _ => cases hheld
  | target =>
    cases q with
    | overall => exact absurd rfl hserver
    | source => exact ⟨rfl, hr, hi⟩
    | target => exact absurd rfl hqr

/-- With fewer permits of the service than two servers have slots, or with at most two, no workers wait for each other
in a circle: wherever the loop has nothing to resume, every job is done, or a worker awaits something other than a
permit. -/
theorem no_deadlock (settings : Settings) (hfew : settings.max_transfers_global < 2 * settings.max_transfers_per_server ∨
    settings.max_transfers_global ≤ 2) (events : List Event) (hquiet : (after settings events).ready = []) (j : ℕ)
    (hborn : j < (after settings events).jobs.count) (hlive : ((after settings events).worker j).phase ≠ .finished) :
    ∃ k, ((after settings events).worker k).phase.awaits = true := by
  have h := reached_after settings events
  generalize after settings events = σ at *
  by_contra hnone
  have hstuck : ∀ k, (σ.worker k).phase.awaits = false := fun k => Bool.eq_false_of_not_eq_true fun hk => hnone ⟨k, hk⟩
  have hslot : ∀ k, k < σ.jobs.count → (σ.worker k).phase ≠ .finished → ∃ p, (σ.worker k).phase = .slot p := by
    intro k hk hfinished
    have hawaits := hstuck k
    cases hp : (σ.worker k).phase with
    | start =>
      have hmem := h.live.told.starting k (Option.some_ne_none k) hk hp
      rw [hquiet] at hmem
      cases hmem
    | slot p => exact ⟨p, rfl⟩
    | finished => exact absurd hp hfinished
    | _ => rw [hp] at hawaits; cases hawaits
  -- someone waits for a slot of a server
  have hserver : ∃ k p, p ≠ .overall ∧ (σ.worker k).phase = .slot p := by
    obtain ⟨p, hp⟩ := hslot j hborn hlive
    by_cases hov : p = .overall
    · subst hov
      obtain ⟨k, q, hk, hheld, hres⟩ := h.sound.holder_of_full (value_of_quiet h.live hquiet hp).1
      have hkq : q = .overall := by
        cases q with
        | overall => rfl
        | _ => cases hres
      subst hkq
      have hrun : (σ.worker k).phase ≠ .finished := by
        intro e
        rw [h.sound.agrees k (Option.some_ne_none k) .overall fun e' => Phase.noConfusion (e.symm.trans e'), e] at hheld
        cases hheld
      obtain ⟨r, hr⟩ := hslot k hk hrun
      refine ⟨k, r, ?_, hr⟩
      rintro rfl
      exact Bool.false_ne_true ((value_of_quiet h.live hquiet hr).2.symm.trans hheld)
    · exact ⟨j, p, hov, hp⟩
  obtain ⟨k, p, hp, hphase⟩ := hserver
  -- all its slots are held by workers that wait for their targets, and so are those of such a target
  have hfull : (σ.semaphore (σ.resource k p)).value = 0 := (value_of_quiet h.live hquiet hphase).1
  obtain ⟨a, q, ha, hheld, hres⟩ := h.sound.holder_of_full hfull
  obtain ⟨-, rfl, ha', hai⟩ := h.blocked hquiet hstuck hp (mem_holders.2 ⟨ha, hheld, hres⟩)
  have hfull' : (σ.semaphore (σ.resource a .target)).value = 0 := (value_of_quiet h.live hquiet ha').1
  have htarget : Permit.target ≠ .overall := Permit.noConfusion
  obtain ⟨b, q, hb, hheld', hres'⟩ := h.sound.holder_of_full hfull'
  obtain ⟨-, rfl, hb', hbi⟩ := h.blocked hquiet hstuck htarget (mem_holders.2 ⟨hb, hheld', hres'⟩)
  have hapart : σ.resource k p ≠ σ.resource a .target := by
    rw [← hres]
    exact fun e => h.apart a ha (Resource.server.inj e)
  rcases hfew with hfew | hfew
  · have hdisjoint : Disjoint (σ.holders (σ.resource k p)) (σ.holders (σ.resource a .target)) := by
      refine Finset.disjoint_left.2 fun x hx hx' => hapart ?_
      exact (mem_holders.1 hx).2.2.symm.trans (mem_holders.1 hx').2.2
    have hinside : ∀ x ∈ σ.holders (σ.resource k p) ∪ σ.holders (σ.resource a .target),
        x.1 < σ.jobs.count ∧ x.2 = .source ∧ (σ.worker x.1).phase = .slot .target := by
      intro x hx
      rcases Finset.mem_union.1 hx with hx | hx
      · obtain ⟨hborn, hsource, hslot, -⟩ := h.blocked hquiet hstuck hp hx
        exact ⟨hborn, hsource, hslot⟩
      · obtain ⟨hborn, hsource, hslot, -⟩ := h.blocked hquiet hstuck htarget hx
        exact ⟨hborn, hsource, hslot⟩
    have hcard := Finset.card_le_card_of_injOn (fun x => (x.1, Permit.overall))
      (s := σ.holders (σ.resource k p) ∪ σ.holders (σ.resource a .target)) (t := σ.holders .service)
      (fun x hx => by
        obtain ⟨hborn, -, hslot⟩ := hinside x hx
        have hqueues : (σ.worker x.1).phase.queues = true := by
          rw [hslot]
          rfl
        exact mem_holders.2 ⟨hborn, (h.sound.inside_of_queues (Option.some_ne_none _) hqueues).2, rfl⟩)
      fun x hx y hy e => Prod.ext (Prod.mk.inj e).1 ((hinside x hx).2.1.trans (hinside y hy).2.1.symm)
    rw [Finset.card_union_of_disjoint hdisjoint] at hcard
    have hsource := h.sound.capacity (σ.resource k p)
    have htarget := h.sound.capacity (σ.resource a .target)
    have hservice := h.sound.capacity .service
    have hslots : ∀ k p, p ≠ .overall → settings.capacity (σ.resource k p) = settings.max_transfers_per_server := by
      intro k p hp
      cases p with
      | overall => exact absurd rfl hp
      | _ => rfl
    rw [hslots k p hp] at hsource
    rw [hslots a .target Permit.noConfusion] at htarget
    have hpermits : settings.capacity .service = settings.max_transfers_global := rfl
    omega
  · refine (h.single hfew).alone a b (Option.some_ne_none a) (Option.some_ne_none b) ?_ ⟨?_, hai⟩ ⟨?_, hbi⟩
    · rintro rfl
      exact hapart (hres.symm.trans hres')
    · rw [ha']
      rfl
    · rw [hb']
      rfl

/-- As delivered, the service does not come to a standstill: the third job waits, and the first is planned. -/
theorem no_deadlock_third : ∃ k, ((after defaults threeStarted).worker k).phase.awaits = true :=
  no_deadlock defaults (.inr (by decide)) threeStarted (by decide +kernel) 2 (by decide +kernel) (by decide +kernel)

/-- Three permits of the service, and one slot a server. -/
def three : Settings := { defaults with max_transfers_global := 3, global_bounds := by decide }

/-- One copies from `a` to `b`, one waits for its source `a` and one for its source `b`; when the first is done, both
get their sources, and each waits for the other's. -/
def bothWays : List Event :=
  [.create ['a'] ['b'] ['/', 'x'], .create ['a'] ['b'] ['/', 'y'], .create ['b'] ['a'] ['/', 'x'], .run none, .run none,
    .run none, .complete 0 (.plan (some .localRelay) false), .complete 1 (.plan (some .localRelay) false),
    .complete 2 (.plan (some .localRelay) false), .run none, .run none, .run none, .complete 0 (.raised .error), .run none,
    .run none, .run none]

example : (after three bothWays).ready = [] ∧
    (List.range 3).map (fun k => ((after three bothWays).worker k).phase) = [.finished, .slot .target, .slot .target] := by
  decide +kernel

end Service
end SshGpuConsole.Transfers
