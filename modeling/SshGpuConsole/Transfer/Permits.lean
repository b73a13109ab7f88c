import SshGpuConsole.Transfer.Stretches

/-!
# Permits

Every worker holds the permits of the place it is suspended at, and no semaphore hands out more permits than it has
(`permits_accounted`). A worker between two awaits is exempt: what it holds is said of it (`Between`).
-/

namespace SshGpuConsole.Transfers
open Shell (Text)
open Batch (TransferState)
open Workspace (TransferStrategy)

namespace Service

/-- The permits of a resource that are held, each with who holds it. -/
def holders (σ : Service) (resource : Resource) : Finset (ℕ × Permit) :=
  ((Finset.range σ.jobs.count) ×ˢ Finset.univ).filter fun x =>
    (σ.worker x.1).held x.2 = true ∧ σ.resource x.1 x.2 = resource

variable {settings : Settings} {σ : Service} {j k : ℕ} {p : Permit} {resource : Resource}

lemma mem_holders {x : ℕ × Permit} :
    x ∈ σ.holders resource ↔ x.1 < σ.jobs.count ∧ (σ.worker x.1).held x.2 = true ∧ σ.resource x.1 x.2 = resource := by
  rw [holders, Finset.mem_filter, Finset.mem_product, Finset.mem_range]
  exact ⟨fun h => ⟨h.1.1, h.2⟩, fun h => ⟨⟨h.1, Finset.mem_univ _⟩, h.2⟩⟩

/-- The workers hold what they hold where they are suspended, and the semaphores count it; the worker that is
exempt runs. -/
structure Sound (settings : Settings) (exempt : Option ℕ) (σ : Service) : Prop where
  capacity : ∀ resource, (σ.semaphore resource).value + (σ.holders resource).card = settings.capacity resource
  agrees : ∀ k, some k ≠ exempt → ∀ p, (σ.worker k).phase ≠ .slot p →
    (σ.worker k).held p = (σ.worker k).phase.holds p
  waiters : ∀ resource, ∀ k ∈ (σ.semaphore resource).waiters, some k ≠ exempt ∧ k < σ.jobs.count ∧
    ∃ p, (σ.worker k).phase = .slot p ∧ σ.resource k p = resource
  waiters_nodup : ∀ resource, (σ.semaphore resource).waiters.Nodup
  ready : ∀ x ∈ σ.ready, some x.1 ≠ exempt ∧ x.1 < σ.jobs.count ∧ (σ.worker x.1).phase ≠ .finished ∧
    ∀ p, (σ.worker x.1).phase = .slot p → (σ.worker x.1).held p = true ∨ (σ.worker x.1).interrupted = true
  ready_nodup : (σ.ready.map Prod.fst).Nodup
  unborn : ∀ k, σ.jobs.count ≤ k → (σ.worker k).phase = .start
  tasks : ∀ k ∈ σ.jobs.tasks, k < σ.jobs.count

/-- The worker runs, and holds these permits. -/
structure Between (settings : Settings) (σ : Service) (j : ℕ) (held : Permit → Bool) : Prop where
  sound : Sound settings (some j) σ
  here : j < σ.jobs.count
  held : (σ.worker j).held = held

/-! ### One semaphore -/

/-- What `_wake_up_next` does. -/
lemma wakeNext_cases (σ : Service) (resource : Resource) : σ.wakeNext resource = σ ∨
    ∃ k p, k ∈ (σ.semaphore resource).waiters ∧ (σ.worker k).phase = .slot p ∧ σ.resource k p = resource ∧
      (σ.worker k).held p = false ∧ (σ.worker k).interrupted = false ∧ (σ.semaphore resource).value ≠ 0 ∧
      σ.wakeNext resource = { σ.take k p with ready := σ.ready ++ [(k, .done)] } := by
  unfold wakeNext
  split
  · exact .inl rfl
  · rename_i hvalue
    split
    · exact .inl rfl
    · rename_i k hk
      split
      · exact .inl rfl
      · rename_i p hp
        have hpending := List.find?_some hk
        have hphase : (σ.worker k).phase = .slot p := by
          unfold awaited at hp
          split at hp
          · rename_i q hq
            rw [hq, Option.some.inj hp]
          · cases hp
        unfold pending at hpending
        rw [hphase] at hpending
        simp only [Bool.and_eq_true, decide_eq_true_eq, Bool.not_eq_true'] at hpending
        exact .inr ⟨k, p, List.mem_of_find?_eq_some hk, hphase, hpending.1.1, hpending.1.2, hpending.2, hvalue, rfl⟩

@[simp] lemma phase_take (σ : Service) (j : ℕ) (p : Permit) (k : ℕ) :
    ((σ.take j p).worker k).phase = (σ.worker k).phase := by
  show (Function.update σ.worker j _ k).phase = _
  by_cases hk : k = j
  · rw [hk, Function.update_self]
  · rw [Function.update_of_ne hk]

@[simp] lemma interrupted_take (σ : Service) (j : ℕ) (p : Permit) (k : ℕ) :
    ((σ.take j p).worker k).interrupted = (σ.worker k).interrupted := by
  show (Function.update σ.worker j _ k).interrupted = _
  by_cases hk : k = j
  · rw [hk, Function.update_self]
  · rw [Function.update_of_ne hk]

lemma held_take (σ : Service) (j : ℕ) (p : Permit) (k : ℕ) (q : Permit) :
    ((σ.take j p).worker k).held q = if k = j ∧ q = p then true else (σ.worker k).held q := by
  show (Function.update σ.worker j _ k).held q = _
  by_cases hk : k = j
  · subst hk
    rw [Function.update_self]
    show Function.update (σ.worker k).held p true q = _
    by_cases hq : q = p
    · rw [hq, Function.update_self, if_pos ⟨rfl, rfl⟩]
    · rw [Function.update_of_ne hq, if_neg fun h => hq h.2]
  · rw [Function.update_of_ne hk, if_neg fun h => hk h.1]

@[simp] lemma phase_giveBack (σ : Service) (j : ℕ) (p : Permit) (k : ℕ) :
    ((σ.giveBack j p).worker k).phase = (σ.worker k).phase := by
  show (Function.update σ.worker j _ k).phase = _
  by_cases hk : k = j
  · rw [hk, Function.update_self]
  · rw [Function.update_of_ne hk]

lemma held_giveBack (σ : Service) (j : ℕ) (p : Permit) (k : ℕ) (q : Permit) :
    ((σ.giveBack j p).worker k).held q = if k = j ∧ q = p then false else (σ.worker k).held q := by
  show (Function.update σ.worker j _ k).held q = _
  by_cases hk : k = j
  · subst hk
    rw [Function.update_self]
    show Function.update (σ.worker k).held p false q = _
    by_cases hq : q = p
    · rw [hq, Function.update_self, if_pos ⟨rfl, rfl⟩]
    · rw [Function.update_of_ne hq, if_neg fun h => hq h.2]
  · rw [Function.update_of_ne hk, if_neg fun h => hk h.1]

@[simp] lemma waiters_take (σ : Service) (j : ℕ) (p : Permit) (resource : Resource) :
    ((σ.take j p).semaphore resource).waiters = (σ.semaphore resource).waiters := by
  show (Function.update σ.semaphore _ _ resource).waiters = _
  by_cases h : resource = σ.resource j p
  · rw [h, Function.update_self]
  · rw [Function.update_of_ne h]

@[simp] lemma waiters_giveBack (σ : Service) (j : ℕ) (p : Permit) (resource : Resource) :
    ((σ.giveBack j p).semaphore resource).waiters = (σ.semaphore resource).waiters := by
  show (Function.update σ.semaphore _ _ resource).waiters = _
  by_cases h : resource = σ.resource j p
  · rw [h, Function.update_self]
  · rw [Function.update_of_ne h]

lemma value_take (σ : Service) (j : ℕ) (p : Permit) (resource : Resource) :
    ((σ.take j p).semaphore resource).value =
      (σ.semaphore resource).value - if σ.resource j p = resource then 1 else 0 := by
  show (Function.update σ.semaphore _ _ resource).value = _
  by_cases h : resource = σ.resource j p
  · rw [h, Function.update_self, if_pos rfl]
  · rw [Function.update_of_ne h, if_neg fun e => h e.symm]
    rfl

lemma value_giveBack (σ : Service) (j : ℕ) (p : Permit) (resource : Resource) :
    ((σ.giveBack j p).semaphore resource).value =
      (σ.semaphore resource).value + if σ.resource j p = resource then 1 else 0 := by
  show (Function.update σ.semaphore _ _ resource).value = _
  by_cases h : resource = σ.resource j p
  · rw [h, Function.update_self, if_pos rfl]
  · rw [Function.update_of_ne h, if_neg fun e => h e.symm]
    rfl

/-- A permit that is taken counts. -/
lemma card_holders_take (hj : j < σ.jobs.count) (hp : (σ.worker j).held p = false) (resource : Resource) :
    ((σ.take j p).holders resource).card =
      (σ.holders resource).card + if σ.resource j p = resource then 1 else 0 := by
  have hnew : (j, p) ∉ σ.holders resource := by
    intro h
    rw [(mem_holders.1 h).2.1] at hp
    cases hp
  have hholders : (σ.take j p).holders resource =
      if σ.resource j p = resource then insert (j, p) (σ.holders resource) else σ.holders resource := by
    ext ⟨k, q⟩
    rw [mem_holders, held_take]
    show k < σ.jobs.count ∧ _ ∧ σ.resource k q = resource ↔ _
    by_cases hkq : k = j ∧ q = p
    · obtain ⟨rfl, rfl⟩ := hkq
      rw [if_pos ⟨rfl, rfl⟩]
      split
      · rename_i hr
        exact ⟨fun _ => Finset.mem_insert_self _ _, fun _ => ⟨hj, rfl, hr⟩⟩
      · rename_i hr
        exact ⟨fun h => absurd h.2.2 hr, fun h => absurd h hnew⟩
    · rw [if_neg hkq]
      split
      · rw [Finset.mem_insert, mem_holders, Prod.mk.injEq, or_iff_right hkq]
      · rw [mem_holders]
  rw [hholders]
  split
  · exact Finset.card_insert_of_notMem hnew
  · rfl

/-- A permit that goes back counts no more. -/
lemma card_holders_giveBack (hj : j < σ.jobs.count) (hp : (σ.worker j).held p = true) (resource : Resource) :
    ((σ.giveBack j p).holders resource).card + (if σ.resource j p = resource then 1 else 0) =
      (σ.holders resource).card := by
  have hholders : (σ.giveBack j p).holders resource = (σ.holders resource).erase (j, p) := by
    ext ⟨k, q⟩
    rw [mem_holders, held_giveBack, Finset.mem_erase, mem_holders, ne_eq, Prod.mk.injEq]
    show k < σ.jobs.count ∧ _ ∧ σ.resource k q = resource ↔ _
    by_cases hkq : k = j ∧ q = p
    · rw [if_pos hkq]
      exact ⟨fun h => absurd h.2.1 Bool.false_ne_true, fun h => absurd hkq h.1⟩
    · rw [if_neg hkq]
      exact ⟨fun h => ⟨hkq, h⟩, fun h => h.2⟩
  rw [hholders]
  split
  · rename_i hr
    exact Finset.card_erase_add_one (mem_holders.2 ⟨hj, hp, hr⟩)
  · rename_i hr
    rw [Finset.erase_eq_of_notMem fun h => hr (mem_holders.1 h).2.2]
    rfl

/-! ### Permits keep the state sound -/

variable {exempt : Option ℕ} {held : Permit → Bool}

lemma Sound.take (h : Sound settings exempt σ) (hk : k < σ.jobs.count) (hp : (σ.worker k).held p = false)
    (hvalue : (σ.semaphore (σ.resource k p)).value ≠ 0)
    (hopen : some k = exempt ∨ (σ.worker k).phase = .slot p) : Sound settings exempt (σ.take k p) where
  capacity resource := by
    rw [value_take, card_holders_take hk hp, ← h.capacity resource]
    split
    · rename_i hr
      rw [hr] at hvalue
      omega
    · rfl
  agrees i hi q hq := by
    rw [phase_take] at hq ⊢
    rw [held_take]
    split
    · rename_i hkq
      obtain ⟨rfl, rfl⟩ := hkq
      exact absurd (hopen.resolve_left hi) hq
    · exact h.agrees i hi q hq
  waiters resource i hi := by
    rw [waiters_take] at hi
    obtain ⟨hne, hcount, q, hq, hr⟩ := h.waiters resource i hi
    exact ⟨hne, hcount, q, (phase_take σ k p i).trans hq, hr⟩
  waiters_nodup resource := by
    rw [waiters_take]
    exact h.waiters_nodup resource
  ready x hx := by
    obtain ⟨hne, hcount, hlive, hslot⟩ := h.ready x hx
    refine ⟨hne, hcount, (phase_take σ k p x.1).symm ▸ hlive, fun q hq => ?_⟩
    rw [phase_take] at hq
    rw [held_take, interrupted_take]
    split
    · exact .inl rfl
    · exact hslot q hq
  ready_nodup := h.ready_nodup
  unborn i hi := (phase_take σ k p i).trans (h.unborn i hi)
  tasks := h.tasks

lemma Sound.wakeNext (h : Sound settings exempt σ) (resource : Resource) :
    Sound settings exempt (σ.wakeNext resource) := by
  rcases wakeNext_cases σ resource with heq | ⟨k, p, hk, hphase, hr, hp, hi, hvalue, heq⟩
  · rw [heq]
    exact h
  · rw [heq]
    obtain ⟨hne, hcount, -⟩ := h.waiters resource k hk
    have ht := h.take hcount hp (hr ▸ hvalue) (.inr hphase)
    have hnew : k ∉ σ.ready.map Prod.fst := by
      intro hm
      obtain ⟨x, hx, rfl⟩ := List.mem_map.1 hm
      rcases (h.ready x hx).2.2.2 p hphase with hh | hh
      · rw [hh] at hp
        cases hp
      · rw [hh] at hi
        cases hi
    refine ⟨ht.capacity, ht.agrees, ht.waiters, ht.waiters_nodup, fun x hx => ?_, ?_, ht.unborn, ht.tasks⟩
    · rcases List.mem_append.1 hx with hx | hx
      · exact ht.ready x hx
      · obtain rfl := List.mem_singleton.1 hx
        refine ⟨hne, hcount, ?_, fun q hq => .inl ?_⟩
        · rw [phase_take, hphase]
          exact Phase.noConfusion
        rw [phase_take, hphase] at hq
        cases hq
        exact (held_take σ k p k p).trans (if_pos ⟨rfl, rfl⟩)
    · show ((σ.ready ++ [(k, Answer.done)]).map Prod.fst).Nodup
      rw [List.map_append, List.map_singleton]
      exact List.nodup_append.2 ⟨h.ready_nodup, List.nodup_singleton k,
        fun a ha b hb e => by
          rw [e, List.mem_singleton.1 hb] at ha
          exact hnew ha⟩

/-- To wake another leaves the worker that runs as it is. -/
lemma Sound.worker_wakeNext (h : Sound settings (some j) σ) (resource : Resource) :
    (σ.wakeNext resource).worker j = σ.worker j := by
  rcases wakeNext_cases σ resource with heq | ⟨k, p, hk, -, -, -, -, -, heq⟩
  · rw [heq]
  · rw [heq]
    have hne : j ≠ k := fun e => (h.waiters resource k hk).1 (congrArg some e.symm)
    exact Function.update_of_ne hne _ _

lemma jobs_wakeNext (σ : Service) (resource : Resource) : (σ.wakeNext resource).jobs = σ.jobs := by
  rcases wakeNext_cases σ resource with heq | ⟨k, p, -, -, -, -, -, -, heq⟩
  · rw [heq]
  · rw [heq]
    rfl

lemma resource_congr {σ' : Service} (h : σ'.jobs = σ.jobs) (k : ℕ) (q : Permit) : σ'.resource k q = σ.resource k q := by
  unfold Service.resource
  rw [h]

namespace Between

lemma wakeNext (h : Between settings σ j held) (resource : Resource) : Between settings (σ.wakeNext resource) j held where
  sound := h.sound.wakeNext resource
  here := by
    rw [jobs_wakeNext]
    exact h.here
  held := by
    rw [h.sound.worker_wakeNext]
    exact h.held

lemma wakeAll (h : Between settings σ j held) (resource : Resource) (n : ℕ) :
    Between settings (Service.wakeAll resource n σ) j held := by
  induction n generalizing σ with
  | zero => exact h
  | succ n ih => exact ih (h.wakeNext resource)

lemma take (h : Between settings σ j held) (hp : held p = false) (hopen : σ.locked (σ.resource j p) = false) :
    Between settings (σ.take j p) j (Function.update held p true) where
  sound := by
    refine h.sound.take h.here (h.held ▸ hp) (fun hvalue => ?_) (.inl rfl)
    unfold Service.locked at hopen
    rw [hvalue] at hopen
    cases hopen
  here := h.here
  held := by
    show (Function.update σ.worker j _ j).held = _
    rw [Function.update_self]
    show Function.update (σ.worker j).held p true = _
    rw [h.held]

lemma giveBack (h : Between settings σ j held) (hp : held p = true) :
    Between settings (σ.giveBack j p) j (Function.update held p false) where
  sound :=
    { capacity := fun resource => by
        have hcard := card_holders_giveBack h.here (h.held ▸ hp) resource
        rw [value_giveBack, ← h.sound.capacity resource, ← hcard]
        omega
      agrees := fun k hk q hq => by
        rw [phase_giveBack] at hq ⊢
        rw [held_giveBack, if_neg fun e => hk (congrArg some e.1)]
        exact h.sound.agrees k hk q hq
      waiters := fun resource k hk => by
        rw [waiters_giveBack] at hk
        obtain ⟨hne, hcount, q, hq, hr⟩ := h.sound.waiters resource k hk
        exact ⟨hne, hcount, q, (phase_giveBack σ j p k).trans hq, hr⟩
      waiters_nodup := fun resource => by
        rw [waiters_giveBack]
        exact h.sound.waiters_nodup resource
      ready := fun x hx => by
        obtain ⟨hne, hcount, hslot⟩ := h.sound.ready x hx
        have hworker : (σ.giveBack j p).worker x.1 = σ.worker x.1 :=
          Function.update_of_ne (fun e => hne (congrArg some e)) _ _
        rw [hworker]
        exact ⟨hne, hcount, hslot⟩
      ready_nodup := h.sound.ready_nodup
      unborn := fun k hk => (phase_giveBack σ j p k).trans (h.sound.unborn k hk)
      tasks := h.sound.tasks }
  here := h.here
  held := by
    show (Function.update σ.worker j _ j).held = _
    rw [Function.update_self]
    show Function.update (σ.worker j).held p false = _
    rw [h.held]

lemma release (h : Between settings σ j held) (hp : held p = true) :
    Between settings (σ.release j p) j (Function.update held p false) :=
  (h.giveBack hp).wakeNext _

end Between

/-! ### What does not touch permits -/

lemma servers_setState (r : JobRegistry) (j : ℕ) (state : TransferState) (k : ℕ) :
    ((r.setState j state).job k).source_server_id = (r.job k).source_server_id ∧
      ((r.setState j state).job k).target_server_id = (r.job k).target_server_id := by
  unfold JobRegistry.setState
  by_cases hk : k = j
  · subst hk
    dsimp only
    rw [Function.update_self]
    exact ⟨rfl, rfl⟩
  · dsimp only
    rw [Function.update_of_ne hk]
    exact ⟨rfl, rfl⟩

lemma job_releaseTargetLock (r : JobRegistry) (j : ℕ) : (r.releaseTargetLock j).job = r.job ∧
    (r.releaseTargetLock j).count = r.count ∧ (r.releaseTargetLock j).tasks = r.tasks := by
  unfold JobRegistry.releaseTargetLock
  split
  · exact ⟨rfl, rfl, rfl⟩
  · exact ⟨rfl, rfl, rfl⟩

/-- A transition keeps the jobs but for the state of one. -/
lemma job_transition (r : JobRegistry) (limit j : ℕ) (state : TransferState) :
    (r.transition limit j state).job = (r.setState j state).job ∧ (r.transition limit j state).count = r.count ∧
      (r.transition limit j state).tasks = r.tasks := by
  unfold JobRegistry.transition
  split
  · exact job_releaseTargetLock (r.setState j state) j
  · exact ⟨rfl, rfl, rfl⟩

/-- The servers of the jobs, and how many there are, stay. -/
structure SameServers (r r' : JobRegistry) : Prop where
  count : r'.count = r.count
  source : ∀ k, (r'.job k).source_server_id = (r.job k).source_server_id
  target : ∀ k, (r'.job k).target_server_id = (r.job k).target_server_id
  tasks : r'.tasks = r.tasks

lemma sameServers_transition (r : JobRegistry) (limit j : ℕ) (state : TransferState) :
    SameServers r (r.transition limit j state) where
  count := (job_transition r limit j state).2.1
  source k := by
    rw [(job_transition r limit j state).1]
    exact (servers_setState r j state k).1
  target k := by
    rw [(job_transition r limit j state).1]
    exact (servers_setState r j state k).2
  tasks := (job_transition r limit j state).2.2

lemma sameServers_assign (r : JobRegistry) (j : ℕ) (strategy : TransferStrategy) :
    SameServers r { r with job := Function.update r.job j { r.job j with strategy_used := some strategy } } where
  count := rfl
  source k := by
    by_cases hk : k = j
    · subst hk
      dsimp only
      rw [Function.update_self]
    · dsimp only
      rw [Function.update_of_ne hk]
  target k := by
    by_cases hk : k = j
    · subst hk
      dsimp only
      rw [Function.update_self]
    · dsimp only
      rw [Function.update_of_ne hk]
  tasks := rfl

lemma SameServers.resource_eq {r : JobRegistry} (h : SameServers σ.jobs r) (k : ℕ) (q : Permit) :
    ({ σ with jobs := r } : Service).resource k q = σ.resource k q := by
  cases q with
  | overall => rfl
  | source => exact congrArg Resource.server (h.source k)
  | target => exact congrArg Resource.server (h.target k)

lemma Sound.jobs (h : Sound settings exempt σ) {r : JobRegistry} (hr : SameServers σ.jobs r) :
    Sound settings exempt { σ with jobs := r } where
  capacity resource := by
    have hholders : ({ σ with jobs := r } : Service).holders resource = σ.holders resource := by
      ext x
      rw [mem_holders, mem_holders, hr.resource_eq]
      show x.1 < r.count ∧ _ ↔ _
      rw [hr.count]
    rw [hholders]
    exact h.capacity resource
  agrees := h.agrees
  waiters resource k hk := by
    obtain ⟨hne, hcount, q, hq, hres⟩ := h.waiters resource k hk
    exact ⟨hne, hr.count ▸ hcount, q, hq, (hr.resource_eq k q).trans hres⟩
  waiters_nodup := h.waiters_nodup
  ready x hx := by
    obtain ⟨hne, hcount, hslot⟩ := h.ready x hx
    exact ⟨hne, hr.count ▸ hcount, hslot⟩
  ready_nodup := h.ready_nodup
  unborn k hk := h.unborn k (hr.count ▸ hk)
  tasks k hk := by
    rw [hr.count]
    rw [hr.tasks] at hk
    exact h.tasks k hk

lemma Between.jobs (h : Between settings σ j held) {r : JobRegistry} (hr : SameServers σ.jobs r) :
    Between settings { σ with jobs := r } j held :=
  ⟨h.sound.jobs hr, hr.count ▸ h.here, h.held⟩

lemma Between.transition (h : Between settings σ j held) (state : TransferState) :
    Between settings (σ.transition settings j state) j held :=
  h.jobs (sameServers_transition σ.jobs _ j state)

/-- The rest of the service says nothing about permits. -/
lemma Sound.rest (h : Sound settings exempt σ) (cancel_events : Dict ℕ Bool) (placements : List ℕ) (stopped : Bool) :
    Sound settings exempt { σ with cancel_events, placements, stopped } :=
  ⟨h.capacity, h.agrees, h.waiters, h.waiters_nodup, h.ready, h.ready_nodup, h.unborn, h.tasks⟩

/-! ### A worker comes to its next await -/

lemma worker_setPhase (σ : Service) (j : ℕ) (phase : Phase) (k : ℕ) :
    (σ.setPhase j phase).worker k = if k = j then { σ.worker j with phase } else σ.worker k := by
  show Function.update σ.worker j _ k = _
  split
  · rename_i hk
    rw [hk, Function.update_self]
  · rename_i hk
    rw [Function.update_of_ne hk]

lemma held_setPhase (σ : Service) (j : ℕ) (phase : Phase) (k : ℕ) :
    ((σ.setPhase j phase).worker k).held = (σ.worker k).held := by
  rw [worker_setPhase]
  split
  · rename_i hk
    rw [hk]
  · rfl

/-- What agrees with the phase it is suspended in. -/
lemma Between.setPhase (h : Between settings σ j held) {phase : Phase}
    (hphase : ∀ p, phase ≠ .slot p → held p = phase.holds p) : Sound settings none (σ.setPhase j phase) := by
  have hother : ∀ k, some k ≠ some j → (σ.setPhase j phase).worker k = σ.worker k := by
    intro k hk
    rw [worker_setPhase, if_neg fun e => hk (congrArg some e)]
  constructor
  · intro resource
    have hholders : (σ.setPhase j phase).holders resource = σ.holders resource := by
      ext x
      rw [mem_holders, mem_holders, held_setPhase]
      exact Iff.rfl
    rw [hholders]
    exact h.sound.capacity resource
  · intro k _ q hq
    rw [held_setPhase]
    by_cases hk : k = j
    · rw [worker_setPhase, if_pos hk] at hq ⊢
      rw [hk, h.held]
      exact hphase q hq
    · have hk : some k ≠ some j := fun e => hk (Option.some.inj e)
      rw [hother k hk] at hq ⊢
      exact h.sound.agrees k hk q hq
  · intro resource k hk
    obtain ⟨hne, hcount, q, hq, hr⟩ := h.sound.waiters resource k hk
    rw [hother k hne]
    exact ⟨Option.some_ne_none k, hcount, q, hq, hr⟩
  · exact h.sound.waiters_nodup
  · intro x hx
    obtain ⟨hne, hcount, hlive, hslot⟩ := h.sound.ready x hx
    rw [hother x.1 hne]
    exact ⟨Option.some_ne_none _, hcount, hlive, hslot⟩
  · exact h.sound.ready_nodup
  · intro k hk
    rw [hother k fun e => Nat.lt_irrefl j (h.here.trans_le (Option.some.inj e ▸ hk))]
    exact h.sound.unborn k hk
  · exact h.sound.tasks

lemma Between.suspend {phase : Phase} (h : Between settings σ j phase.holds) :
    Sound settings none (σ.setPhase j phase) :=
  h.setPhase fun _ _ => rfl

lemma waiters_park (σ : Service) (j : ℕ) (p : Permit) (resource : Resource) :
    ((σ.park j p).semaphore resource).waiters =
      if resource = σ.resource j p then (σ.semaphore resource).waiters ++ [j] else (σ.semaphore resource).waiters := by
  show (Function.update σ.semaphore _ _ resource).waiters = _
  split
  · rename_i hr
    rw [hr, Function.update_self]
  · rename_i hr
    rw [Function.update_of_ne hr]

lemma value_park (σ : Service) (j : ℕ) (p : Permit) (resource : Resource) :
    ((σ.park j p).semaphore resource).value = (σ.semaphore resource).value := by
  show (Function.update σ.semaphore _ _ resource).value = _
  by_cases hr : resource = σ.resource j p
  · rw [hr, Function.update_self]
  · rw [Function.update_of_ne hr]

/-- A worker joins the waiters. -/
lemma Between.park {p : Permit} (h : Between settings σ j p.before) : Sound settings none (σ.park j p) := by
  have hs : Sound settings none (σ.setPhase j (.slot p)) := Between.suspend h
  refine ⟨fun resource => ?_, hs.agrees, fun resource k hk => ?_, fun resource => ?_, hs.ready, hs.ready_nodup,
    hs.unborn, hs.tasks⟩
  · rw [value_park]
    exact hs.capacity resource
  · rw [waiters_park] at hk
    split at hk
    · rename_i hr
      rcases List.mem_append.1 hk with hk | hk
      · exact hs.waiters resource k hk
      · obtain rfl := List.mem_singleton.1 hk
        refine ⟨Option.some_ne_none k, h.here, p, ?_, hr.symm⟩
        exact (congrArg Worker.phase (worker_setPhase _ k (.slot p) k)).trans (by rw [if_pos rfl])
    · exact hs.waiters resource k hk
  · rw [waiters_park]
    split
    · refine List.nodup_append.2 ⟨h.sound.waiters_nodup resource, List.nodup_singleton j, fun a ha b hb e => ?_⟩
      rw [e, List.mem_singleton.1 hb] at ha
      exact (h.sound.waiters resource j ha).1 rfl
    · exact h.sound.waiters_nodup resource

/-- Whatever a worker does up to its next await, its permits add up. -/
theorem Between.stretch {σ' : Service} {stage : Stage} (h : Between settings σ j held)
    (hs : Stretch settings j stage held σ σ') : Sound settings none σ' := by
  induction hs with
  | transition state _ ih => exact ih (h.transition state)
  | assign strategy _ ih => exact ih (h.jobs (sameServers_assign _ j strategy))
  | record _ ih => exact ih ⟨h.sound.rest _ _ _, h.here, h.held⟩
  | take p _ hopen _ ih => exact ih (p.update_before ▸ h.take p.before_self hopen)
  | park p _ _ => exact h.park
  | leave _ ih => exact ih h
  | release p _ ih => exact ih (p.update_upTo ▸ h.release p.upTo_self)
  | suspend phase _ => exact h.suspend
  | finish => exact @Between.suspend _ _ _ .finished ⟨h.sound.rest _ _ _, h.here, h.held⟩

/-! ### A worker is resumed -/

lemma Sound.pop (h : Sound settings none σ) {answer : Answer} {rest : List (ℕ × Answer)}
    (hr : σ.ready = (j, answer) :: rest) :
    Sound settings none { σ with ready := rest } ∧ j < σ.jobs.count ∧ j ∉ rest.map Prod.fst := by
  have hnodup := h.ready_nodup
  rw [hr, List.map_cons, List.nodup_cons] at hnodup
  refine ⟨⟨h.capacity, h.agrees, h.waiters, h.waiters_nodup, fun x hx => ?_, hnodup.2, h.unborn, h.tasks⟩, ?_, hnodup.1⟩
  · exact h.ready x (hr ▸ List.mem_cons_of_mem _ hx)
  · exact (h.ready (j, answer) (hr ▸ List.mem_cons_self)).2.1

/-- A worker that waits for no permit leaves no trace in the semaphores. -/
lemma Sound.enter (h : Sound settings none σ) (hj : j < σ.jobs.count) (hnot : j ∉ σ.ready.map Prod.fst)
    (hphase : ∀ p, (σ.worker j).phase ≠ .slot p) : Between settings σ j (σ.worker j).phase.holds where
  sound :=
    { capacity := h.capacity
      agrees := fun k _ => h.agrees k (Option.some_ne_none k)
      waiters := fun resource k hk => by
        obtain ⟨-, hcount, p, hp, hres⟩ := h.waiters resource k hk
        refine ⟨fun e => ?_, hcount, p, hp, hres⟩
        rw [Option.some.inj e] at hp
        exact hphase p hp
      waiters_nodup := h.waiters_nodup
      ready := fun x hx => by
        refine ⟨fun e => ?_, (h.ready x hx).2⟩
        rw [← Option.some.inj e] at hnot
        exact hnot (List.mem_map_of_mem hx)
      ready_nodup := h.ready_nodup
      unborn := h.unborn
      tasks := h.tasks }
  here := hj
  held := funext fun p => h.agrees j (Option.some_ne_none j) p (hphase p)

lemma waiters_unpark (σ : Service) (j : ℕ) (p : Permit) (resource : Resource) :
    ((σ.unpark j p).semaphore resource).waiters = if resource = σ.resource j p then
      (σ.semaphore resource).waiters.erase j else (σ.semaphore resource).waiters := by
  show (Function.update σ.semaphore _ _ resource).waiters = _
  split
  · rename_i hr
    rw [hr, Function.update_self]
  · rename_i hr
    rw [Function.update_of_ne hr]

lemma value_unpark (σ : Service) (j : ℕ) (p : Permit) (resource : Resource) :
    ((σ.unpark j p).semaphore resource).value = (σ.semaphore resource).value := by
  show (Function.update σ.semaphore _ _ resource).value = _
  by_cases hr : resource = σ.resource j p
  · rw [hr, Function.update_self]
  · rw [Function.update_of_ne hr]

/-- What a worker in `acquire` holds. -/
lemma Sound.held_slot {exempt : Option ℕ} (h : Sound settings exempt σ) {p : Permit} (hj : some j ≠ exempt)
    (hphase : (σ.worker j).phase = .slot p) :
    (σ.worker j).held = if (σ.worker j).held p = true then p.upTo else p.before := by
  have hother : ∀ q, q ≠ p → (σ.worker j).held q = p.before q := by
    intro q hq
    rw [h.agrees j hj q (hphase ▸ fun e => hq (Phase.slot.inj e).symm), hphase]
    rfl
  funext q
  by_cases hq : q = p
  · rw [hq]
    split
    · rename_i hheld
      rw [hheld, p.upTo_self]
    · rename_i hheld
      rw [p.before_self]
      exact Bool.not_eq_true _ ▸ hheld
  · rw [hother q hq]
    split
    · rw [← p.update_before, Function.update_of_ne hq]
    · rfl

/-- A worker that waits for a permit leaves the waiters. -/
lemma Sound.enterSlot (h : Sound settings none σ) {p : Permit} (hj : j < σ.jobs.count)
    (hnot : j ∉ σ.ready.map Prod.fst) (hphase : (σ.worker j).phase = .slot p) :
    Between settings (σ.unpark j p) j (if (σ.worker j).held p = true then p.upTo else p.before) where
  sound :=
    { capacity := fun resource => by
        rw [value_unpark]
        exact h.capacity resource
      agrees := fun k _ => h.agrees k (Option.some_ne_none k)
      waiters := fun resource k hk => by
        rw [waiters_unpark] at hk
        have hmem : k ∈ (σ.semaphore resource).waiters := by
          split at hk
          · exact List.mem_of_mem_erase hk
          · exact hk
        obtain ⟨-, hcount, q, hq, hres⟩ := h.waiters resource k hmem
        refine ⟨fun e => ?_, hcount, q, hq, hres⟩
        obtain rfl := Option.some.inj e
        obtain rfl := Phase.slot.inj (hphase.symm.trans hq)
        rw [if_pos hres.symm] at hk
        exact List.Nodup.not_mem_erase (h.waiters_nodup resource) hk
      waiters_nodup := fun resource => by
        rw [waiters_unpark]
        split
        · exact (h.waiters_nodup resource).erase j
        · exact h.waiters_nodup resource
      ready := fun x hx => by
        refine ⟨fun e => ?_, (h.ready x hx).2⟩
        rw [← Option.some.inj e] at hnot
        exact hnot (List.mem_map_of_mem hx)
      ready_nodup := h.ready_nodup
      unborn := h.unborn
      tasks := h.tasks }
  here := hj
  held := h.held_slot (Option.some_ne_none j) hphase

lemma Between.wakeWaiters (h : Between settings σ j held) (resource : Resource) :
    Between settings (σ.wakeWaiters resource) j held :=
  h.wakeAll resource _

/-- A worker in `acquire` that gives its permit back, if it has one. -/
lemma Sound.enterAbandon (h : Sound settings none σ) {p : Permit} (hj : j < σ.jobs.count)
    (hnot : j ∉ σ.ready.map Prod.fst) (hphase : (σ.worker j).phase = .slot p) :
    Between settings (if (σ.worker j).held p = true then (σ.unpark j p).giveBack j p else σ.unpark j p) j p.before := by
  have hb := h.enterSlot hj hnot hphase
  split
  · rename_i hheld
    rw [if_pos hheld] at hb
    exact p.update_upTo ▸ hb.giveBack p.upTo_self
  · rename_i hheld
    rw [if_neg hheld] at hb
    exact hb

lemma Sound.enterPass (h : Sound settings none σ) {p : Permit} (hj : j < σ.jobs.count)
    (hnot : j ∉ σ.ready.map Prod.fst) (hphase : (σ.worker j).phase = .slot p) (hheld : (σ.worker j).held p = true) :
    Between settings (σ.unpark j p) j p.upTo := by
  have hb := h.enterSlot hj hnot hphase
  rw [if_pos hheld] at hb
  exact hb

lemma Sound.resumed {σ' : Service} {answer : Answer} (h : Sound settings none σ) (hj : j < σ.jobs.count)
    (hnot : j ∉ σ.ready.map Prod.fst) (hr : Resumed settings j answer σ σ') : Sound settings none σ' := by
  cases hr with
  | off hp =>
    have hb := h.enter hj hnot fun p e => Phase.noConfusion (hp.symm.trans e)
    rw [hp] at hb
    exact @Between.suspend _ _ _ .finished hb
  | on hphase hst => exact (h.enter hj hnot hphase).stretch hst
  | pass p _ hphase hheld hst => exact ((h.enterPass hj hnot hphase hheld).wakeWaiters _).stretch hst
  | abandon p hphase hst => exact ((h.enterAbandon hj hnot hphase).wakeWaiters _).stretch hst

lemma worker_setWorker (σ : Service) (j : ℕ) (w : Worker) (k : ℕ) :
    (σ.setWorker j w).worker k = if k = j then w else σ.worker k := by
  show Function.update σ.worker j w k = _
  split
  · rename_i hk
    rw [hk, Function.update_self]
  · rename_i hk
    rw [Function.update_of_ne hk]

/-- What a worker is told by `task.cancel()` has nothing to do with its permits. -/
lemma Sound.setInterrupted (h : Sound settings none σ) (b : Bool) (hb : b = true ∨ j ∉ σ.ready.map Prod.fst) :
    Sound settings none (σ.setWorker j { σ.worker j with interrupted := b }) := by
  have hphase : ∀ k, ((σ.setWorker j { σ.worker j with interrupted := b }).worker k).phase = (σ.worker k).phase := by
    intro k
    rw [worker_setWorker]
    split
    · rename_i hk
      rw [hk]
    · rfl
  have hheld : ∀ k, ((σ.setWorker j { σ.worker j with interrupted := b }).worker k).held = (σ.worker k).held := by
    intro k
    rw [worker_setWorker]
    split
    · rename_i hk
      rw [hk]
    · rfl
  constructor
  · intro resource
    have hholders : (σ.setWorker j { σ.worker j with interrupted := b }).holders resource = σ.holders resource := by
      ext x
      rw [mem_holders, mem_holders, hheld]
      exact Iff.rfl
    rw [hholders]
    exact h.capacity resource
  · intro k hk q hq
    rw [hphase] at hq ⊢
    rw [hheld]
    exact h.agrees k hk q hq
  · intro resource k hk
    obtain ⟨hne, hcount, p, hp, hres⟩ := h.waiters resource k hk
    exact ⟨hne, hcount, p, (hphase k).trans hp, hres⟩
  · exact h.waiters_nodup
  · intro x hx
    obtain ⟨hne, hcount, hlive, hslot⟩ := h.ready x hx
    rw [hphase, hheld]
    refine ⟨hne, hcount, hlive, fun p hp => ?_⟩
    rw [worker_setWorker]
    split
    · rename_i hk
      rcases hb with rfl | hnot
      · exact .inr rfl
      · exact absurd (List.mem_map.2 ⟨x, hx, hk⟩) hnot
    · exact hslot p hp
  · exact h.ready_nodup
  · intro k hk
    exact (hphase k).trans (h.unborn k hk)
  · exact h.tasks

/-- The worker is taken out of what is to be resumed, and told that it is interrupted, if it is. -/
def popped (σ : Service) (j : ℕ) (rest : List (ℕ × Answer)) : Service :=
  ({ σ with ready := rest } : Service).setWorker j { σ.worker j with interrupted := false }

lemma interrupted_popped (σ : Service) (j : ℕ) (rest : List (ℕ × Answer)) :
    ((σ.popped j rest).worker j).interrupted = false := by
  show (Function.update σ.worker j _ j).interrupted = _
  rw [Function.update_self]

lemma phase_popped (σ : Service) (j : ℕ) (rest : List (ℕ × Answer)) (k : ℕ) :
    ((σ.popped j rest).worker k).phase = (σ.worker k).phase := by
  show (Function.update σ.worker j _ k).phase = _
  by_cases hk : k = j
  · rw [hk, Function.update_self]
  · rw [Function.update_of_ne hk]

lemma held_popped (σ : Service) (j : ℕ) (rest : List (ℕ × Answer)) (k : ℕ) :
    ((σ.popped j rest).worker k).held = (σ.worker k).held := by
  show (Function.update σ.worker j _ k).held = _
  by_cases hk : k = j
  · rw [hk, Function.update_self]
  · rw [Function.update_of_ne hk]

/-- What the loop does in one turn. -/
lemma Sound.run_cases (h : Sound settings none σ) (fault : Option Fault) :
    σ.ready = [] ∧ σ.run settings fault = σ ∨
      ∃ j x rest answer, σ.ready = (j, x) :: rest ∧ j < σ.jobs.count ∧ j ∉ rest.map Prod.fst ∧
        Sound settings none (σ.popped j rest) ∧
        ((σ.worker j).interrupted = true → answer = .raised .cancelled) ∧
        Resumed settings j answer (σ.popped j rest) (σ.run settings fault) := by
  cases hr : σ.ready with
  | nil =>
    refine .inl ⟨rfl, ?_⟩
    unfold Service.run
    rw [hr]
  | cons x rest =>
    obtain ⟨j, answer⟩ := x
    obtain ⟨hpop, hj, hnot⟩ := h.pop hr
    obtain ⟨-, -, hlive, hslot⟩ := h.ready (j, answer) (hr ▸ List.mem_cons_self)
    have hlive₀ : ((σ.popped j rest).worker j).phase ≠ .finished := by
      rw [phase_popped]
      exact hlive
    refine .inr ⟨j, answer, rest, if (σ.worker j).interrupted = true then .raised .cancelled else answer, rfl, hj, hnot,
      hpop.setInterrupted false (.inr hnot), fun hi => if_pos hi, ?_⟩
    unfold Service.run
    rw [hr]
    dsimp only
    by_cases hi : (σ.worker j).interrupted = true
    · rw [if_pos hi, if_pos hi]
      exact resumed_resume hlive₀ (fun _ _ => .inr ⟨.cancelled, rfl⟩) fault
    · rw [if_neg hi, if_neg hi]
      have hsame : ({ σ with ready := rest } : Service) = σ.popped j rest := by
        have hw : { σ.worker j with interrupted := false } = σ.worker j := by
          rw [← (Bool.eq_false_of_not_eq_true hi : (σ.worker j).interrupted = false)]
        unfold popped setWorker
        rw [hw, Function.update_eq_self]
      rw [hsame]
      refine resumed_resume hlive₀ (fun p hp => .inl ?_) fault
      rw [phase_popped] at hp
      rw [held_popped]
      exact (hslot p hp).resolve_right hi

lemma Sound.run (h : Sound settings none σ) (fault : Option Fault) : Sound settings none (σ.run settings fault) := by
  rcases h.run_cases fault with ⟨-, heq⟩ | ⟨j, -, rest, answer, -, hj, hnot, hs, -, hr⟩
  · rw [heq]
    exact h
  · exact hs.resumed hj hnot hr

/-! ### The other events -/

/-- What the worker awaits comes in. -/
lemma Sound.push (h : Sound settings none σ) (hj : j < σ.jobs.count) (hlive : (σ.worker j).phase ≠ .finished)
    (hnot : j ∉ σ.ready.map Prod.fst)
    (hslot : ∀ p, (σ.worker j).phase = .slot p → (σ.worker j).held p = true ∨ (σ.worker j).interrupted = true)
    (answer : Answer) : Sound settings none { σ with ready := σ.ready ++ [(j, answer)] } where
  capacity := h.capacity
  agrees := h.agrees
  waiters := h.waiters
  waiters_nodup := h.waiters_nodup
  ready x hx := by
    rcases List.mem_append.1 hx with hx | hx
    · exact h.ready x hx
    · obtain rfl := List.mem_singleton.1 hx
      exact ⟨Option.some_ne_none j, hj, hlive, hslot⟩
  ready_nodup := by
    show ((σ.ready ++ [(j, answer)]).map Prod.fst).Nodup
    rw [List.map_append, List.map_singleton]
    refine List.nodup_append.2 ⟨h.ready_nodup, List.nodup_singleton j, fun a ha b hb e => ?_⟩
    rw [e, List.mem_singleton.1 hb] at ha
    exact hnot ha
  unborn := h.unborn
  tasks := h.tasks

lemma Sound.interrupt (h : Sound settings none σ) (hj : j < σ.jobs.count) :
    Sound settings none (σ.interrupt j) := by
  unfold Service.interrupt
  split
  · exact h
  · rename_i hlive
    have hi := h.setInterrupted (j := j) true (.inl rfl)
    dsimp only
    split
    · rename_i hwaiting
      refine hi.push hj ?_ ?_ (fun _ _ => .inr ?_) _
      · rw [worker_setWorker, if_pos rfl]
        exact fun e => hlive (.inl e)
      · rw [Bool.not_eq_true', List.contains_eq_mem, decide_eq_false_iff_not] at hwaiting
        exact hwaiting
      · rw [worker_setWorker, if_pos rfl]
    · exact hi

lemma jobs_interrupt (σ : Service) (j : ℕ) : (σ.interrupt j).jobs = σ.jobs := by
  unfold Service.interrupt
  split
  · rfl
  · dsimp only
    split
    · rfl
    · rfl

lemma Sound.interruptAll (tasks : List ℕ) : ∀ σ : Service, Sound settings none σ →
    (∀ j ∈ tasks, j < σ.jobs.count) → Sound settings none (tasks.foldl Service.interrupt σ) := by
  induction tasks with
  | nil => exact fun _ h _ => h
  | cons j tasks ih =>
    intro σ h htasks
    refine ih _ (h.interrupt (htasks j List.mem_cons_self)) fun k hk => ?_
    rw [jobs_interrupt]
    exact htasks k (List.mem_cons_of_mem _ hk)

/-- Only a worker that is suspended at an await of the environment is answered. -/
lemma phase_of_admits {answer : Answer} (h : σ.admits j answer = true) : (σ.worker j).phase.awaits = true := by
  unfold admits at h
  cases hp : (σ.worker j).phase with
  | start => rw [hp] at h; cases answer <;> cases h
  | slot p => rw [hp] at h; cases answer <;> cases h
  | finished => rw [hp] at h; cases answer <;> cases h
  | _ => rfl

lemma Sound.complete (h : Sound settings none σ) (answer : Answer) (hadmits : σ.admits j answer = true)
    (hnot : j ∉ σ.ready.map Prod.fst) : Sound settings none { σ with ready := σ.ready ++ [(j, answer)] } := by
  have hawaits := phase_of_admits hadmits
  have hborn : j < σ.jobs.count := by
    by_contra hge
    rw [h.unborn j (Nat.le_of_not_lt hge)] at hawaits
    cases hawaits
  refine h.push hborn (fun e => ?_) hnot (fun p hp => ?_) answer
  · rw [e] at hawaits
    cases hawaits
  · rw [hp] at hawaits
    cases hawaits

lemma sameServers_trans {r r' r'' : JobRegistry} (h : SameServers r r') (h' : SameServers r' r'') : SameServers r r'' :=
  ⟨h'.count.trans h.count, fun k => (h'.source k).trans (h.source k), fun k => (h'.target k).trans (h.target k),
    h'.tasks.trans h.tasks⟩

lemma sameServers_cancelLoop (r : JobRegistry) (limit : ℕ) (jobs : List ℕ) :
    SameServers r (r.cancelLoop limit jobs).1 := by
  induction jobs with
  | nil => exact ⟨rfl, fun _ => rfl, fun _ => rfl, rfl⟩
  | cons j jobs ih =>
    rw [JobRegistry.cancelLoop]
    split
    · exact sameServers_transition r limit j .cancelled
    · exact ih

lemma Sound.stop (h : Sound settings none σ) : Sound settings none (σ.stop settings).1 := by
  have hcancelled := (h.jobs (sameServers_cancelLoop σ.jobs settings.transfer_job_history σ.jobs.active)).rest
    σ.cancel_events σ.placements true
  unfold Service.stop
  dsimp only
  split
  · exact hcancelled
  · exact Sound.interruptAll _ _ (hcancelled.rest _ _ _) fun k hk => hcancelled.tasks k hk

lemma Sound.cancel (h : Sound settings none σ) (j : ℕ) : Sound settings none (σ.cancel settings j) := by
  have hcancelled : Sound settings none (σ.transition settings j .cancelled) :=
    h.jobs (sameServers_transition σ.jobs _ j .cancelled)
  unfold Service.cancel
  split
  · exact h
  · split
    · exact h
    · dsimp only
      split
      · exact hcancelled.rest _ _ _
      · exact hcancelled

/-- A new job holds nothing, and its worker starts. -/
lemma Sound.create (h : Sound settings none σ) (source target path : Text) :
    Sound settings none (σ.create source target path) := by
  unfold Service.create
  dsimp only
  split
  · exact h
  split
  · exact h
  split
  · exact h
  generalize hjob : ({ source_server_id := source, target_server_id := target, target_path := path } : TransferJob) = job
  have hworker : ∀ k, k ≠ σ.jobs.count → Function.update σ.worker σ.jobs.count {} k = σ.worker k :=
    fun k hk => Function.update_of_ne hk _ _
  have hresource : ∀ k, k ≠ σ.jobs.count → ∀ q (σ' : Service), σ'.jobs = σ.jobs.create job →
      σ'.resource k q = σ.resource k q := by
    intro k hk q σ' hσ
    have hsame : (σ.jobs.create job).job k = σ.jobs.job k := Function.update_of_ne hk _ _
    unfold Service.resource
    rw [hσ, hsame]
  have hold : ∀ k, k < σ.jobs.count → k ≠ σ.jobs.count := fun k hk => Nat.ne_of_lt hk
  have hnew : σ.jobs.count ∉ σ.ready.map Prod.fst := by
    intro hm
    obtain ⟨x, hx, he⟩ := List.mem_map.1 hm
    exact hold x.1 (h.ready x hx).2.1 he
  refine ⟨fun resource => ?_, fun k _ q hq => ?_, fun resource k hk => ?_, h.waiters_nodup, fun x hx => ?_, ?_,
    fun k hk => ?_, fun k hk => ?_⟩
  · rw [← h.capacity resource]
    congr 2
    ext ⟨k, q⟩
    rw [mem_holders, mem_holders]
    show k < σ.jobs.count + 1 ∧ (Function.update σ.worker σ.jobs.count {} k).held q = true ∧ _ ↔ _
    by_cases hk : k = σ.jobs.count
    · rw [hk, Function.update_self]
      exact ⟨fun h => absurd h.2.1 Bool.false_ne_true, fun h => absurd h.1 (lt_irrefl _)⟩
    · rw [hworker k hk, hresource k hk q _ rfl]
      exact and_congr_left fun _ => ⟨fun hlt => lt_of_le_of_ne (Nat.le_of_lt_succ hlt) hk, Nat.lt_succ_of_lt⟩
  · show (Function.update σ.worker σ.jobs.count {} k).held q = (Function.update σ.worker σ.jobs.count {} k).phase.holds q
    by_cases hk : k = σ.jobs.count
    · rw [hk, Function.update_self]
      rfl
    · rw [hworker k hk]
      refine h.agrees k (Option.some_ne_none k) q fun e => hq ?_
      show (Function.update σ.worker σ.jobs.count {} k).phase = _
      rw [hworker k hk, e]
  · obtain ⟨hne, hcount, p, hp, hres⟩ := h.waiters resource k hk
    refine ⟨hne, Nat.lt_succ_of_lt hcount, p, ?_, ?_⟩
    · show (Function.update σ.worker σ.jobs.count {} k).phase = _
      rw [hworker k (hold k hcount), hp]
    · rw [hresource k (hold k hcount) p _ rfl, hres]
  · show _ ∧ _ ∧ (Function.update σ.worker σ.jobs.count {} x.1).phase ≠ _ ∧ ∀ p,
      (Function.update σ.worker σ.jobs.count {} x.1).phase = _ → (Function.update σ.worker σ.jobs.count {} x.1).held p = true ∨
        (Function.update σ.worker σ.jobs.count {} x.1).interrupted = true
    rcases List.mem_append.1 hx with hx | hx
    · obtain ⟨hne, hcount, hrest⟩ := h.ready x hx
      rw [hworker x.1 (hold x.1 hcount)]
      exact ⟨hne, Nat.lt_succ_of_lt hcount, hrest⟩
    · obtain rfl := List.mem_singleton.1 hx
      rw [Function.update_self]
      exact ⟨Option.some_ne_none _, Nat.lt_succ_self _, Phase.noConfusion, fun p hp => Phase.noConfusion hp⟩
  · show ((σ.ready ++ [(σ.jobs.count, Answer.done)]).map Prod.fst).Nodup
    rw [List.map_append, List.map_singleton]
    refine List.nodup_append.2 ⟨h.ready_nodup, List.nodup_singleton _, fun a ha b hb e => ?_⟩
    rw [e, List.mem_singleton.1 hb] at ha
    exact hnew ha
  · show (Function.update σ.worker σ.jobs.count {} k).phase = _
    have hk : σ.jobs.count + 1 ≤ k := hk
    rw [hworker k (by omega)]
    exact h.unborn k (Nat.le_of_succ_le hk)
  · rcases List.mem_append.1 (show k ∈ σ.jobs.tasks ++ [σ.jobs.count] from hk) with hk | hk
    · exact Nat.lt_succ_of_lt (h.tasks k hk)
    · rw [List.mem_singleton.1 hk]
      exact Nat.lt_succ_self _

/-! ### Whole runs -/

lemma sound_init (settings : Settings) : Sound settings none (Service.init settings) where
  capacity resource := by
    have hnone : (Service.init settings).holders resource = ∅ := by
      ext x
      rw [mem_holders]
      exact ⟨fun h => absurd h.1 (Nat.not_lt_zero _), fun h => absurd h (Finset.notMem_empty x)⟩
    rw [hnone]
    rfl
  agrees _ _ _ _ := rfl
  waiters _ _ hk := absurd hk List.not_mem_nil
  waiters_nodup _ := List.nodup_nil
  ready _ hx := absurd hx List.not_mem_nil
  ready_nodup := List.nodup_nil
  unborn _ _ := rfl
  tasks _ hk := absurd hk List.not_mem_nil

lemma Sound.step (h : Sound settings none σ) (e : Event) : Sound settings none (σ.step settings e) := by
  cases e with
  | create source target path => exact h.create source target path
  | cancel j => exact h.cancel j
  | clearHistory => exact h.jobs ⟨rfl, fun _ => rfl, fun _ => rfl, rfl⟩
  | stop => exact h.stop
  | complete j answer =>
    unfold Service.step
    dsimp only
    split
    · rename_i hok
      rw [Bool.and_eq_true, Bool.not_eq_true', List.contains_eq_mem, decide_eq_false_iff_not] at hok
      exact h.complete answer hok.1 hok.2
    · exact h
  | run fault => exact h.run fault

/-- The service after some events. -/
def after (settings : Settings) (events : List Event) : Service :=
  Machine.after (fun σ e => σ.step settings e) (Service.init settings) events

/-- Whatever happens, in whatever order. -/
lemma sound_after (settings : Settings) (events : List Event) : Sound settings none (after settings events) :=
  Machine.inv_after (sound_init settings) fun _ e h => h.step e

/-- The workers that copy from a server or to it. -/
def copiers (σ : Service) (server_id : Text) : Finset ℕ :=
  (Finset.range σ.jobs.count).filter fun j => (σ.worker j).phase.holds .target = true ∧
    ((σ.jobs.job j).source_server_id = server_id ∨ (σ.jobs.job j).target_server_id = server_id)

/-- Every copy has a permit of each of its servers. -/
lemma Sound.card_copiers (h : Sound settings none σ) (server_id : Text) :
    (σ.copiers server_id).card ≤ (σ.holders (.server server_id)).card := by
  refine Finset.card_le_card_of_injOn
    (fun j => (j, if (σ.jobs.job j).source_server_id = server_id then .source else .target)) (fun j hj => ?_)
    fun j _ k _ e => congrArg Prod.fst e
  obtain ⟨hborn, hcopies, hserver⟩ := Finset.mem_filter.1 hj
  have hholds : ∀ p, (σ.worker j).held p = true := by
    intro p
    have hslot : ∀ q, (σ.worker j).phase ≠ .slot q := by
      intro q hq
      rw [hq] at hcopies
      cases q <;> cases hcopies
    rw [h.agrees j (Option.some_ne_none j) p (hslot p)]
    cases hp : (σ.worker j).phase with
    | start => rw [hp] at hcopies; cases hcopies
    | finished => rw [hp] at hcopies; cases hcopies
    | planning => rw [hp] at hcopies; cases hcopies
    | preflight => rw [hp] at hcopies; cases hcopies
    | verifying => rw [hp] at hcopies; cases hcopies
    | slot q => exact absurd hp (hslot q)
    | _ => rfl
  refine mem_holders.2 ⟨Finset.mem_range.1 hborn, hholds _, ?_⟩
  dsimp only
  split
  · rename_i hsource
    exact congrArg Resource.server hsource
  · rename_i hsource
    exact congrArg Resource.server (hserver.resolve_left hsource)

/-- No permit is ever lost or made, whatever is cancelled, fails or is stopped: the free permits of a semaphore and
those that are held add up to what the settings say, every worker holds exactly those of the place it is suspended at,
a worker that is done holds none, and no server is copied from or to by more workers than it has slots. -/
theorem permits_accounted (settings : Settings) (events : List Event) :
    (∀ resource, ((after settings events).semaphore resource).value + ((after settings events).holders resource).card =
      settings.capacity resource) ∧
    (∀ j p, ((after settings events).worker j).phase ≠ .slot p →
      ((after settings events).worker j).held p = ((after settings events).worker j).phase.holds p) ∧
    ∀ server_id, ((after settings events).copiers server_id).card ≤ settings.max_transfers_per_server := by
  have h := sound_after settings events
  refine ⟨h.capacity, fun j p hp => h.agrees j (Option.some_ne_none j) p hp, fun server_id => ?_⟩
  have hcard := h.card_copiers server_id
  have hcapacity := h.capacity (.server server_id)
  have hslots : settings.capacity (.server server_id) = settings.max_transfers_per_server := rfl
  omega

end Service
end SshGpuConsole.Transfers
