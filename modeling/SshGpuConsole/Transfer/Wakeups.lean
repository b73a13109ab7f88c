import SshGpuConsole.Transfer.Permits

/-!
# Wake-ups

No permit is left over while a worker waits for it: where a semaphore has a permit and a waiter, a worker that has
been handed one is about to be resumed, and passes on what is left (`Served`). So a loop with nothing to resume has
no free permit that is waited for.
-/

namespace SshGpuConsole.Transfers
open Shell (Text)
open Batch (TransferState)
open Workspace (TransferStrategy)

namespace Service

/-- The worker has the permit that it waited for, and has not been resumed. -/
def Woken (σ : Service) (k : ℕ) : Prop := ∃ p, (σ.worker k).phase = .slot p ∧ (σ.worker k).held p = true

/-- A permit that is waited for is about to be passed on. -/
def Served (σ : Service) (resource : Resource) : Prop :=
  (σ.semaphore resource).value ≠ 0 → ∀ k ∈ (σ.semaphore resource).waiters, σ.pending k resource = true →
    ∃ i ∈ (σ.semaphore resource).waiters, σ.Woken i

/-- Who waits for a permit is among the waiters, and who can go on is about to be resumed. -/
structure Told (exempt : Option ℕ) (σ : Service) : Prop where
  queued : ∀ k, some k ≠ exempt → ∀ p, (σ.worker k).phase = .slot p → k ∈ (σ.semaphore (σ.resource k p)).waiters
  told : ∀ k, some k ≠ exempt → ∀ p, (σ.worker k).phase = .slot p →
    (σ.worker k).held p = true ∨ (σ.worker k).interrupted = true → k ∈ σ.ready.map Prod.fst
  starting : ∀ k, some k ≠ exempt → k < σ.jobs.count → (σ.worker k).phase = .start → k ∈ σ.ready.map Prod.fst

/-- Nobody is forgotten; the worker that runs, if one does, has been told all there is to tell. -/
structure Live (exempt : Option ℕ) (σ : Service) : Prop where
  told : Told exempt σ
  served : ∀ resource, Served σ resource

variable {settings : Settings} {σ : Service} {j k : ℕ} {p : Permit} {resource : Resource} {exempt : Option ℕ}
  {held : Permit → Bool}

/-! ### Waiters -/

lemma pending_iff : σ.pending k resource = true ↔ ∃ p, (σ.worker k).phase = .slot p ∧ σ.resource k p = resource ∧
    (σ.worker k).held p = false ∧ (σ.worker k).interrupted = false := by
  unfold pending
  split
  · rename_i p hp
    rw [Bool.and_eq_true, Bool.and_eq_true, decide_eq_true_iff, Bool.not_eq_true', Bool.not_eq_true']
    constructor
    · exact fun h => ⟨p, hp, h.1.1, h.1.2, h.2⟩
    · rintro ⟨q, hq, h⟩
      obtain rfl := Phase.slot.inj (hp.symm.trans hq)
      exact ⟨⟨h.1, h.2.1⟩, h.2.2⟩
  · rename_i hnone
    exact iff_of_false Bool.false_ne_true fun ⟨q, hq, _⟩ => hnone q hq

/-- A waiter that is not gone has its permit, or waits for it. -/
lemma woken_or_pending (h : σ.gone k = false) (hr : ∀ p, (σ.worker k).phase = .slot p → σ.resource k p = resource) :
    σ.Woken k ∨ σ.pending k resource = true := by
  unfold gone at h
  split at h
  · rename_i p hp
    cases hheld : (σ.worker k).held p with
    | true => exact .inl ⟨p, hp, hheld⟩
    | false =>
      rw [hheld, Bool.not_false, Bool.true_and] at h
      exact .inr (pending_iff.2 ⟨p, hp, hr p hp, hheld, h⟩)
  · cases h

lemma gone_eq_false_of_pending (h : σ.pending k resource = true) : σ.gone k = false := by
  obtain ⟨p, hp, -, hheld, hi⟩ := pending_iff.1 h
  unfold gone
  rw [hp]
  dsimp only
  rw [hheld, hi]
  rfl

lemma not_pending_of_open (h : σ.locked resource = false) (hk : k ∈ (σ.semaphore resource).waiters) :
    σ.pending k resource = false := by
  unfold locked at h
  have hgone := List.any_eq_false.1 (Bool.or_eq_false_iff.1 h).2 k hk
  cases hp : σ.pending k resource with
  | false => rfl
  | true =>
    rw [gone_eq_false_of_pending hp] at hgone
    exact absurd rfl hgone

/-- Other workers are as they were. -/
lemma pending_congr {σ' : Service} (hw : σ'.worker k = σ.worker k) (hr : ∀ p, σ'.resource k p = σ.resource k p) :
    σ'.pending k resource = σ.pending k resource := by
  unfold pending
  rw [hw]
  split
  · rw [hr]
  · rfl

lemma woken_congr {σ' : Service} (hw : σ'.worker k = σ.worker k) : σ'.Woken k ↔ σ.Woken k := by
  unfold Woken
  rw [hw]

/-- What concerns neither the waiters nor their permits. -/
lemma Served.congr {σ' : Service} (h : Served σ resource)
    (hvalue : (σ'.semaphore resource).value ≠ 0 → (σ.semaphore resource).value ≠ 0)
    (hwaiters : (σ'.semaphore resource).waiters = (σ.semaphore resource).waiters)
    (hworker : ∀ k ∈ (σ.semaphore resource).waiters, σ'.worker k = σ.worker k)
    (hr : ∀ k ∈ (σ.semaphore resource).waiters, ∀ p, σ'.resource k p = σ.resource k p) : Served σ' resource := by
  intro hv k hk hp
  rw [hwaiters] at hk ⊢
  rw [pending_congr (hworker k hk) (hr k hk)] at hp
  obtain ⟨i, hi, hwoken⟩ := h (hvalue hv) k hk hp
  exact ⟨i, hi, (woken_congr (hworker i hi)).2 hwoken⟩

lemma Told.congr {σ' : Service} (h : Told exempt σ) (hworker : ∀ k, some k ≠ exempt → σ'.worker k = σ.worker k)
    (hwaiters : ∀ resource, ∀ k ∈ (σ.semaphore resource).waiters, some k ≠ exempt → k ∈ (σ'.semaphore resource).waiters)
    (hr : ∀ k p, σ'.resource k p = σ.resource k p) (hready : σ'.ready = σ.ready)
    (hcount : σ'.jobs.count = σ.jobs.count) : Told exempt σ' := by
  refine ⟨fun k hk p hp => ?_, fun k hk p hp hgo => ?_, fun k hk hborn hp => ?_⟩
  · rw [hworker k hk] at hp
    rw [hr]
    exact hwaiters _ k (h.queued k hk p hp) hk
  · rw [hworker k hk] at hp hgo
    rw [hready]
    exact h.told k hk p hp hgo
  · rw [hworker k hk] at hp
    rw [hready]
    exact h.starting k hk (hcount ▸ hborn) hp

/-! ### One semaphore -/

lemma worker_take_of_ne (h : k ≠ j) : (σ.take j p).worker k = σ.worker k := Function.update_of_ne h _ _

lemma worker_giveBack_of_ne (h : k ≠ j) : (σ.giveBack j p).worker k = σ.worker k := Function.update_of_ne h _ _

lemma interrupted_giveBack : ((σ.giveBack j p).worker k).interrupted = (σ.worker k).interrupted := by
  by_cases hk : k = j
  · rw [hk]
    show (Function.update σ.worker j _ j).interrupted = _
    rw [Function.update_self]
  · rw [worker_giveBack_of_ne hk]

/-- The worker that runs takes a permit. -/
lemma Live.take (h : Live (some j) σ) (hs : Sound settings (some j) σ) : Live (some j) (σ.take j p) where
  told := by
    refine h.told.congr (fun k hk => worker_take_of_ne fun e => hk (congrArg some e)) (fun resource k hk _ => ?_)
      (fun _ _ => rfl) rfl rfl
    rw [waiters_take]
    exact hk
  served resource := by
    have hworker : ∀ k ∈ (σ.semaphore resource).waiters, (σ.take j p).worker k = σ.worker k :=
      fun k hk => worker_take_of_ne fun e => (hs.waiters resource k hk).1 (congrArg some e)
    refine (h.served resource).congr (fun hv => ?_) (waiters_take σ j p resource) hworker fun _ _ _ => rfl
    rw [value_take] at hv
    omega

/-- To wake the next waiter passes a permit on. -/
lemma served_wakeNext (σ : Service) (resource : Resource) : Served (σ.wakeNext resource) resource := by
  unfold wakeNext
  split
  · rename_i hzero
    exact fun hv => absurd hzero hv
  · split
    · rename_i hnone
      intro _ k hk hp
      exact absurd hp (List.find?_eq_none.1 hnone k hk)
    · rename_i k hk
      have hpending : σ.pending k resource = true :=
        List.find?_some (p := fun k => σ.pending k resource) hk
      obtain ⟨p, hp, -, -, -⟩ := pending_iff.1 hpending
      have hawaited : σ.awaited k = some p := by
        unfold awaited
        rw [hp]
      rw [hawaited]
      intro _ _ _ _
      refine ⟨k, ?_, p, (phase_take σ k p k).trans hp, (held_take σ k p k p).trans (if_pos ⟨rfl, rfl⟩)⟩
      show k ∈ ((σ.take k p).semaphore resource).waiters
      rw [waiters_take]
      exact List.mem_of_find?_eq_some hk

lemma Told.wakeNext (h : Told exempt σ) (resource : Resource) : Told exempt (σ.wakeNext resource) := by
  rcases wakeNext_cases σ resource with heq | ⟨i, q, -, hq, -, -, -, -, heq⟩
  · rw [heq]
    exact h
  · rw [heq]
    have hmem : ∀ k, k ∈ σ.ready.map Prod.fst → k ∈ (σ.ready ++ [(i, Answer.done)]).map Prod.fst := by
      intro k hk
      rw [List.map_append]
      exact List.mem_append_left _ hk
    refine ⟨fun k hk p hp => ?_, fun k hk p hp hgo => ?_, fun k hk hborn hp => ?_⟩
    · show k ∈ ((σ.take i q).semaphore (σ.resource k p)).waiters
      rw [waiters_take]
      exact h.queued k hk p ((phase_take σ i q k).symm.trans hp)
    · by_cases hki : k = i
      · show k ∈ (σ.ready ++ [(i, Answer.done)]).map Prod.fst
        rw [hki, List.map_append]
        exact List.mem_append_right _ List.mem_cons_self
      · have hw : (σ.take i q).worker k = σ.worker k := worker_take_of_ne hki
        refine hmem k (h.told k hk p ?_ ?_)
        · rw [← hw]
          exact hp
        · rw [← hw]
          exact hgo
    · exact hmem k (h.starting k hk hborn ((phase_take σ i q k).symm.trans hp))

/-- A waiter of one semaphore waits at no other. -/
lemma Sound.waiter_unique (h : Sound settings exempt σ) {resource' : Resource}
    (hk : k ∈ (σ.semaphore resource).waiters) (hk' : k ∈ (σ.semaphore resource').waiters) : resource' = resource := by
  obtain ⟨-, -, p, hp, hr⟩ := h.waiters resource k hk
  obtain ⟨-, -, p', hp', hr'⟩ := h.waiters resource' k hk'
  obtain rfl := Phase.slot.inj (hp.symm.trans hp')
  exact hr'.symm.trans hr

lemma Served.wakeNext {resource' : Resource} (h : Served σ resource') (hs : Sound settings exempt σ)
    (hne : resource' ≠ resource) : Served (σ.wakeNext resource) resource' := by
  rcases wakeNext_cases σ resource with heq | ⟨i, q, hi, hq, hr, -, -, -, heq⟩
  · rw [heq]
    exact h
  · rw [heq]
    refine h.congr (fun hv => ?_) (waiters_take σ i q resource') (fun k hk => ?_) fun _ _ _ => rfl
    · have hv' : ((σ.take i q).semaphore resource').value ≠ 0 := hv
      rw [value_take] at hv'
      omega
    · exact worker_take_of_ne fun e => hne (hs.waiter_unique (e ▸ hi) hk)

lemma Live.wakeNext (h : Told exempt σ) (hs : Sound settings exempt σ)
    (hserved : ∀ resource', resource' ≠ resource → Served σ resource') : Live exempt (σ.wakeNext resource) where
  told := h.wakeNext resource
  served resource' := by
    by_cases hr : resource' = resource
    · rw [hr]
      exact served_wakeNext σ resource
    · exact (hserved resource' hr).wakeNext hs hr

lemma Live.release (h : Live (some j) σ) (hb : Between settings σ j held) (hp : held p = true) :
    Live (some j) (σ.release j p) := by
  have hne : ∀ resource, ∀ k ∈ (σ.semaphore resource).waiters, (σ.giveBack j p).worker k = σ.worker k :=
    fun resource k hk => worker_giveBack_of_ne fun e => (hb.sound.waiters resource k hk).1 (congrArg some e)
  refine Live.wakeNext ?_ (hb.giveBack hp).sound fun resource hr => ?_
  · refine h.told.congr (fun k hk => worker_giveBack_of_ne fun e => hk (congrArg some e)) (fun resource k hk _ => ?_)
      (fun _ _ => rfl) rfl rfl
    rw [waiters_giveBack]
    exact hk
  · refine (h.served resource).congr (fun hv => ?_) (waiters_giveBack σ j p resource) (hne resource) fun _ _ _ => rfl
    rw [value_giveBack, if_neg fun e => hr e.symm] at hv
    exact hv

lemma Sound.worker_wakeWaiters (h : Sound settings (some j) σ) (resource : Resource) :
    (σ.wakeWaiters resource).worker j = σ.worker j := by
  have hmore : ∀ n (σ : Service), Sound settings (some j) σ → (Service.wakeAll resource n σ).worker j = σ.worker j := by
    intro n
    induction n with
    | zero => exact fun _ _ => rfl
    | succ n ih => exact fun σ hs => (ih _ (hs.wakeNext resource)).trans (hs.worker_wakeNext resource)
  exact hmore _ σ h

/-- What the last waiter passed on is passed on further. -/
lemma Live.wakeAll (h : Told exempt σ) (hserved : ∀ resource', resource' ≠ resource → Served σ resource')
    (hs : Sound settings exempt σ) : Live exempt (σ.wakeWaiters resource) := by
  have hmore : ∀ n (σ : Service), Live exempt σ → Sound settings exempt σ → Live exempt (Service.wakeAll resource n σ) := by
    intro n
    induction n with
    | zero => exact fun _ h _ => h
    | succ n ih => exact fun σ h hs => ih _ (Live.wakeNext h.told hs fun r _ => h.served r) (hs.wakeNext resource)
  unfold wakeWaiters
  cases hn : (σ.semaphore resource).waiters with
  | nil =>
    refine ⟨h, fun resource' => ?_⟩
    by_cases hr : resource' = resource
    · intro _ k hk _
      rw [hr] at hk
      show ∃ i ∈ (σ.semaphore resource').waiters, σ.Woken i
      have hk' : k ∈ (σ.semaphore resource).waiters := hk
      rw [hn] at hk'
      cases hk'
    · exact hserved resource' hr
  | cons i rest => exact hmore rest.length _ (Live.wakeNext h hs hserved) (hs.wakeNext resource)

/-! ### A worker comes to its next await -/

lemma Live.jobs (h : Live exempt σ) {r : JobRegistry} (hr : SameServers σ.jobs r) : Live exempt { σ with jobs := r } where
  told := h.told.congr (fun _ _ => rfl) (fun _ _ hk _ => hk) (fun k p => hr.resource_eq k p) rfl hr.count
  served resource := (h.served resource).congr (fun hv => hv) rfl (fun _ _ => rfl) fun k _ p => hr.resource_eq k p

lemma Live.rest (h : Live exempt σ) (cancel_events : Dict ℕ Bool) (placements : List ℕ) (stopped : Bool) :
    Live exempt { σ with cancel_events, placements, stopped } :=
  ⟨⟨h.told.queued, h.told.told, h.told.starting⟩, h.served⟩

lemma worker_setPhase_of_ne {phase : Phase} (h : k ≠ j) : (σ.setPhase j phase).worker k = σ.worker k :=
  Function.update_of_ne h _ _

/-- A worker that awaits no permit. -/
lemma Live.suspend (h : Live (some j) σ) (hs : Sound settings (some j) σ) {phase : Phase}
    (hslot : ∀ p, phase ≠ .slot p) (hstart : phase ≠ .start) : Live none (σ.setPhase j phase) where
  told := by
    have hself : ((σ.setPhase j phase).worker j).phase = phase := by rw [worker_setPhase, if_pos rfl]
    refine ⟨fun k _ p hp => ?_, fun k _ p hp hgo => ?_, fun k _ hborn hp => ?_⟩
    · by_cases hk : k = j
      · rw [hk, hself] at hp
        exact absurd hp (hslot p)
      · rw [worker_setPhase_of_ne hk] at hp
        exact h.told.queued k (fun e => hk (Option.some.inj e)) p hp
    · by_cases hk : k = j
      · rw [hk, hself] at hp
        exact absurd hp (hslot p)
      · rw [worker_setPhase_of_ne hk] at hp hgo
        exact h.told.told k (fun e => hk (Option.some.inj e)) p hp hgo
    · by_cases hk : k = j
      · rw [hk, hself] at hp
        exact absurd hp hstart
      · rw [worker_setPhase_of_ne hk] at hp
        exact h.told.starting k (fun e => hk (Option.some.inj e)) hborn hp
  served resource := (h.served resource).congr (fun hv => hv) rfl
    (fun _ hk => worker_setPhase_of_ne fun e => (hs.waiters resource _ hk).1 (congrArg some e)) fun _ _ _ => rfl

/-- A worker joins the waiters, behind one that has its permit or none that is free. -/
lemma Live.park (h : Live (some j) σ) (hs : Sound settings (some j) σ) (hheld : (σ.worker j).held p = false)
    (hi : (σ.worker j).interrupted = false) (hlocked : σ.locked (σ.resource j p) = true) :
    Live none (σ.park j p) := by
  have hself : (σ.park j p).worker j = { σ.worker j with phase := .slot p } := Function.update_self ..
  have hother : ∀ k, k ≠ j → (σ.park j p).worker k = σ.worker k := fun k hk => Function.update_of_ne hk _ _
  have hwaits : ∀ resource, ∀ k ∈ (σ.semaphore resource).waiters, k ∈ ((σ.park j p).semaphore resource).waiters := by
    intro resource k hk
    rw [waiters_park]
    split
    · exact List.mem_append_left _ hk
    · exact hk
  have hne : ∀ resource, ∀ k ∈ (σ.semaphore resource).waiters, k ≠ j :=
    fun resource k hk e => (hs.waiters resource k hk).1 (congrArg some e)
  refine ⟨⟨fun k _ q hq => ?_, fun k _ q hq hgo => ?_, fun k _ hborn hq => ?_⟩, fun resource => ?_⟩
  · by_cases hk : k = j
    · rw [hk, hself] at hq
      obtain rfl := Phase.slot.inj hq
      show k ∈ ((σ.park j p).semaphore (σ.resource k p)).waiters
      rw [waiters_park, hk, if_pos rfl]
      exact List.mem_append_right _ List.mem_cons_self
    · rw [hother k hk] at hq
      exact hwaits _ k (h.told.queued k (fun e => hk (Option.some.inj e)) q hq)
  · by_cases hk : k = j
    · rw [hk, hself] at hq hgo
      obtain rfl := Phase.slot.inj hq
      rcases hgo with hgo | hgo
      · exact absurd (hheld.symm.trans hgo) Bool.false_ne_true
      · exact absurd (hi.symm.trans hgo) Bool.false_ne_true
    · rw [hother k hk] at hq hgo
      exact h.told.told k (fun e => hk (Option.some.inj e)) q hq hgo
  · by_cases hk : k = j
    · rw [hk, hself] at hq
      cases hq
    · rw [hother k hk] at hq
      exact h.told.starting k (fun e => hk (Option.some.inj e)) hborn hq
  · by_cases hr : resource = σ.resource j p
    · intro hv _ _ _
      rw [value_park] at hv
      obtain ⟨i, hi, hwoken⟩ : ∃ i ∈ (σ.semaphore resource).waiters, σ.Woken i := by
        unfold locked at hlocked
        rw [← hr, decide_eq_false hv, Bool.false_or, List.any_eq_true] at hlocked
        obtain ⟨i, hi, hgone⟩ := hlocked
        rw [Bool.not_eq_true'] at hgone
        have hres : ∀ q, (σ.worker i).phase = .slot q → σ.resource i q = resource := by
          intro q hq
          obtain ⟨-, -, q', hq', hres⟩ := hs.waiters resource i hi
          obtain rfl := Phase.slot.inj (hq.symm.trans hq')
          exact hres
        rcases woken_or_pending hgone hres with hwoken | hpending
        · exact ⟨i, hi, hwoken⟩
        · exact h.served resource hv i hi hpending
      exact ⟨i, hwaits resource i hi, (woken_congr (hother i (hne resource i hi))).2 hwoken⟩
    · refine (h.served resource).congr (fun hv => ?_) ?_ (fun k hk => hother k (hne resource k hk)) fun _ _ _ => rfl
      · rw [value_park] at hv
        exact hv
      · rw [waiters_park, if_neg hr]

lemma interrupted_release (hb : Between settings σ j held) (hp : held p = true) :
    ((σ.release j p).worker j).interrupted = (σ.worker j).interrupted := by
  unfold Service.release
  rw [(hb.giveBack hp).sound.worker_wakeNext]
  exact interrupted_giveBack

/-- Whatever a worker does up to its next await, it forgets nobody. -/
lemma Live.stretch {σ' : Service} {stage : Stage} (hst : Stretch settings j stage held σ σ') (hb : Between settings σ j held)
    (hi : (σ.worker j).interrupted = false) (h : Live (some j) σ) : Live none σ' := by
  induction hst with
  | transition state _ ih => exact ih (hb.transition state) hi (h.jobs (sameServers_transition _ _ j state))
  | assign strategy _ ih =>
    exact ih (hb.jobs (sameServers_assign _ j strategy)) hi (h.jobs (sameServers_assign _ j strategy))
  | record _ ih => exact ih ⟨hb.sound.rest _ _ _, hb.here, hb.held⟩ hi (h.rest _ _ _)
  | take p _ hopen _ ih =>
    exact ih (p.update_before ▸ hb.take p.before_self hopen) ((interrupted_take _ j p j).trans hi) (h.take hb.sound)
  | park p _ hlocked => exact h.park hb.sound (hb.held ▸ p.before_self) hi hlocked
  | leave _ ih => exact ih hb hi h
  | release p _ ih =>
    exact ih (p.update_upTo ▸ hb.release p.upTo_self) ((interrupted_release hb p.upTo_self).trans hi)
      (h.release hb p.upTo_self)
  | suspend phase hphase =>
    refine h.suspend hb.sound (fun p e => ?_) fun e => ?_
    · rw [e] at hphase
      cases hphase
    · rw [e] at hphase
      cases hphase
  | finish => exact (h.rest _ _ _).suspend (hb.sound.rest _ _ _) (fun _ => Phase.noConfusion) Phase.noConfusion

/-! ### A worker is resumed -/

lemma worker_popped_of_ne {rest : List (ℕ × Answer)} (h : k ≠ j) : (σ.popped j rest).worker k = σ.worker k :=
  Function.update_of_ne h _ _

/-- The worker that is resumed is no longer to be. -/
lemma told_popped (h : Told none σ) {answer : Answer} {rest : List (ℕ × Answer)} (hr : σ.ready = (j, answer) :: rest) :
    Told (some j) (σ.popped j rest) := by
  have hmem : ∀ k, some k ≠ some j → k ∈ σ.ready.map Prod.fst → k ∈ rest.map Prod.fst := by
    intro k hk hm
    rw [hr, List.map_cons, List.mem_cons] at hm
    exact hm.resolve_left fun e => hk (congrArg some e)
  refine ⟨fun k _ p hp => ?_, fun k hk p hp hgo => ?_, fun k hk hborn hp => ?_⟩
  · rw [phase_popped] at hp
    exact h.queued k (Option.some_ne_none k) p hp
  · rw [worker_popped_of_ne fun e => hk (congrArg some e)] at hp hgo
    exact hmem k hk (h.told k (Option.some_ne_none k) p hp hgo)
  · rw [phase_popped] at hp
    exact hmem k hk (h.starting k (Option.some_ne_none k) hborn hp)

lemma served_popped (h : Served σ resource) {rest : List (ℕ × Answer)} (hj : j ∉ (σ.semaphore resource).waiters) :
    Served (σ.popped j rest) resource :=
  h.congr (fun hv => hv) rfl (fun _ hk => worker_popped_of_ne fun e => hj (e ▸ hk)) fun _ _ _ => rfl

/-- A worker that waits for no permit is among no waiters. -/
lemma Sound.not_waiting (h : Sound settings exempt σ) (hphase : ∀ p, (σ.worker j).phase ≠ .slot p) (resource : Resource) :
    j ∉ (σ.semaphore resource).waiters := by
  intro hj
  obtain ⟨-, -, p, hp, -⟩ := h.waiters resource j hj
  exact hphase p hp

lemma told_unpark (h : Told (some j) σ) : Told (some j) (σ.unpark j p) := by
  refine h.congr (fun _ _ => rfl) (fun resource k hk hne => ?_) (fun _ _ => rfl) rfl rfl
  rw [waiters_unpark]
  split
  · exact (List.mem_erase_of_ne fun e => hne (congrArg some e)).2 hk
  · exact hk

lemma served_unpark (h : Served σ resource) (hr : resource ≠ σ.resource j p) : Served (σ.unpark j p) resource := by
  refine h.congr (fun hv => ?_) ?_ (fun _ _ => rfl) fun _ _ _ => rfl
  · rw [value_unpark] at hv
    exact hv
  · rw [waiters_unpark, if_neg hr]

lemma Told.giveBack (h : Told (some j) σ) : Told (some j) (σ.giveBack j p) := by
  refine h.congr (fun k hk => worker_giveBack_of_ne fun e => hk (congrArg some e)) (fun resource k hk _ => ?_)
    (fun _ _ => rfl) rfl rfl
  rw [waiters_giveBack]
  exact hk

lemma Served.giveBack (h : Served σ resource) (hj : j ∉ (σ.semaphore resource).waiters)
    (hr : resource ≠ σ.resource j p) : Served (σ.giveBack j p) resource := by
  refine h.congr (fun hv => ?_) (waiters_giveBack σ j p resource)
    (fun k hk => worker_giveBack_of_ne fun e => hj (e ▸ hk)) fun _ _ _ => rfl
  rw [value_giveBack, if_neg fun e => hr e.symm] at hv
  exact hv

lemma Live.resumed {σ' : Service} (h : Live none σ) (hs : Sound settings none σ) {x answer : Answer}
    {rest : List (ℕ × Answer)} (hr : σ.ready = (j, x) :: rest) (hj : j < σ.jobs.count)
    (hnot : j ∉ rest.map Prod.fst) (hpop : Sound settings none (σ.popped j rest))
    (hres : Resumed settings j answer (σ.popped j rest) σ') : Live none σ' := by
  have htold := told_popped h.told hr
  have hi := interrupted_popped σ j rest
  have hfree : (∀ p, ((σ.popped j rest).worker j).phase ≠ .slot p) → Live (some j) (σ.popped j rest) :=
    fun hphase => ⟨htold, fun resource => served_popped (h.served resource) (hpop.not_waiting hphase resource)⟩
  cases hres with
  | off hp =>
    have hphase : ∀ p, ((σ.popped j rest).worker j).phase ≠ .slot p := fun p e => Phase.noConfusion (hp.symm.trans e)
    exact (hfree hphase).suspend (hpop.enter hj hnot hphase).sound (fun _ => Phase.noConfusion) Phase.noConfusion
  | on hphase hst => exact Live.stretch hst (hpop.enter hj hnot hphase) hi (hfree hphase)
  | pass p _ hphase hheld hst =>
    have hb := hpop.enterPass hj hnot hphase hheld
    have hserved : ∀ resource, resource ≠ (σ.popped j rest).resource j p →
        Served ((σ.popped j rest).unpark j p) resource := by
      intro resource hne
      refine served_unpark (served_popped (h.served resource) fun hw => hne ?_) hne
      obtain ⟨-, -, q, hq, hres⟩ := hs.waiters resource j hw
      rw [phase_popped] at hphase
      obtain rfl := Phase.slot.inj (hphase.symm.trans hq)
      exact hres.symm
    refine Live.stretch hst (hb.wakeWaiters _) ?_ (Live.wakeAll (told_unpark htold) hserved hb.sound)
    rw [hb.sound.worker_wakeWaiters]
    exact hi
  | abandon p hphase hst =>
    have hb := hpop.enterAbandon hj hnot hphase
    have hserved : ∀ resource, resource ≠ (σ.popped j rest).resource j p →
        Served ((σ.popped j rest).unpark j p) resource ∧ j ∉ (((σ.popped j rest).unpark j p).semaphore resource).waiters := by
      intro resource hne
      have hout : j ∉ ((σ.popped j rest).semaphore resource).waiters := by
        intro hw
        obtain ⟨-, -, q, hq, hres⟩ := hpop.waiters resource j hw
        obtain rfl := Phase.slot.inj (hphase.symm.trans hq)
        exact hne hres.symm
      refine ⟨served_unpark (served_popped (h.served resource) hout) hne, ?_⟩
      rw [waiters_unpark, if_neg hne]
      exact hout
    refine Live.stretch hst (hb.wakeWaiters _) ?_ (Live.wakeAll ?_ ?_ hb.sound)
    · rw [hb.sound.worker_wakeWaiters]
      split
      · exact interrupted_giveBack.trans hi
      · exact hi
    · split
      · exact (told_unpark htold).giveBack
      · exact told_unpark htold
    · intro resource hne
      split
      · exact (hserved resource hne).1.giveBack (hserved resource hne).2 hne
      · exact (hserved resource hne).1

lemma Live.run (h : Live none σ) (hs : Sound settings none σ) (fault : Option Fault) :
    Live none (σ.run settings fault) := by
  rcases hs.run_cases fault with ⟨-, heq⟩ | ⟨j, x, rest, answer, hr, hj, hnot, hpop, -, hres⟩
  · rw [heq]
    exact h
  · exact h.resumed hs hr hj hnot hpop hres

/-! ### The other events -/

/-- More is to be resumed. -/
lemma Live.push (h : Live none σ) (x : ℕ × Answer) : Live none { σ with ready := σ.ready ++ [x] } := by
  have hmem : ∀ k, k ∈ σ.ready.map Prod.fst → k ∈ (σ.ready ++ [x]).map Prod.fst := by
    intro k hk
    rw [List.map_append]
    exact List.mem_append_left _ hk
  exact ⟨⟨h.told.queued, fun k hk p hp hgo => hmem k (h.told.told k hk p hp hgo),
    fun k hk hborn hp => hmem k (h.told.starting k hk hborn hp)⟩, h.served⟩

/-- A worker that is told that it is cancelled is about to be resumed. -/
lemma Live.interrupt (h : Live none σ) (j : ℕ) : Live none (σ.interrupt j) := by
  unfold Service.interrupt
  split
  · exact h
  dsimp only
  generalize hσ : σ.setWorker j { σ.worker j with interrupted := true } = σ'
  have hphase : ∀ k, (σ'.worker k).phase = (σ.worker k).phase ∧ (σ'.worker k).held = (σ.worker k).held := by
    intro k
    rw [← hσ, worker_setWorker]
    split
    · rename_i hk
      rw [hk]
      exact ⟨rfl, rfl⟩
    · exact ⟨rfl, rfl⟩
  have hother : ∀ k, k ≠ j → σ'.worker k = σ.worker k := by
    intro k hk
    rw [← hσ, worker_setWorker, if_neg hk]
  have hself : (σ'.worker j).interrupted = true := by rw [← hσ, worker_setWorker, if_pos rfl]
  have hrest : σ'.ready = σ.ready ∧ σ'.semaphore = σ.semaphore ∧ σ'.jobs = σ.jobs := by
    rw [← hσ]
    exact ⟨rfl, rfl, rfl⟩
  have hresource : ∀ k p, σ'.resource k p = σ.resource k p := fun k p => resource_congr hrest.2.2 k p
  have hserved : ∀ resource, Served σ' resource := by
    intro resource hv k hk hp
    rw [hrest.2.1] at hv hk ⊢
    obtain ⟨q, hq, hres, hheld, hi⟩ := pending_iff.1 hp
    have hk' : k ≠ j := by
      rintro rfl
      exact Bool.false_ne_true (hi.symm.trans hself)
    rw [hother k hk'] at hq hheld hi
    obtain ⟨i, hi', p, hwoken⟩ := h.served resource hv k hk (pending_iff.2 ⟨q, hq, (hresource k q).symm.trans hres, hheld, hi⟩)
    refine ⟨i, hi', p, ?_⟩
    rw [(hphase i).1, (hphase i).2]
    exact hwoken
  have htold : ∀ ready : List (ℕ × Answer), (∀ k ∈ σ.ready.map Prod.fst, k ∈ ready.map Prod.fst) →
      j ∈ ready.map Prod.fst → Live none { σ' with ready } := by
    intro ready hmem hj
    refine ⟨⟨fun k hk p hp => ?_, fun k hk p hp hgo => ?_, fun k hk hborn hp => ?_⟩, fun resource => hserved resource⟩
    · rw [(hphase k).1] at hp
      show k ∈ (σ'.semaphore (σ'.resource k p)).waiters
      rw [hrest.2.1, hresource]
      exact h.told.queued k hk p hp
    · by_cases hkj : k = j
      · exact hkj ▸ hj
      · rw [hother k hkj] at hp hgo
        exact hmem k (h.told.told k hk p hp hgo)
    · rw [(hphase k).1] at hp
      exact hmem k (h.told.starting k hk (hrest.2.2 ▸ hborn) hp)
  split
  · refine htold _ (fun k hk => ?_) ?_
    · rw [hrest.1, List.map_append]
      exact List.mem_append_left _ hk
    · rw [List.map_append]
      exact List.mem_append_right _ List.mem_cons_self
  · rename_i hwaiting
    rw [Bool.not_eq_true', Bool.not_eq_false, List.contains_eq_mem, decide_eq_true_iff] at hwaiting
    have hready : σ' = { σ' with ready := σ.ready } := by
      rw [← hσ]
      rfl
    rw [hready]
    exact htold σ.ready (fun k hk => hk) hwaiting

lemma Live.stop (h : Live none σ) : Live none (σ.stop settings).1 := by
  have hcancelled := (h.jobs (sameServers_cancelLoop σ.jobs settings.transfer_job_history σ.jobs.active)).rest
    σ.cancel_events σ.placements true
  have hall : ∀ (tasks : List ℕ) (σ : Service), Live none σ → Live none (tasks.foldl Service.interrupt σ) := by
    intro tasks
    induction tasks with
    | nil => exact fun _ h => h
    | cons j tasks ih => exact fun σ h => ih _ (h.interrupt j)
  unfold Service.stop
  dsimp only
  split
  · exact hcancelled
  · exact hall _ _ (hcancelled.rest _ _ _)

lemma Live.cancel (h : Live none σ) (j : ℕ) : Live none (σ.cancel settings j) := by
  have hcancelled : Live none (σ.transition settings j .cancelled) :=
    h.jobs (sameServers_transition σ.jobs _ j .cancelled)
  unfold Service.cancel
  split
  · exact h
  · split
    · exact h
    · dsimp only
      split
      · exact hcancelled.rest _ _ _
      · exact hcancelled

lemma Live.create (h : Live none σ) (hs : Sound settings none σ) (source target path : Text) :
    Live none (σ.create source target path) := by
  unfold Service.create
  dsimp only
  split
  · exact h
  split
  · exact h
  split
  · exact h
  generalize ({ source_server_id := source, target_server_id := target, target_path := path } : TransferJob) = job
  have hworker : ∀ k, k ≠ σ.jobs.count → Function.update σ.worker σ.jobs.count {} k = σ.worker k :=
    fun k hk => Function.update_of_ne hk _ _
  have hresource : ∀ k, k ≠ σ.jobs.count → ∀ q (σ' : Service), σ'.jobs = σ.jobs.create job →
      σ'.resource k q = σ.resource k q := by
    intro k hk q σ' hσ
    have hsame : (σ.jobs.create job).job k = σ.jobs.job k := Function.update_of_ne hk _ _
    unfold Service.resource
    rw [hσ, hsame]
  have hwaiter : ∀ resource, ∀ k ∈ (σ.semaphore resource).waiters, k ≠ σ.jobs.count :=
    fun resource k hk => Nat.ne_of_lt (hs.waiters resource k hk).2.1
  have hself : ∀ p, (Function.update σ.worker σ.jobs.count {} σ.jobs.count).phase ≠ .slot p := by
    intro p hp
    rw [Function.update_self] at hp
    cases hp
  have hmem : ∀ k, k ∈ σ.ready.map Prod.fst → k ∈ (σ.ready ++ [(σ.jobs.count, Answer.done)]).map Prod.fst := by
    intro k hk
    rw [List.map_append]
    exact List.mem_append_left _ hk
  refine ⟨⟨fun k hk p hp => ?_, fun k hk p hp hgo => ?_, fun k hk hborn hp => ?_⟩, fun resource => ?_⟩
  · by_cases hkn : k = σ.jobs.count
    · exact absurd (hkn ▸ hp) (hself p)
    · rw [hresource k hkn p _ rfl]
      exact h.told.queued k hk p ((congrArg Worker.phase (hworker k hkn)).symm.trans hp)
  · by_cases hkn : k = σ.jobs.count
    · exact absurd (hkn ▸ hp) (hself p)
    · refine hmem k (h.told.told k hk p ((congrArg Worker.phase (hworker k hkn)).symm.trans hp) ?_)
      have hgo : (Function.update σ.worker σ.jobs.count {} k).held p = true ∨
        (Function.update σ.worker σ.jobs.count {} k).interrupted = true := hgo
      rw [hworker k hkn] at hgo
      exact hgo
  · by_cases hkn : k = σ.jobs.count
    · show k ∈ (σ.ready ++ [(σ.jobs.count, Answer.done)]).map Prod.fst
      rw [hkn, List.map_append]
      exact List.mem_append_right _ List.mem_cons_self
    · have hlt : k < σ.jobs.count := lt_of_le_of_ne (Nat.le_of_lt_succ hborn) hkn
      exact hmem k (h.told.starting k hk hlt ((congrArg Worker.phase (hworker k hkn)).symm.trans hp))
  · exact (h.served resource).congr (fun hv => hv) rfl (fun k hk => hworker k (hwaiter resource k hk))
      fun k hk q => hresource k (hwaiter resource k hk) q _ rfl

lemma Live.step (h : Live none σ) (hs : Sound settings none σ) (e : Event) : Live none (σ.step settings e) := by
  cases e with
  | create source target path => exact h.create hs source target path
  | cancel j => exact h.cancel j
  | clearHistory => exact h.jobs ⟨rfl, fun _ => rfl, fun _ => rfl, rfl⟩
  | stop => exact h.stop
  | complete j answer =>
    unfold Service.step
    dsimp only
    split
    · exact h.push _
    · exact h
  | run fault => exact h.run hs fault

lemma live_after (settings : Settings) (events : List Event) : Live none (after settings events) := by
  have hinit : Sound settings none (Service.init settings) ∧ Live none (Service.init settings) :=
    ⟨sound_init settings, ⟨fun _ _ _ hp => Phase.noConfusion hp, fun _ _ _ hp => Phase.noConfusion hp,
      fun _ _ hborn _ => absurd hborn (Nat.not_lt_zero _)⟩, fun _ _ _ hk => absurd hk List.not_mem_nil⟩
  have hstep : ∀ (σ : Service) e, Sound settings none σ ∧ Live none σ →
      Sound settings none (σ.step settings e) ∧ Live none (σ.step settings e) :=
    fun σ e h => ⟨h.1.step e, h.2.step h.1 e⟩
  exact (@Machine.inv_after _ _ _ (fun σ => Sound settings none σ ∧ Live none σ) _ events hinit hstep).2

/-- A worker that waits where the loop has nothing to resume waits for a permit others hold. -/
lemma value_of_quiet (h : Live none σ) (hquiet : σ.ready = []) (hp : (σ.worker k).phase = .slot p) :
    (σ.semaphore (σ.resource k p)).value = 0 ∧ (σ.worker k).held p = false := by
  have hnone : ∀ i, i ∉ σ.ready.map Prod.fst := by
    intro i
    rw [hquiet]
    exact List.not_mem_nil
  have hstill : ¬((σ.worker k).held p = true ∨ (σ.worker k).interrupted = true) :=
    fun hgo => hnone k (h.told.told k (Option.some_ne_none k) p hp hgo)
  obtain ⟨hheld, hi⟩ := not_or.1 hstill
  refine ⟨?_, Bool.eq_false_of_not_eq_true hheld⟩
  by_contra hvalue
  obtain ⟨i, -, q, hq, hwoken⟩ := h.served _ hvalue k (h.told.queued k (Option.some_ne_none k) p hp)
    (pending_iff.2 ⟨p, hp, rfl, Bool.eq_false_of_not_eq_true hheld, Bool.eq_false_of_not_eq_true hi⟩)
  exact hnone i (h.told.told i (Option.some_ne_none i) q hq (.inl hwoken))

/-- No wake-up is lost: whatever happened before, where the loop has nothing to resume, every worker that waits for a
permit waits because all the permits of its semaphore are held. -/
theorem no_permit_idle (settings : Settings) (events : List Event) (hquiet : (after settings events).ready = [])
    (k : ℕ) (p : Permit) (hwaits : ((after settings events).worker k).phase = .slot p) :
    ((after settings events).holders ((after settings events).resource k p)).card =
      settings.capacity ((after settings events).resource k p) := by
  have hvalue := (value_of_quiet (live_after settings events) hquiet hwaits).1
  have hcapacity := (sound_after settings events).capacity ((after settings events).resource k p)
  rw [hvalue, Nat.zero_add] at hcapacity
  exact hcapacity

/-- The settings as they are delivered. -/
def defaults : Settings where
  max_transfers_global := 2
  max_transfers_per_server := 1
  transfer_job_history := 100
  global_bounds := by decide
  per_server_bounds := by decide
  history_bounds := by decide

/-- Three jobs are started: the first is planned, and the third waits for its permit of the service. -/
def threeStarted : List Event :=
  [.create ['a'] ['b'] ['/', 'x'], .create ['c'] ['d'] ['/', 'x'], .create ['b'] ['a'] ['/', 'x'], .run none, .run none,
    .run none]

theorem no_permit_idle_third :
    ((after defaults threeStarted).holders ((after defaults threeStarted).resource 2 .overall)).card =
      defaults.capacity ((after defaults threeStarted).resource 2 .overall) :=
  no_permit_idle defaults threeStarted (by decide +kernel) 2 .overall (by decide +kernel)

end Service
end SshGpuConsole.Transfers
