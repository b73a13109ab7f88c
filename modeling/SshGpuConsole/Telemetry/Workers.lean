import SshGpuConsole.Telemetry.Scheduler

/-!
# The workers of a scheduler

What `_workers` and `_records` hold in every run: the live task of each server that was enabled last, and nothing else.
-/

namespace SshGpuConsole.Scheduling
open Shell (Text)
open Machine

namespace Scheduler
variable {settings : Settings} {σ σ' : Scheduler} {w k : ℕ} {now : ℚ≥0} {server_id : Text}

/-- A task in the table is of its server and was not cancelled, and one that is neither cancelled nor done is there. -/
structure Tables (σ : Scheduler) : Prop where
  born : ∀ server_id w, σ.workers.get server_id = some w → w < σ.count
  owner : ∀ server_id w, σ.workers.get server_id = some w → σ.server w = server_id
  live : ∀ server_id w, σ.workers.get server_id = some w → (σ.worker w).cancelled = none
  here : ∀ w, w < σ.count → (σ.worker w).cancelled = none → (σ.worker w).phase ≠ .done →
    σ.workers.get (σ.server w) = some w

lemma task_eq_some : σ.task server_id = some w ↔ σ.workers.get server_id = some w ∧ (σ.worker w).phase ≠ .done := by
  unfold task
  split
  · rename_i k hk
    rw [hk]
    split
    · rename_i hdone
      refine iff_of_false (Option.some_ne_none _).symm fun h => h.2 ?_
      rw [← Option.some.inj h.1]
      exact hdone
    · rename_i hrunning
      refine ⟨fun h => ⟨h, ?_⟩, And.left⟩
      rw [← Option.some.inj h]
      exact hrunning
  · rename_i hnone
    rw [hnone]
    exact iff_of_false (Option.some_ne_none _).symm fun h => Option.some_ne_none _ h.1.symm

/-! ### One server -/

/-- Who is cancelled where the task of a server is retired. -/
lemma worker_retire (h : σ.Tables) (server_id : Text) (cause : Cause) (k : ℕ) :
    (σ.retire server_id cause).worker k =
      if σ.task server_id = some k then { σ.worker k with cancelled := some cause } else σ.worker k := by
  unfold retire
  dsimp only
  split
  · rename_i w hw
    obtain ⟨hget, hrunning⟩ := task_eq_some.1 hw
    have hlive := h.live server_id w hget
    unfold cancel
    rw [if_neg fun hout => hout.elim hrunning (by rw [hlive]; exact Bool.false_ne_true)]
    by_cases hk : k = w
    · subst hk
      rw [worker_setWorker_self, if_pos hw]
    · rw [worker_setWorker_of_ne σ hk, if_neg fun e => hk (Option.some.inj (hw.symm.trans e)).symm]
  · rename_i hnone
    rw [if_neg fun e => Option.some_ne_none _ (e.symm.trans hnone)]

@[simp] lemma workers_retire (σ : Scheduler) (server_id : Text) (cause : Cause) :
    (σ.retire server_id cause).workers = σ.workers.pop server_id := by
  unfold retire
  dsimp only
  split
  · unfold cancel
    split <;> rfl
  · rfl

@[simp] lemma records_retire (σ : Scheduler) (server_id : Text) (cause : Cause) :
    (σ.retire server_id cause).records = σ.records := by
  unfold retire
  dsimp only
  split
  · unfold cancel
    split <;> rfl
  · rfl

@[simp] lemma count_retire (σ : Scheduler) (server_id : Text) (cause : Cause) :
    (σ.retire server_id cause).count = σ.count := by
  unfold retire
  dsimp only
  split
  · unfold cancel
    split <;> rfl
  · rfl

lemma server_retire (h : σ.Tables) (server_id : Text) (cause : Cause) (k : ℕ) :
    (σ.retire server_id cause).server k = σ.server k := by
  unfold server
  rw [worker_retire h]
  split <;> rfl

lemma Tables.retire (h : σ.Tables) (server_id : Text) (cause : Cause) : (σ.retire server_id cause).Tables := by
  have hget : ∀ other w, (σ.retire server_id cause).workers.get other = some w →
      other ≠ server_id ∧ σ.workers.get other = some w := by
    intro other w hw
    rw [workers_retire] at hw
    by_cases hother : other = server_id
    · rw [hother, Dict.get_pop] at hw
      cases hw
    · rw [Dict.get_pop_of_ne _ hother] at hw
      exact ⟨hother, hw⟩
  constructor
  · intro other w hw
    rw [count_retire]
    exact h.born other w (hget other w hw).2
  · intro other w hw
    rw [server_retire h]
    exact h.owner other w (hget other w hw).2
  · intro other w hw
    obtain ⟨hother, hw⟩ := hget other w hw
    rw [worker_retire h, if_neg fun e => ?_]
    · exact h.live other w hw
    · rw [← h.owner other w hw, ← h.owner server_id w (task_eq_some.1 e).1] at hother
      exact hother rfl
  · intro w hw hlive hrunning
    rw [count_retire] at hw
    rw [worker_retire h] at hlive hrunning
    split at hlive
    · cases hlive
    · rename_i hnot
      rw [if_neg hnot] at hrunning
      have hhere := h.here w hw hlive hrunning
      rw [server_retire h, workers_retire, Dict.get_pop_of_ne _ fun e => ?_]
      · exact hhere
      · rw [e] at hhere
        exact hnot (task_eq_some.2 ⟨hhere, hrunning⟩)

lemma worker_spawn_of_lt (σ : Scheduler) (record : Record) (hk : k < σ.count) :
    (σ.spawn record).worker k = σ.worker k :=
  Function.update_of_ne hk.ne _ _

@[simp] lemma worker_spawn_self (σ : Scheduler) (record : Record) : (σ.spawn record).worker σ.count = { record } :=
  Function.update_self ..

lemma server_spawn_of_lt (σ : Scheduler) (record : Record) (hk : k < σ.count) :
    (σ.spawn record).server k = σ.server k := by
  unfold server
  rw [worker_spawn_of_lt σ record hk]

lemma Tables.spawn {record : Record} (h : σ.Tables) (hnone : σ.task record.server_id = none) :
    (σ.spawn record).Tables := by
  have hserver : (σ.spawn record).server σ.count = record.server_id := by
    unfold server
    rw [worker_spawn_self]
  have hget : ∀ other w, (σ.spawn record).workers.get other = some w →
      (other = record.server_id ∧ w = σ.count) ∨ (w < σ.count ∧ σ.workers.get other = some w) := by
    intro other w hw
    by_cases hother : other = record.server_id
    · rw [hother] at hw
      exact .inl ⟨hother, (Option.some.inj (hw.symm.trans (Dict.get_set_self ..)))⟩
    · have hold := (Dict.get_set_of_ne hother _ _).symm.trans hw
      exact .inr ⟨h.born other w hold, hold⟩
  constructor
  · intro other w hw
    cases hget other w hw with
    | inl hnew => exact hnew.2 ▸ Nat.lt_succ_self _
    | inr hold => exact Nat.lt_succ_of_lt hold.1
  · intro other w hw
    cases hget other w hw with
    | inl hnew =>
      obtain ⟨rfl, rfl⟩ := hnew
      exact hserver
    | inr hold =>
      rw [server_spawn_of_lt σ record hold.1]
      exact h.owner other w hold.2
  · intro other w hw
    cases hget other w hw with
    | inl hnew =>
      obtain ⟨rfl, rfl⟩ := hnew
      rw [worker_spawn_self]
    | inr hold =>
      rw [worker_spawn_of_lt σ record hold.1]
      exact h.live other w hold.2
  · intro w hw hlive hrunning
    cases Nat.lt_succ_iff_lt_or_eq.1 hw with
    | inr hnew =>
      subst hnew
      rw [hserver]
      exact Dict.get_set_self ..
    | inl hold =>
      rw [worker_spawn_of_lt σ record hold] at hlive hrunning
      have hhere := h.here w hold hlive hrunning
      rw [server_spawn_of_lt σ record hold]
      refine (Dict.get_set_of_ne (fun e => ?_) _ _).trans hhere
      rw [e] at hhere
      exact Option.some_ne_none _ ((task_eq_some.2 ⟨hhere, hrunning⟩).symm.trans hnone)

/-- The record that the server had has another cadence. -/
def Resampled (σ : Scheduler) (record : Record) : Prop :=
  ∃ previous, σ.records.get record.server_id = some previous ∧ previous.sample_interval_s ≠ record.sample_interval_s

/-- What the two conditional retirements of `reconcile` leave. -/
structure Retired (server_id : Text) (cause : Cause) (resampled : Prop) (σ σ' : Scheduler) : Prop where
  tables : σ'.Tables
  records : σ'.records = σ.records
  count : σ'.count = σ.count
  others : ∀ other, other ≠ server_id → σ'.workers.get other = σ.workers.get other
  worker : ∀ k, σ'.worker k = σ.worker k ∨
    σ.task server_id = some k ∧ (resampled ∧ σ'.worker k = { σ.worker k with cancelled := some cause } ∨
      σ'.worker k = { σ.worker k with cancelled := some .other })
  resampled : ∀ k, σ.task server_id = some k → resampled → σ'.worker k = { σ.worker k with cancelled := some cause }

lemma task_retire (σ : Scheduler) (server_id : Text) (cause : Cause) : (σ.retire server_id cause).task server_id = none := by
  unfold task
  rw [workers_retire, Dict.get_pop]

lemma retired_refl (h : σ.Tables) {resampled : Prop} (cause : Cause) (hnot : ∀ k, σ.task server_id = some k → ¬resampled) :
    Retired server_id cause resampled σ σ where
  tables := h
  records := rfl
  count := rfl
  others _ _ := rfl
  worker _ := .inl rfl
  resampled k hk hresampled := absurd hresampled (hnot k hk)

/-- The first retirement. -/
lemma retired_cadence (h : σ.Tables) {resampled : Prop} (cause : Cause) (hresampled : resampled) :
    Retired server_id cause resampled σ (σ.retire server_id cause) where
  tables := h.retire server_id cause
  records := records_retire σ server_id cause
  count := count_retire σ server_id cause
  others other hother := by rw [workers_retire, Dict.get_pop_of_ne _ hother]
  worker k := by
    rw [worker_retire h]
    split
    · rename_i hk
      exact .inr ⟨hk, .inl ⟨hresampled, rfl⟩⟩
    · exact .inl rfl
  resampled k hk _ := by rw [worker_retire h, if_pos hk]

/-- The second one; whose task the first one retired has none any more. -/
lemma Retired.identity {cause : Cause} {resampled : Prop}
    (hfirst : Retired server_id cause resampled σ σ')
    (hnone : (∀ k, σ.task server_id = some k → ¬resampled) ∧ σ' = σ ∨ σ'.task server_id = none) :
    Retired server_id cause resampled σ (σ'.retire server_id .other) where
  tables := hfirst.tables.retire server_id .other
  records := (records_retire σ' server_id .other).trans hfirst.records
  count := (count_retire σ' server_id .other).trans hfirst.count
  others other hother := by rw [workers_retire, Dict.get_pop_of_ne _ hother, hfirst.others other hother]
  worker k := by
    rw [worker_retire hfirst.tables]
    cases hnone with
    | inl hsame =>
      obtain ⟨-, rfl⟩ := hsame
      split
      · rename_i hk
        exact .inr ⟨hk, .inr rfl⟩
      · exact .inl rfl
    | inr hnone =>
      rw [hnone, if_neg (Option.some_ne_none k).symm]
      exact hfirst.worker k
  resampled k hk hresampled := by
    cases hnone with
    | inl hsame => exact absurd hresampled (hsame.1 k hk)
    | inr hnone =>
      rw [worker_retire hfirst.tables, hnone, if_neg (Option.some_ne_none k).symm]
      exact hfirst.resampled k hk hresampled

/-- What `reconcile` does for one enabled server. -/
structure Served (cause : Cause) (record : Record) (σ σ' : Scheduler) : Prop where
  tables : σ'.Tables
  records : σ'.records = σ.records.set record.server_id record
  here : (σ'.workers.get record.server_id).isSome = true
  others : ∀ other, other ≠ record.server_id → σ'.workers.get other = σ.workers.get other
  count : σ.count ≤ σ'.count
  worker : ∀ k, k < σ.count → σ'.worker k = σ.worker k ∨
    σ.task record.server_id = some k ∧
      (σ.Resampled record ∧ σ'.worker k = { σ.worker k with cancelled := some cause } ∨
        σ'.worker k = { σ.worker k with cancelled := some .other })
  resampled : ∀ k, σ.task record.server_id = some k → σ.Resampled record →
    σ'.worker k = { σ.worker k with cancelled := some cause }
  fresh : ∀ k, σ.count ≤ k → k < σ'.count → σ'.worker k = { record }

/-- A server without a task gets one. -/
lemma Retired.served {cause : Cause} {record : Record} (h : σ.Tables)
    (hretired : Retired record.server_id cause (σ.Resampled record) σ σ') :
    Served cause record σ { (if (σ'.task record.server_id).isNone then σ'.spawn record else σ') with
      records := (if (σ'.task record.server_id).isNone then σ'.spawn record else σ').records.set
        record.server_id record } := by
  have hborn : ∀ {k}, σ.task record.server_id = some k → k < σ'.count := fun hk =>
    hretired.count ▸ h.born _ _ (task_eq_some.1 hk).1
  cases htask : σ'.task record.server_id with
  | none =>
    rw [Option.isNone_none, if_pos rfl]
    refine ⟨⟨(hretired.tables.spawn htask).born, (hretired.tables.spawn htask).owner,
      (hretired.tables.spawn htask).live, (hretired.tables.spawn htask).here⟩, ?_, ?_, ?_, ?_, ?_, ?_, ?_⟩
    · exact congrArg (Dict.set record.server_id record) hretired.records
    · exact (congrArg Option.isSome (Dict.get_set_self ..)).trans rfl
    · exact fun other hother => (Dict.get_set_of_ne hother _ _).trans (hretired.others other hother)
    · exact hretired.count ▸ Nat.le_succ _
    · intro k hk
      have hspawned : (σ'.spawn record).worker k = σ'.worker k := worker_spawn_of_lt σ' record (hretired.count.symm ▸ hk)
      rw [hspawned]
      exact hretired.worker k
    · intro k hk hresampled
      exact (worker_spawn_of_lt σ' record (hborn hk)).trans (hretired.resampled k hk hresampled)
    · intro k hle hlt
      have hk : k = σ'.count := le_antisymm (Nat.le_of_lt_succ hlt) (hretired.count.trans_le hle)
      rw [hk]
      exact worker_spawn_self σ' record
  | some w =>
    rw [Option.isNone_some, if_neg Bool.false_ne_true]
    refine ⟨⟨hretired.tables.born, hretired.tables.owner, hretired.tables.live, hretired.tables.here⟩, ?_, ?_, ?_, ?_,
      ?_, ?_, ?_⟩
    · exact congrArg (Dict.set record.server_id record) hretired.records
    · exact (congrArg Option.isSome (task_eq_some.1 htask).1).trans rfl
    · exact hretired.others
    · exact hretired.count.ge
    · exact fun k _ => hretired.worker k
    · exact hretired.resampled
    · exact fun k hle hlt => absurd (hretired.count ▸ hle) (not_le.2 hlt)

/-- `reconcile` for one enabled server. -/
lemma served (h : σ.Tables) (cause : Cause) (record : Record) :
    Served cause record σ (σ.reconcileServer cause record) := by
  have hresampled : (σ.records.get record.server_id).any (·.sample_interval_s ≠ record.sample_interval_s) = true ↔
      σ.Resampled record := by
    unfold Resampled
    cases σ.records.get record.server_id with
    | none => exact iff_of_false Bool.false_ne_true fun ⟨p, hp, _⟩ => Option.some_ne_none p hp.symm
    | some previous =>
      rw [Option.any_some, decide_eq_true_iff]
      exact ⟨fun hne => ⟨previous, rfl, hne⟩, fun ⟨p, hp, hne⟩ => Option.some.inj hp ▸ hne⟩
  unfold reconcileServer
  dsimp only
  cases hfirst : (σ.records.get record.server_id).any (·.sample_interval_s ≠ record.sample_interval_s) &&
      (σ.task record.server_id).isSome with
  | true =>
    obtain ⟨hany, -⟩ := Bool.and_eq_true_iff.1 hfirst
    have hretired : Retired record.server_id cause (σ.Resampled record) σ (σ.retire record.server_id cause) :=
      retired_cadence h cause (hresampled.1 hany)
    rw [if_pos rfl]
    cases (σ.records.get record.server_id).any fun p => identity p ≠ identity record with
    | true => exact (hretired.identity (.inr (task_retire σ _ cause))).served h
    | false => exact hretired.served h
  | false =>
    have hnot : ∀ k, σ.task record.server_id = some k → ¬σ.Resampled record := by
      intro k hk hresampled'
      rw [hresampled.2 hresampled', hk] at hfirst
      cases hfirst
    have hretired : Retired record.server_id cause (σ.Resampled record) σ σ := retired_refl h cause hnot
    rw [if_neg Bool.false_ne_true]
    cases (σ.records.get record.server_id).any fun p => identity p ≠ identity record with
    | true => exact (hretired.identity (.inl ⟨hnot, rfl⟩)).served h
    | false => exact hretired.served h

/-! ### All servers -/

/-- What `reconcile` does for some enabled servers, one after the other. -/
structure ServedAll (cause : Cause) (enabled : Dict Text Record) (σ σ' : Scheduler) : Prop where
  tables : σ'.Tables
  here : ∀ x ∈ enabled, (σ'.workers.get x.1).isSome = true ∧ σ'.records.get x.1 = some x.2
  others : ∀ server_id, server_id ∉ enabled.map Prod.fst →
    σ'.workers.get server_id = σ.workers.get server_id ∧ σ'.records.get server_id = σ.records.get server_id
  count : σ.count ≤ σ'.count
  kept : ∀ k, k < σ.count → σ'.worker k = σ.worker k ∨ ∃ cause, σ'.worker k = { σ.worker k with cancelled := some cause }
  /-- Who is cancelled for its cadence now. -/
  cadence : ∀ k, k < σ.count → (σ'.worker k).cancelled = some .cadence → (σ.worker k).cancelled = some .cadence ∨
    cause = .cadence ∧ ∃ x ∈ enabled, σ.task x.1 = some k ∧ σ.Resampled x.2
  resampled : ∀ x ∈ enabled, ∀ k, σ.task x.1 = some k → σ.Resampled x.2 →
    σ'.worker k = { σ.worker k with cancelled := some cause }
  alone : ∀ k, k < σ.count → σ.server k ∉ enabled.map Prod.fst → σ'.worker k = σ.worker k
  fresh : ∀ k, σ.count ≤ k → k < σ'.count → ∃ x ∈ enabled, σ'.worker k = { record := x.2 }

/-- Who works for another server is left alone. -/
lemma Served.worker_other {cause : Cause} {record : Record} (h : σ.Tables) (hserved : Served cause record σ σ')
    (hother : server_id ≠ record.server_id) (hget : σ.workers.get server_id = some k) :
    σ'.worker k = σ.worker k := by
  cases hserved.worker k (h.born _ _ hget) with
  | inl hsame => exact hsame
  | inr hown => exact absurd ((h.owner _ _ hget).symm.trans (h.owner _ _ (task_eq_some.1 hown.1).1)) hother

lemma Served.task_other {cause : Cause} {record : Record} (h : σ.Tables) (hserved : Served cause record σ σ')
    (hother : server_id ≠ record.server_id) : σ'.task server_id = σ.task server_id := by
  unfold task
  rw [hserved.others _ hother]
  cases hget : σ.workers.get server_id with
  | none => rfl
  | some k =>
    dsimp only
    rw [hserved.worker_other h hother hget]

lemma Served.resampled_iff {cause : Cause} {record other : Record} (hserved : Served cause record σ σ')
    (hother : other.server_id ≠ record.server_id) : σ'.Resampled other ↔ σ.Resampled other := by
  unfold Resampled
  rw [hserved.records, Dict.get_set_of_ne hother]

lemma servedAll (h : σ.Tables) (cause : Cause) {enabled : Dict Text Record} (hids : ∀ x ∈ enabled, x.2.server_id = x.1)
    (hnodup : (enabled.map Prod.fst).Nodup) :
    ServedAll cause enabled σ (enabled.foldl (fun σ x => σ.reconcileServer cause x.2) σ) := by
  induction enabled generalizing σ with
  | nil => exact ⟨h, fun x hx => absurd hx List.not_mem_nil, fun _ _ => ⟨rfl, rfl⟩, le_rfl, fun _ _ => .inl rfl, fun _ _ hk => .inl hk,
      fun x hx => absurd hx List.not_mem_nil, fun _ _ _ => rfl, fun k hle hlt => absurd hle (not_le.2 hlt)⟩
  | cons x enabled ih =>
    have hserved := served h cause x.2
    have hid : x.2.server_id = x.1 := hids x List.mem_cons_self
    obtain ⟨hnew, hnodup⟩ := List.nodup_cons.1 hnodup
    have hrest := ih hserved.tables (fun y hy => hids y (List.mem_cons_of_mem x hy)) hnodup
    have hother : ∀ y ∈ enabled, y.1 ≠ x.2.server_id := fun y hy e =>
      hnew (hid ▸ e ▸ List.mem_map_of_mem hy)
    rw [List.foldl_cons]
    constructor
    · exact hrest.tables
    · intro y hy
      cases List.mem_cons.1 hy with
      | inl hy =>
        subst hy
        obtain ⟨hworkers, hrecords⟩ := hrest.others y.1 hnew
        rw [hworkers, hrecords, hserved.records, ← hid]
        exact ⟨hserved.here, Dict.get_set_self ..⟩
      | inr hy => exact hrest.here y hy
    · intro server_id hout
      rw [List.map_cons, List.mem_cons, not_or] at hout
      obtain ⟨hworkers, hrecords⟩ := hrest.others server_id hout.2
      have hne : server_id ≠ x.2.server_id := hid ▸ hout.1
      rw [hworkers, hrecords, hserved.others _ hne, hserved.records, Dict.get_set_of_ne hne]
      exact ⟨rfl, rfl⟩
    · exact hserved.count.trans hrest.count
    · intro k hk
      have hfirst : (σ.reconcileServer cause x.2).worker k = σ.worker k ∨
          ∃ cause', (σ.reconcileServer cause x.2).worker k = { σ.worker k with cancelled := some cause' } := by
        obtain hsame | ⟨-, ⟨-, hcancelled⟩ | hcancelled⟩ := hserved.worker k hk
        · exact .inl hsame
        · exact .inr ⟨cause, hcancelled⟩
        · exact .inr ⟨.other, hcancelled⟩
      obtain hsame | ⟨cause', hcancelled⟩ := hrest.kept k (hk.trans_le hserved.count)
      · rw [hsame]
        exact hfirst
      · rw [hcancelled]
        obtain hfirst | ⟨_, hfirst⟩ := hfirst
        · exact .inr ⟨cause', by rw [hfirst]⟩
        · exact .inr ⟨cause', by rw [hfirst]⟩
    · intro k hk hcadence
      cases hrest.cadence k (hk.trans_le hserved.count) hcadence with
      | inl hcadence =>
        cases hserved.worker k hk with
        | inl hsame => exact .inl (hsame ▸ hcadence)
        | inr hown =>
          obtain ⟨htask, hcancelled | hcancelled⟩ := hown
          · obtain ⟨hresampled, hworker⟩ := hcancelled
            rw [hworker] at hcadence
            exact .inr ⟨Option.some.inj hcadence, x, List.mem_cons_self, hid ▸ htask, hresampled⟩
          · rw [hcancelled] at hcadence
            cases hcadence
      | inr hcadence =>
        obtain ⟨hcause, y, hy, htask, hresampled⟩ := hcadence
        rw [hserved.task_other h (hother y hy)] at htask
        refine .inr ⟨hcause, y, List.mem_cons_of_mem x hy, htask, (hserved.resampled_iff ?_).1 hresampled⟩
        exact (hids y (List.mem_cons_of_mem x hy)).symm ▸ hother y hy
    · intro y hy k htask hresampled
      cases List.mem_cons.1 hy with
      | inl hy =>
        subst hy
        have hworker := hserved.resampled k (hid.symm ▸ htask) hresampled
        have hget := (task_eq_some.1 htask).1
        have hserver : (σ.reconcileServer cause y.2).server k = y.1 := by
          unfold server
          rw [hworker]
          exact h.owner _ _ hget
        rw [hrest.alone k ((h.born _ _ hget).trans_le hserved.count) (hserver.symm ▸ hnew), hworker]
      | inr hy =>
        have htask' := (hserved.task_other h (hother y hy)).trans htask
        have hsame := hserved.worker_other h (hother y hy) (task_eq_some.1 htask).1
        rw [hrest.resampled y hy k htask' ((hserved.resampled_iff ?_).2 hresampled), hsame]
        exact (hids y (List.mem_cons_of_mem x hy)).symm ▸ hother y hy
    · intro k hk hserver
      rw [List.map_cons, List.mem_cons, not_or] at hserver
      have hsame : (σ.reconcileServer cause x.2).worker k = σ.worker k := by
        cases hserved.worker k hk with
        | inl hsame => exact hsame
        | inr hown => exact absurd ((h.owner _ _ (task_eq_some.1 hown.1).1).trans hid) hserver.1
      have hserver' : (σ.reconcileServer cause x.2).server k = σ.server k := congrArg (·.record.server_id) hsame
      exact (hrest.alone k (hk.trans_le hserved.count) (hserver'.symm ▸ hserver.2)).trans hsame
    · intro k hle hlt
      by_cases hk : k < (σ.reconcileServer cause x.2).count
      · have hfresh := hserved.fresh k hle hk
        have hserver : (σ.reconcileServer cause x.2).server k = x.1 := (congrArg (·.record.server_id) hfresh).trans hid
        exact ⟨x, List.mem_cons_self, (hrest.alone k hk (hserver.symm ▸ hnew)).trans hfresh⟩
      · obtain ⟨y, hy, hfresh⟩ := hrest.fresh k (not_lt.1 hk) hlt
        exact ⟨y, List.mem_cons_of_mem x hy, hfresh⟩

/-- What the second loop of `reconcile` does. -/
structure DroppedAll (keep server_ids : List Text) (σ σ' : Scheduler) : Prop where
  tables : σ'.Tables
  workers : ∀ server_id, σ'.workers.get server_id =
    if server_id ∈ server_ids ∧ server_id ∉ keep then none else σ.workers.get server_id
  records : ∀ server_id, σ'.records.get server_id =
    if server_id ∈ server_ids ∧ server_id ∉ keep then none else σ.records.get server_id
  count : σ'.count = σ.count
  worker : ∀ k, σ'.worker k = σ.worker k ∨
    σ.server k ∉ keep ∧ σ'.worker k = { σ.worker k with cancelled := some .other }

/-- Taking one key out, and then others. -/
lemma get_pop_cons {ν : Type} (d : Dict Text ν) {keep server_ids : List Text} {first : Text} (hkeep : first ∉ keep)
    (server_id : Text) :
    (if server_id ∈ server_ids ∧ server_id ∉ keep then none else (d.pop first).get server_id) =
      if server_id ∈ first :: server_ids ∧ server_id ∉ keep then none else d.get server_id := by
  by_cases hfirst : server_id = first
  · subst hfirst
    rw [Dict.get_pop, if_pos (show server_id ∈ server_id :: server_ids ∧ _ from ⟨List.mem_cons_self, hkeep⟩)]
    split <;> rfl
  · rw [Dict.get_pop_of_ne _ hfirst]
    simp only [List.mem_cons, hfirst, false_or]

lemma droppedAll (h : σ.Tables) (keep server_ids : List Text) :
    DroppedAll keep server_ids σ
      (server_ids.foldl (fun σ server_id => if keep.contains server_id then σ else σ.dropServer server_id) σ) := by
  induction server_ids generalizing σ with
  | nil =>
    have hnot : ∀ server_id : Text, ¬(server_id ∈ [] ∧ server_id ∉ keep) := fun _ h => List.not_mem_nil h.1
    exact ⟨h, fun _ => (if_neg (hnot _)).symm, fun _ => (if_neg (hnot _)).symm, rfl, fun _ => .inl rfl⟩
  | cons first server_ids ih =>
    rw [List.foldl_cons]
    by_cases hkeep : first ∈ keep
    · rw [if_pos (List.contains_iff_mem.2 hkeep)]
      have hrest := ih h
      have hmem : ∀ server_id, server_id ∈ first :: server_ids ∧ server_id ∉ keep ↔
          server_id ∈ server_ids ∧ server_id ∉ keep := by
        intro server_id
        rw [List.mem_cons]
        exact and_congr_left fun hout => or_iff_right fun e => hout (e ▸ hkeep)
      refine ⟨hrest.tables, fun server_id => ?_, fun server_id => ?_, hrest.count, hrest.worker⟩
      · rw [hrest.workers]
        simp only [hmem]
      · rw [hrest.records]
        simp only [hmem]
    · rw [if_neg fun hmem => hkeep (List.contains_iff_mem.1 hmem)]
      have htables : (σ.dropServer first).Tables :=
        ⟨(h.retire first .other).born, (h.retire first .other).owner, (h.retire first .other).live,
          (h.retire first .other).here⟩
      have hworker : ∀ k, (σ.dropServer first).worker k =
          if σ.task first = some k then { σ.worker k with cancelled := some .other } else σ.worker k :=
        worker_retire h first .other
      have hserver : ∀ k, (σ.dropServer first).server k = σ.server k := server_retire h first .other
      have hrest := ih htables
      refine ⟨hrest.tables, fun server_id => ?_, fun server_id => ?_, ?_, fun k => ?_⟩
      · rw [hrest.workers]
        exact (congrArg (ite _ none ·) (congrArg (Dict.get · server_id) (workers_retire σ first .other))).trans
          (get_pop_cons σ.workers hkeep server_id)
      · rw [hrest.records]
        refine .trans ?_ (get_pop_cons σ.records hkeep server_id)
        exact congrArg (ite _ none ·)
          (congrArg (fun d => Dict.get (Dict.pop d first) server_id) (records_retire σ first .other))
      · exact hrest.count.trans (count_retire σ first .other)
      · have hown : σ.task first = some k → σ.server k ∉ keep := by
          intro htask
          rw [h.owner _ _ (task_eq_some.1 htask).1]
          exact hkeep
        have hrestk := hrest.worker k
        rw [hworker, hserver] at hrestk
        split at hrestk
        · rename_i htask
          right
          refine ⟨hown htask, ?_⟩
          cases hrestk with
          | inl hsame => exact hsame
          | inr hagain => exact hagain.2
        · exact hrestk

/-! ### A reconciliation -/

lemma enabledServers_ids {records : List Record} {x : Text × Record} (hx : x ∈ enabledServers records) :
    x.2.server_id = x.1 := by
  obtain ⟨record, -, rfl⟩ := List.mem_map.1 (Dict.mem_of_mem_ofItems hx)
  rfl

lemma mem_keys_enabledServers {records : List Record} : server_id ∈ (enabledServers records).map Prod.fst ↔
    ∃ record ∈ records, record.enabled = true ∧ record.server_id = server_id := by
  unfold enabledServers
  rw [Dict.mem_keys_ofItems, List.map_map, List.mem_map]
  exact exists_congr fun record => (and_congr_left' List.mem_filter).trans and_assoc

/-- Both tables have the same servers. -/
def SameServers (σ : Scheduler) : Prop :=
  ∀ server_id, (σ.workers.get server_id).isSome = (σ.records.get server_id).isSome

/-- What `reconcile` does. -/
structure Applied (cause : Cause) (enabled : Dict Text Record) (σ σ' : Scheduler) : Prop where
  tables : σ'.Tables
  workers : ∀ server_id, (σ'.workers.get server_id).isSome = true ↔ server_id ∈ enabled.map Prod.fst
  records : ∀ server_id, (σ'.records.get server_id).isSome = true ↔ server_id ∈ enabled.map Prod.fst
  count : σ.count ≤ σ'.count
  kept : ∀ k, k < σ.count → σ'.worker k = σ.worker k ∨ ∃ cause, σ'.worker k = { σ.worker k with cancelled := some cause }
  cadence : ∀ k, k < σ.count → (σ'.worker k).cancelled = some .cadence → (σ.worker k).cancelled = some .cadence ∨
    cause = .cadence ∧ ∃ x ∈ enabled, σ.task x.1 = some k ∧ σ.Resampled x.2
  resampled : ∀ x ∈ enabled, ∀ k, σ.task x.1 = some k → σ.Resampled x.2 →
    σ'.worker k = { σ.worker k with cancelled := some cause }
  fresh : ∀ k, σ.count ≤ k → k < σ'.count → ∃ record, σ'.worker k = { record }

lemma applied (h : σ.Tables) (hsame : σ.SameServers) (cause : Cause) (records : List Record) :
    Applied cause (enabledServers records) σ (σ.reconcile cause records) := by
  have hids : ∀ x ∈ enabledServers records, x.2.server_id = x.1 := fun _ => enabledServers_ids
  have hserved := servedAll h cause hids (Dict.nodup_keys_ofItems _)
  have hdropped := droppedAll hserved.tables ((enabledServers records).map Prod.fst)
    (((enabledServers records).foldl (fun σ x => σ.reconcileServer cause x.2) σ).workers.map Prod.fst)
  -- who works or is recorded behind the first loop, and is not enabled, is in the table that the second one runs over
  have hlisted : ∀ server_id, server_id ∉ (enabledServers records).map Prod.fst →
      (σ.workers.get server_id).isSome = true → server_id ∈
        ((enabledServers records).foldl (fun σ x => σ.reconcileServer cause x.2) σ).workers.map Prod.fst := by
    intro server_id hout hworks
    rw [← (hserved.others server_id hout).1] at hworks
    exact Dict.isSome_get_iff.1 hworks
  constructor
  · exact hdropped.tables
  · intro server_id
    rw [show (σ.reconcile cause records).workers.get server_id = _ from hdropped.workers server_id]
    by_cases hmem : server_id ∈ (enabledServers records).map Prod.fst
    · rw [if_neg fun hout => hout.2 hmem]
      obtain ⟨x, hx, rfl⟩ := List.mem_map.1 hmem
      exact iff_of_true (hserved.here x hx).1 hmem
    · refine iff_of_false (fun hsome => ?_) hmem
      split at hsome
      · cases hsome
      · rename_i hin
        rw [(hserved.others server_id hmem).1] at hsome
        exact hin ⟨hlisted server_id hmem hsome, hmem⟩
  · intro server_id
    rw [show (σ.reconcile cause records).records.get server_id = _ from hdropped.records server_id]
    by_cases hmem : server_id ∈ (enabledServers records).map Prod.fst
    · rw [if_neg fun hout => hout.2 hmem]
      obtain ⟨x, hx, rfl⟩ := List.mem_map.1 hmem
      exact iff_of_true (by rw [(hserved.here x hx).2]; rfl) hmem
    · refine iff_of_false (fun hsome => ?_) hmem
      split at hsome
      · cases hsome
      · rename_i hin
        rw [(hserved.others server_id hmem).2, ← hsame] at hsome
        exact hin ⟨hlisted server_id hmem hsome, hmem⟩
  · exact hserved.count.trans hdropped.count.ge
  · intro k hk
    obtain hsame | ⟨-, hcancelled⟩ := hdropped.worker k
    · obtain hfirst | ⟨cause, hfirst⟩ := hserved.kept k hk
      · exact .inl (hsame.trans hfirst)
      · exact .inr ⟨cause, hsame.trans hfirst⟩
    · obtain hfirst | ⟨_, hfirst⟩ := hserved.kept k hk
      · exact .inr ⟨.other, hcancelled.trans (by rw [hfirst])⟩
      · exact .inr ⟨.other, hcancelled.trans (by rw [hfirst])⟩
  · intro k hk hcadence
    cases hdropped.worker k with
    | inl hworker => exact hserved.cadence k hk (hworker ▸ hcadence)
    | inr hother =>
      rw [show (σ.reconcile cause records).worker k = _ from hother.2] at hcadence
      cases hcadence
  · intro x hx k htask hresampled
    have hworker := hserved.resampled x hx k htask hresampled
    have hserver : Scheduler.server _ k = x.1 :=
      (congrArg (·.record.server_id) hworker).trans (h.owner _ _ (task_eq_some.1 htask).1)
    cases hdropped.worker k with
    | inl hsame => exact hsame.trans hworker
    | inr hother => exact absurd (List.mem_map_of_mem hx) (hserver ▸ hother.1)
  · intro k hle hlt
    obtain ⟨x, hx, hfresh⟩ := hserved.fresh k hle (hlt.trans_eq hdropped.count)
    have hserver : Scheduler.server _ k = x.1 := (congrArg (·.record.server_id) hfresh).trans (hids x hx)
    cases hdropped.worker k with
    | inl hsame => exact ⟨x.2, hsame.trans hfresh⟩
    | inr hother => exact absurd (List.mem_map_of_mem hx) (hserver ▸ hother.1)

/-- What a reconciliation leaves alone. -/
structure Left (σ σ' : Scheduler) : Prop where
  closes : σ'.closes = σ.closes
  wakeups : σ'.wakeups = σ.wakeups
  detail : σ'.detail_servers = σ.detail_servers
  clients : σ'.active_clients = σ.active_clients
  last_seen : σ'.last_client_seen = σ.last_client_seen
  revision : σ'.demand_revision = σ.demand_revision

lemma Left.refl (σ : Scheduler) : Left σ σ := ⟨rfl, rfl, rfl, rfl, rfl, rfl⟩

lemma Left.trans {σ'' : Scheduler} (h : Left σ σ') (h' : Left σ' σ'') : Left σ σ'' where
  closes := h'.closes.trans h.closes
  wakeups := h'.wakeups.trans h.wakeups
  detail := h'.detail.trans h.detail
  clients := h'.clients.trans h.clients
  last_seen := h'.last_seen.trans h.last_seen
  revision := h'.revision.trans h.revision

lemma left_retire (σ : Scheduler) (server_id : Text) (cause : Cause) : Left σ (σ.retire server_id cause) := by
  unfold retire
  dsimp only
  split
  · unfold cancel
    split <;> exact ⟨rfl, rfl, rfl, rfl, rfl, rfl⟩
  · exact ⟨rfl, rfl, rfl, rfl, rfl, rfl⟩

lemma left_reconcileServer (σ : Scheduler) (cause : Cause) (record : Record) :
    Left σ (σ.reconcileServer cause record) := by
  have hretire : ∀ (b : Bool) (cause : Cause) (σ : Scheduler), Left σ
      (if b then σ.retire record.server_id cause else σ) := by
    intro b cause σ
    cases b with
    | true => exact left_retire σ _ cause
    | false => exact .refl σ
  have hspawn : ∀ (b : Bool) (σ : Scheduler), Left σ { (if b then σ.spawn record else σ) with
      records := (if b then σ.spawn record else σ).records.set record.server_id record } := by
    intro b σ
    cases b <;> exact ⟨rfl, rfl, rfl, rfl, rfl, rfl⟩
  exact ((hretire _ cause σ).trans (hretire _ .other _)).trans (hspawn _ _)

lemma left_dropServer (σ : Scheduler) (server_id : Text) : Left σ (σ.dropServer server_id) := by
  obtain ⟨hcloses, hwakeups, hdetail, hclients, hseen, hrevision⟩ := left_retire σ server_id .other
  exact ⟨hcloses, hwakeups, hdetail, hclients, hseen, hrevision⟩

lemma left_foldl {α : Type} {f : Scheduler → α → Scheduler} (hf : ∀ σ x, Left σ (f σ x)) (xs : List α) :
    Left σ (xs.foldl f σ) := by
  induction xs generalizing σ with
  | nil => exact .refl σ
  | cons x xs ih => exact (hf σ x).trans ih

lemma left_reconcile (σ : Scheduler) (cause : Cause) (records : List Record) : Left σ (σ.reconcile cause records) := by
  have hserved : Left σ ((enabledServers records).foldl (fun σ x => σ.reconcileServer cause x.2) σ) :=
    left_foldl (fun σ (x : Text × Record) => left_reconcileServer σ cause x.2) _
  refine hserved.trans (left_foldl (fun σ server_id => ?_) _)
  split
  · exact .refl σ
  · exact left_dropServer σ server_id

/-! ### Runs -/

/-- A change of the workers that changes neither whose they are nor who is cancelled, and ends no one's end. -/
lemma Tables.of_same (h : σ.Tables) (hworkers : σ'.workers = σ.workers) (hcount : σ'.count = σ.count)
    (hworker : ∀ k, (σ'.worker k).record = (σ.worker k).record ∧ (σ'.worker k).cancelled = (σ.worker k).cancelled ∧
      ((σ.worker k).phase = .done → (σ'.worker k).phase = .done)) : σ'.Tables := by
  have hserver : ∀ k, σ'.server k = σ.server k := fun k => congrArg (·.server_id) (hworker k).1
  constructor
  · intro server_id w hw
    rw [hcount]
    exact h.born server_id w (hworkers ▸ hw)
  · intro server_id w hw
    rw [hserver]
    exact h.owner server_id w (hworkers ▸ hw)
  · intro server_id w hw
    rw [(hworker w).2.1]
    exact h.live server_id w (hworkers ▸ hw)
  · intro w hw hlive hrunning
    rw [hworkers, hserver]
    exact h.here w (hcount ▸ hw) ((hworker w).2.1 ▸ hlive) fun hdone => hrunning ((hworker w).2.2 hdone)

lemma resume_done (answer : Answer) (jitter : ℚ) (hdone : (σ.worker w).phase = .done) :
    σ.resume settings w now answer jitter = σ := by
  unfold resume
  dsimp only
  rw [hdone]

lemma Tables.resume (h : σ.Tables) (answer : Answer) (jitter : ℚ) :
    (σ.resume settings w now answer jitter).Tables := by
  have hran : Ran w σ (σ.resume settings w now answer jitter) := ran_resume answer jitter
  refine h.of_same hran.workers hran.count fun k => ?_
  by_cases hk : k = w
  · subst hk
    refine ⟨hran.record, hran.cancelled, fun hdone => ?_⟩
    rw [resume_done answer jitter hdone]
    exact hdone
  · rw [hran.others k hk]
    exact ⟨rfl, rfl, id⟩

lemma Tables.setDemand (h : σ.Tables) (active_clients : ℤ) (detail_servers : List Text) :
    (σ.setDemand now active_clients detail_servers).Tables := by
  have hsame : (σ.setDemand now active_clients detail_servers).workers = σ.workers ∧
      (σ.setDemand now active_clients detail_servers).count = σ.count := by
    unfold Scheduler.setDemand
    dsimp only
    split <;> exact ⟨rfl, rfl⟩
  refine h.of_same hsame.1 hsame.2 fun k => ?_
  obtain ⟨wakeup, hworker⟩ := worker_setDemand σ now active_clients detail_servers k
  rw [hworker]
  exact ⟨rfl, rfl, id⟩

lemma tables_init : init.Tables where
  born _ _ h := absurd h.symm (Option.some_ne_none _)
  owner _ _ h := absurd h.symm (Option.some_ne_none _)
  live _ _ h := absurd h.symm (Option.some_ne_none _)
  here w hw := absurd hw (Nat.not_lt_zero w)

/-- What holds of the tables in every run. -/
def Consistent (σ : Scheduler) : Prop := σ.Tables ∧ σ.SameServers

lemma Consistent.step (h : σ.Consistent) (e : Event) : (σ.step settings e).Consistent := by
  cases e with
  | setDemand active_clients detail_servers now =>
    refine ⟨h.1.setDemand active_clients detail_servers, ?_⟩
    show (σ.setDemand now active_clients detail_servers).SameServers
    unfold Scheduler.setDemand
    dsimp only
    split <;> exact h.2
  | reconcile records =>
    have happlied := applied h.1 h.2 (σ.cause records) records
    exact ⟨happlied.tables, fun server_id => Bool.eq_iff_iff.2
      ((happlied.workers server_id).trans (happlied.records server_id).symm)⟩
  | run w answer now jitter =>
    show (if w < σ.count then σ.resume settings w now answer jitter else σ).Consistent
    split
    · have hran : Ran w σ (σ.resume settings w now answer jitter) := ran_resume answer jitter
      refine ⟨h.1.resume answer jitter, fun server_id => ?_⟩
      rw [hran.workers, hran.records]
      exact h.2 server_id
    · exact h

lemma consistent_after (es : List Event) : (after (step settings) init es).Consistent :=
  inv_after ⟨tables_init, fun _ => rfl⟩ fun _ e h => h.step e

end Scheduler
end SshGpuConsole.Scheduling
