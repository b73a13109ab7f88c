import Mathlib
import SshGpuConsole.Lib.Shell

/-!
# Transfer batches

`BatchRegistry` (`transfer/batch.py`): batches derive their state from the states of their jobs, until a
terminal view is frozen on the record. A registry is driven by calls; `Permanent` is what a batch whose jobs
were all seen terminal keeps answering, and `permanent_of_viewed` when it does.
-/

namespace SshGpuConsole.Batch
open Shell (Text)
open scoped List

inductive TransferState where
  | queued
  | planning
  | running
  | verifying
  | completed
  | failed
  | cancelled
  deriving DecidableEq, Repr

inductive TransferBatchState where
  | queued
  | running
  | completed
  | partialFailed
  | failed
  | cancelled
  deriving DecidableEq, Repr

/-- `_TERMINAL_STATES`. -/
def TransferState.terminal : TransferState → Bool
  | .completed | .failed | .cancelled => true
  | _ => false

/-- `_IN_FLIGHT_STATES`. -/
def TransferState.inFlight : TransferState → Bool
  | .planning | .running | .verifying => true
  | _ => false

/-- `_TERMINAL_BATCH_STATES`. -/
def TransferBatchState.terminal : TransferBatchState → Bool
  | .completed | .partialFailed | .failed | .cancelled => true
  | _ => false

structure TransferBatch where
  batch_id : Text
  project_id : Text
  target_server_id : Text
  job_ids : List Text
  created_at : Text
  state : TransferBatchState
  total_jobs : ℕ
  queued_jobs : ℕ
  running_jobs : ℕ
  completed_jobs : ℕ
  failed_jobs : ℕ
  cancelled_jobs : ℕ
  deriving DecidableEq, Repr

/-- `_Record`. -/
structure Record where
  batch_id : Text
  project_id : Text
  target_server_id : Text
  job_ids : List Text
  created_at : Text
  frozen_view : Option TransferBatch := none
  deriving DecidableEq, Repr

/-- The `job_states` a read is passed. -/
abbrev JobStates := Text → Option TransferState

/-- `job_states.get(job_id, QUEUED)`. -/
def stateOf (job_states : JobStates) (job_id : Text) : TransferState := (job_states job_id).getD .queued

/-- `_all_terminal`. -/
def allTerminal (job_ids : List Text) (job_states : JobStates) : Bool :=
  job_ids.all fun job_id => (stateOf job_states job_id).terminal

/-- `_derive_state`. -/
def deriveState (queued running completed failed cancelled : ℕ) : TransferBatchState :=
  if queued + running + completed + failed + cancelled = 0 then .completed
  else if 0 < running ∨ 0 < queued ∧ 0 < completed + failed + cancelled then .running
  else if 0 < queued then .queued
  else if 0 < failed then if 0 < completed then .partialFailed else .failed
  else if 0 < cancelled then if 0 < completed then .partialFailed else .cancelled
  else .completed

/-- The view of `_view`, derived from the states of the jobs. -/
def Record.derive (record : Record) (job_states : JobStates) : TransferBatch :=
  let states := record.job_ids.map (stateOf job_states)
  let queued := states.countP (· = .queued)
  let running := states.countP TransferState.inFlight
  let completed := states.countP (· = .completed)
  let failed := states.countP (· = .failed)
  let cancelled := states.countP (· = .cancelled)
  { batch_id := record.batch_id
    project_id := record.project_id
    target_server_id := record.target_server_id
    job_ids := record.job_ids
    created_at := record.created_at
    state := deriveState queued running completed failed cancelled
    total_jobs := record.job_ids.length
    queued_jobs := queued
    running_jobs := running
    completed_jobs := completed
    failed_jobs := failed
    cancelled_jobs := cancelled }

/-- What `_view` returns. -/
def Record.view (record : Record) (job_states : JobStates) : TransferBatch :=
  record.frozen_view.getD (record.derive job_states)

/-- What `_view` leaves on the record. -/
def Record.viewed (record : Record) (job_states : JobStates) : Record :=
  match record.frozen_view with
  | some _ => record
  | none =>
    let view := record.derive job_states
    if view.state.terminal then { record with frozen_view := some view } else record

/-- `BatchRegistry`. -/
structure Registry where
  history_limit : ℕ := 50
  /-- In the order of insertion. -/
  active : List Record := []
  /-- Newest first. -/
  history : List Record := []
  deriving DecidableEq, Repr

/-- The records a registry still has. -/
def Registry.retained (r : Registry) : List Record := r.active ++ r.history

/-- `appendleft` on the bounded deque. -/
def appendleft (limit : ℕ) (history : List Record) (record : Record) : List Record := (record :: history).take limit

/-- `_archive_finished`. -/
def Registry.archiveFinished (r : Registry) (job_states : JobStates) : Registry :=
  let finished := r.active.filter fun record => allTerminal record.job_ids job_states
  { r with
    active := r.active.filter fun record => !allTerminal record.job_ids job_states
    history := finished.foldl (appendleft r.history_limit) r.history }

/-- The view of the first record with the id is built. -/
def viewFirst (batch_id : Text) (job_states : JobStates) : List Record → List Record
  | [] => []
  | record :: rest =>
    if record.batch_id = batch_id then record.viewed job_states :: rest
    else record :: viewFirst batch_id job_states rest

/-- The first record with the id. -/
def find (batch_id : Text) (records : List Record) : Option Record := records.find? (·.batch_id = batch_id)

/-- `get`: the view, if the batch is known. -/
def Registry.get (r : Registry) (batch_id : Text) (job_states : JobStates) : Option TransferBatch × Registry :=
  let r := r.archiveFinished job_states
  match find batch_id r.active with
  | some record => (some (record.view job_states), { r with active := viewFirst batch_id job_states r.active })
  | none =>
    match find batch_id r.history with
    | some record => (some (record.view job_states), { r with history := viewFirst batch_id job_states r.history })
    | none => (none, r)

/-- `list`: active and history, both newest first. -/
def Registry.list (r : Registry) (job_states : JobStates) : List TransferBatch × Registry :=
  let r := r.archiveFinished job_states
  (r.active.reverse.map (·.view job_states) ++ r.history.map (·.view job_states),
    { r with
      active := r.active.map (·.viewed job_states)
      history := r.history.map (·.viewed job_states) })

/-- The loop of `start` over what the callback answers for each item: the jobs it made, and whether it raised. -/
def createJobs : List (Option Text) → List Text × Bool
  | [] => ([], false)
  | none :: _ => ([], true)
  | some job_id :: rest =>
    let (job_ids, raised) := createJobs rest
    (job_id :: job_ids, raised)

/-- `_register`, with the id and the time it takes. -/
def Registry.register (r : Registry) (record : Record) : Registry := { r with active := r.active ++ [record] }

/-- `start`: the view of the new batch, unless the callback raised. -/
def Registry.start (r : Registry) (batch_id project_id target_server_id created_at : Text)
    (created : List (Option Text)) : Option TransferBatch × Registry :=
  let (job_ids, raised) := createJobs created
  let record : Record := { batch_id, project_id, target_server_id, job_ids, created_at }
  if raised then (none, if job_ids = [] then r else r.register record)
  else (some (record.view fun _ => none), r.register (record.viewed fun _ => none))

/-! ### Histories -/

/-- A call of the registry. -/
inductive Call where
  | start (batch_id project_id target_server_id created_at : Text) (created : List (Option Text))
  | get (batch_id : Text) (job_states : JobStates)
  | list (job_states : JobStates)

/-- The views a call returns. -/
def Call.views (r : Registry) : Call → List TransferBatch
  | .start b p t at_ created => (r.start b p t at_ created).1.toList
  | .get b m => (r.get b m).1.toList
  | .list m => (r.list m).1

/-- What a call leaves. -/
def Call.after (r : Registry) : Call → Registry
  | .start b p t at_ created => (r.start b p t at_ created).2
  | .get b m => (r.get b m).2
  | .list m => (r.list m).2

/-- The registry behind some calls. -/
def after (r : Registry) (calls : List Call) : Registry := calls.foldl Call.after r

/-- The id a call makes a batch under. -/
def Call.starts : Call → Option Text
  | .start b _ _ _ _ => some b
  | _ => none

/-- The call is a read whose states show all the jobs of the record terminal. -/
def Call.Observes (record : Record) : Call → Prop
  | .start _ _ _ _ _ => False
  | .get _ m | .list m => allTerminal record.job_ids m = true

instance (record : Record) : (call : Call) → Decidable (call.Observes record)
  | .start _ _ _ _ _ => inferInstanceAs (Decidable False)
  | .get _ m | .list m => inferInstanceAs (Decidable (allTerminal record.job_ids m = true))

/-- The call builds the view of the batch. -/
def Call.Views (batch_id : Text) : Call → Prop
  | .start b _ _ _ _ | .get b _ => b = batch_id
  | .list _ => True

instance (batch_id : Text) : (call : Call) → Decidable (call.Views batch_id)
  | .start b _ _ _ _ | .get b _ => inferInstanceAs (Decidable (b = batch_id))
  | .list _ => inferInstanceAs (Decidable True)

/-! ### One call -/

/-- A batch whose jobs are all terminal derives a terminal state. -/
lemma derive_terminal {record : Record} {m : JobStates} (h : allTerminal record.job_ids m = true) :
    (record.derive m).state.terminal = true := by
  have hzero : ∀ p : TransferState → Bool, (∀ s, s.terminal = true → p s = false) →
      (record.job_ids.map (stateOf m)).countP p = 0 := by
    intro p hp
    refine List.countP_eq_zero.2 fun s hs => ?_
    obtain ⟨job_id, hj, rfl⟩ := List.mem_map.1 hs
    rw [hp _ (List.all_eq_true.1 h job_id hj)]
    exact Bool.false_ne_true
  have hqueued : (record.job_ids.map (stateOf m)).countP (· = .queued) = 0 := hzero _ fun s hs => by cases s <;> trivial
  have hrunning : (record.job_ids.map (stateOf m)).countP TransferState.inFlight = 0 :=
    hzero _ fun s hs => by cases s <;> trivial
  have hstate : ∀ completed failed cancelled, (deriveState 0 0 completed failed cancelled).terminal = true := by
    intro completed failed cancelled
    rw [deriveState]
    split
    · rfl
    · rw [if_neg (by omega), if_neg (by omega)]
      split
      · split <;> rfl
      · split
        · split <;> rfl
        · rfl
  show (deriveState _ _ _ _ _).terminal = true
  rw [hqueued, hrunning]
  exact hstate _ _ _

@[simp] lemma viewed_batch_id (record : Record) (m : JobStates) : (record.viewed m).batch_id = record.batch_id := by
  rw [Record.viewed]
  split
  · rfl
  · dsimp only
    split <;> rfl

lemma viewed_of_frozen {record : Record} {view : TransferBatch} (h : record.frozen_view = some view) (m : JobStates) :
    record.viewed m = record := by
  rw [Record.viewed, h]

/-- A terminal view is frozen when it is built. -/
lemma viewed_frozen {record : Record} {m : JobStates} (h : allTerminal record.job_ids m = true) :
    ∃ view, (record.viewed m).frozen_view = some view := by
  rw [Record.viewed]
  split
  · rename_i view hv
    exact ⟨view, hv⟩
  · dsimp only
    rw [if_pos (derive_terminal h)]
    exact ⟨_, rfl⟩

/-- The views a record can have frozen are terminal views of the batch. -/
def Record.Sound (record : Record) : Prop :=
  ∀ view, record.frozen_view = some view → view.batch_id = record.batch_id ∧ view.state.terminal = true

lemma Record.Sound.viewed {record : Record} (h : record.Sound) (m : JobStates) : (record.viewed m).Sound := by
  intro view hv
  rw [viewed_batch_id]
  rw [Record.viewed] at hv
  split at hv
  · exact h view hv
  · rename_i hnone
    dsimp only at hv
    split at hv
    · rename_i hterminal
      obtain rfl := Option.some.inj hv
      exact ⟨rfl, hterminal⟩
    · rw [hnone] at hv
      cases hv

/-- A view is of the batch it is built for. -/
lemma Record.Sound.view_batch_id {record : Record} (h : record.Sound) (m : JobStates) :
    (record.view m).batch_id = record.batch_id := by
  rw [Record.view]
  cases hv : record.frozen_view with
  | none => rfl
  | some view => exact (h view hv).1

lemma foldl_appendleft (limit : ℕ) (finished history : List Record) :
    finished.foldl (appendleft limit) history <+~ finished ++ history := by
  induction finished generalizing history with
  | nil => exact List.Subperm.refl _
  | cons record finished ih =>
    have htake : appendleft limit history record <+~ record :: history := (List.take_sublist _ _).subperm
    refine (ih _).trans (((List.subperm_append_left finished).2 htake).trans ?_)
    exact List.perm_middle.subperm

/-- Archiving moves records and may drop some. -/
lemma archiveFinished_retained (r : Registry) (m : JobStates) : (r.archiveFinished m).retained <+~ r.retained := by
  have hsplit := List.filter_append_perm (fun record : Record => allTerminal record.job_ids m) r.active
  refine ((List.subperm_append_left _).2 (foldl_appendleft _ _ _)).trans ?_
  rw [← List.append_assoc]
  exact ((List.perm_append_comm.trans hsplit).append_right r.history).subperm

lemma viewFirst_map_batch_id (b : Text) (m : JobStates) (l : List Record) :
    (viewFirst b m l).map Record.batch_id = l.map Record.batch_id := by
  induction l with
  | nil => rfl
  | cons record l ih =>
    rw [viewFirst]
    split
    · rw [List.map_cons, List.map_cons, viewed_batch_id]
    · rw [List.map_cons, List.map_cons, ih]

lemma mem_viewFirst {b : Text} {m : JobStates} {l : List Record} {x : Record} (h : x ∈ viewFirst b m l) :
    x ∈ l ∨ ∃ y ∈ l, x = y.viewed m := by
  induction l with
  | nil => cases h
  | cons record l ih =>
    rw [viewFirst] at h
    split at h
    · rcases List.mem_cons.1 h with rfl | h
      · exact .inr ⟨record, List.mem_cons_self, rfl⟩
      · exact .inl (List.mem_cons_of_mem _ h)
    · rcases List.mem_cons.1 h with rfl | h
      · exact .inl List.mem_cons_self
      · rcases ih h with h | ⟨y, hy, rfl⟩
        · exact .inl (List.mem_cons_of_mem _ h)
        · exact .inr ⟨y, List.mem_cons_of_mem _ hy, rfl⟩

lemma find_eq_some {b : Text} {l : List Record} {record : Record} (h : find b l = some record) :
    record ∈ l ∧ record.batch_id = b :=
  ⟨List.mem_of_find?_eq_some h, by simpa using List.find?_some h⟩

/-- The first record with the id is the one whose view is built. -/
lemma viewed_of_mem_viewFirst {b : Text} {m : JobStates} {l : List Record} (hl : (l.map Record.batch_id).Nodup)
    {x : Record} (h : x ∈ viewFirst b m l) (hx : x.batch_id = b) : ∃ y ∈ l, x = y.viewed m := by
  induction l with
  | nil => cases h
  | cons record l ih =>
    rw [List.map_cons, List.nodup_cons] at hl
    rw [viewFirst] at h
    split at h
    · rename_i hrec
      rcases List.mem_cons.1 h with rfl | h
      · exact ⟨record, List.mem_cons_self, rfl⟩
      · exact absurd (List.mem_map.2 ⟨x, h, hx.trans hrec.symm⟩) hl.1
    · rename_i hrec
      rcases List.mem_cons.1 h with rfl | h
      · exact absurd hx hrec
      · obtain ⟨y, hy, rfl⟩ := ih hl.2 h
        exact ⟨y, List.mem_cons_of_mem _ hy, rfl⟩

/-- What a call can do to the records: keep one, build its view, or add the one that is started. -/
inductive Came (r : Registry) (call : Call) (x : Record) : Prop where
  | kept (h : x ∈ r.retained)
  | viewed (y : Record) (h : y ∈ r.retained) (m : JobStates) (hx : x = y.viewed m)
  | started (h : call.starts = some x.batch_id) (hx : x.Sound)

lemma new_sound {b p t a : Text} {job_ids : List Text} : (Record.mk b p t job_ids a none).Sound :=
  fun _ h => by cases h

/-- Where the records behind a call come from. -/
lemma came_of_mem {r : Registry} {call : Call} {x : Record} (h : x ∈ (call.after r).retained) : Came r call x := by
  cases call with
  | start b p t a created =>
    simp only [Call.after, Registry.start] at h
    split at h
    · dsimp only at h
      split at h
      · exact .kept h
      · rw [Registry.retained, Registry.register, List.append_assoc] at h
        rcases List.mem_append.1 h with h | h
        · exact .kept (List.mem_append_left _ h)
        · rcases List.mem_cons.1 h with rfl | h
          · exact .started rfl new_sound
          · exact .kept (List.mem_append_right _ h)
    · rw [Registry.retained, Registry.register, List.append_assoc] at h
      rcases List.mem_append.1 h with h | h
      · exact .kept (List.mem_append_left _ h)
      · rcases List.mem_cons.1 h with rfl | h
        · refine .started ?_ (new_sound.viewed _)
          rw [viewed_batch_id]
          rfl
        · exact .kept (List.mem_append_right _ h)
  | get b m =>
    have hsub := (archiveFinished_retained r m).subset
    simp only [Call.after, Registry.get] at h
    split at h
    · rcases List.mem_append.1 h with h | h
      · rcases mem_viewFirst h with h | ⟨y, hy, rfl⟩
        · exact .kept (hsub (List.mem_append_left _ h))
        · exact .viewed y (hsub (List.mem_append_left _ hy)) m rfl
      · exact .kept (hsub (List.mem_append_right _ h))
    · split at h
      · rcases List.mem_append.1 h with h | h
        · exact .kept (hsub (List.mem_append_left _ h))
        · rcases mem_viewFirst h with h | ⟨y, hy, rfl⟩
          · exact .kept (hsub (List.mem_append_right _ h))
          · exact .viewed y (hsub (List.mem_append_right _ hy)) m rfl
      · exact .kept (hsub h)
  | list m =>
    have hsub := (archiveFinished_retained r m).subset
    rcases List.mem_append.1 h with h | h
    · obtain ⟨y, hy, rfl⟩ := List.mem_map.1 h
      exact .viewed y (hsub (List.mem_append_left _ hy)) m rfl
    · obtain ⟨y, hy, rfl⟩ := List.mem_map.1 h
      exact .viewed y (hsub (List.mem_append_right _ hy)) m rfl

/-- The ids behind a call are ids before it, or the one that is started. -/
lemma ids_after (r : Registry) (call : Call) :
    ((call.after r).retained.map Record.batch_id) <+~ call.starts.toList ++ r.retained.map Record.batch_id := by
  have hcat : ∀ l₁ l₂ l₃ l₄ : List Record, l₁.map Record.batch_id = l₃.map Record.batch_id →
      l₂.map Record.batch_id = l₄.map Record.batch_id →
      (l₁ ++ l₂).map Record.batch_id = (l₃ ++ l₄).map Record.batch_id := by
    intro l₁ l₂ l₃ l₄ h h'
    rw [List.map_append, List.map_append, h, h']
  have harchive : ∀ m, (r.archiveFinished m).retained.map Record.batch_id <+~ r.retained.map Record.batch_id := by
    intro m
    obtain ⟨l, hperm, hsub⟩ := archiveFinished_retained r m
    exact ⟨l.map Record.batch_id, hperm.map _, hsub.map _⟩
  cases call with
  | start b p t a created =>
    have hnew : ∀ x : Record, x.batch_id = b →
        (r.register x).retained.map Record.batch_id <+~ b :: r.retained.map Record.batch_id := by
      intro x hx
      rw [Registry.retained, Registry.register, List.append_assoc, List.map_append, List.singleton_append, List.map_cons, hx,
        Registry.retained, List.map_append]
      exact List.perm_middle.subperm
    show ((r.start b p t a created).2.retained.map Record.batch_id) <+~ _
    rw [Registry.start]
    dsimp only
    split
    · dsimp only
      split
      · exact List.Subperm.cons_right _ (List.Subperm.refl _)
      · exact hnew _ rfl
    · exact hnew _ (viewed_batch_id _ _)
  | get b m =>
    refine List.Subperm.trans (List.Perm.subperm (List.Perm.of_eq ?_)) (harchive m)
    show ((r.get b m).2.retained.map Record.batch_id) = _
    rw [Registry.get]
    split
    · exact hcat _ _ _ _ (viewFirst_map_batch_id b m _) rfl
    · split
      · exact hcat _ _ _ _ rfl (viewFirst_map_batch_id b m _)
      · rfl
  | list m =>
    refine List.Subperm.trans (List.Perm.subperm (List.Perm.of_eq ?_)) (harchive m)
    have hmap : ∀ l : List Record, (l.map (·.viewed m)).map Record.batch_id = l.map Record.batch_id := by
      intro l
      rw [List.map_map]
      exact List.map_congr_left fun x _ => viewed_batch_id x m
    exact hcat _ _ _ _ (hmap _) (hmap _)

/-! ### Invariants -/

/-- Ids are unique, and what is frozen is a terminal view of its batch. -/
structure Wf (r : Registry) : Prop where
  ids : (r.retained.map Record.batch_id).Nodup
  sound : ∀ record ∈ r.retained, record.Sound

lemma wf_empty (limit : ℕ) : Wf { history_limit := limit } := ⟨List.nodup_nil, fun _ h => absurd h List.not_mem_nil⟩

lemma Wf.after {r : Registry} (h : Wf r) {call : Call} (hfresh : ∀ b, call.starts = some b → b ∉ r.retained.map Record.batch_id) :
    Wf (call.after r) := by
  refine ⟨?_, fun x hx => ?_⟩
  · obtain ⟨l, hperm, hsub⟩ := ids_after r call
    refine hperm.nodup_iff.1 (hsub.nodup ?_)
    cases hs : call.starts with
    | none => exact h.ids
    | some b => exact List.nodup_cons.2 ⟨hfresh b hs, h.ids⟩
  · cases came_of_mem hx with
    | kept hx => exact h.sound x hx
    | viewed y hy m hx =>
      subst hx
      exact (h.sound y hy).viewed m
    | started hb hx => exact hx

/-- Records with one id are one record. -/
lemma Wf.unique {r : Registry} (h : Wf r) {x y : Record} (hx : x ∈ r.retained) (hy : y ∈ r.retained)
    (he : x.batch_id = y.batch_id) : x = y :=
  List.inj_on_of_nodup_map h.ids hx hy he

/-- Whatever the registry still has under the id has the view frozen. -/
def Settled (b : Text) (view : TransferBatch) (r : Registry) : Prop :=
  ∀ record ∈ r.retained, record.batch_id = b → record.frozen_view = some view

lemma Settled.after {b : Text} {view : TransferBatch} {r : Registry} (h : Settled b view r) {call : Call}
    (hstart : call.starts ≠ some b) : Settled b view (call.after r) := by
  intro x hx hb
  cases came_of_mem hx with
  | kept hx => exact h x hx hb
  | viewed y hy m hx =>
    subst hx
    rw [viewed_batch_id] at hb
    have hy := h y hy hb
    rw [viewed_of_frozen hy]
    exact hy
  | started hs _ => exact absurd (hb ▸ hs) hstart

/-- Every view a call returns is the view of a record that is retained before the call, or of the new one. -/
lemma view_of_mem {r : Registry} {call : Call} {v : TransferBatch} (h : v ∈ call.views r) :
    (∃ record ∈ r.retained, ∃ m, v = record.view m) ∨ call.starts = some v.batch_id := by
  cases call with
  | start b p t a created =>
    right
    simp only [Call.views, Registry.start] at h
    split at h
    · cases h
    · rw [List.mem_singleton.1 h]
      rfl
  | get b m =>
    left
    have hsub := (archiveFinished_retained r m).subset
    simp only [Call.views, Registry.get] at h
    split at h
    · rename_i record hrecord
      exact ⟨record, hsub (List.mem_append_left _ (find_eq_some hrecord).1), m, List.mem_singleton.1 h⟩
    · split at h
      · rename_i record hrecord
        exact ⟨record, hsub (List.mem_append_right _ (find_eq_some hrecord).1), m, List.mem_singleton.1 h⟩
      · cases h
  | list m =>
    left
    have hsub := (archiveFinished_retained r m).subset
    rcases List.mem_append.1 h with h | h
    · obtain ⟨record, hrecord, rfl⟩ := List.mem_map.1 h
      exact ⟨record, hsub (List.mem_append_left _ (List.mem_reverse.1 hrecord)), m, rfl⟩
    · obtain ⟨record, hrecord, rfl⟩ := List.mem_map.1 h
      exact ⟨record, hsub (List.mem_append_right _ hrecord), m, rfl⟩

/-- A settled batch answers its frozen view. -/
lemma Settled.view {b : Text} {view : TransferBatch} {r : Registry} (h : Settled b view r) (hw : Wf r) {call : Call}
    (hstart : call.starts ≠ some b) {v : TransferBatch} (hv : v ∈ call.views r) (hb : v.batch_id = b) : v = view := by
  rcases view_of_mem hv with ⟨record, hrecord, m, rfl⟩ | hs
  · rw [(hw.sound record hrecord).view_batch_id m] at hb
    rw [Record.view, h record hrecord hb]
    rfl
  · exact absurd (hb ▸ hs) hstart

/-- A read that builds the view of a batch whose jobs are all terminal settles it. -/
lemma settled_of_viewed {r : Registry} (hw : Wf r) {read : Call} {record : Record} (hrecord : record ∈ r.retained)
    (hobserves : read.Observes record) (hviews : read.Views record.batch_id) :
    ∃ view, view.state.terminal = true ∧ Settled record.batch_id view (read.after r) := by
  -- what is left under the id is the record with its view built
  have hsettled : ∀ m, allTerminal record.job_ids m = true →
      (∀ x ∈ (read.after r).retained, x.batch_id = record.batch_id →
        ∃ y ∈ (r.archiveFinished m).retained, x = y.viewed m) →
      ∃ view, view.state.terminal = true ∧ Settled record.batch_id view (read.after r) := by
    intro m hall hback
    obtain ⟨view, hview⟩ := viewed_frozen hall
    refine ⟨view, ((hw.sound record hrecord).viewed m view hview).2, fun x hx hb => ?_⟩
    obtain ⟨y, hy, rfl⟩ := hback x hx hb
    rw [viewed_batch_id] at hb
    rwa [hw.unique ((archiveFinished_retained r m).subset hy) hrecord hb]
  cases read with
  | start b p t a created => exact hobserves.elim
  | list m =>
    refine hsettled m hobserves fun x hx _ => ?_
    rcases List.mem_append.1 hx with hx | hx
    · obtain ⟨y, hy, rfl⟩ := List.mem_map.1 hx
      exact ⟨y, List.mem_append_left _ hy, rfl⟩
    · obtain ⟨y, hy, rfl⟩ := List.mem_map.1 hx
      exact ⟨y, List.mem_append_right _ hy, rfl⟩
  | get b m =>
    obtain rfl : b = record.batch_id := hviews
    refine hsettled m hobserves fun x hx hb => ?_
    have hids : ((r.archiveFinished m).retained.map Record.batch_id).Nodup := by
      obtain ⟨l, hperm, hsub⟩ := archiveFinished_retained r m
      exact (hperm.map _).nodup_iff.1 ((hsub.map _).nodup hw.ids)
    rw [Registry.retained, List.map_append] at hids
    simp only [Call.after, Registry.get] at hx
    split at hx
    · rename_i found hfound
      rcases List.mem_append.1 hx with hx | hx
      · obtain ⟨y, hy, rfl⟩ := viewed_of_mem_viewFirst hids.of_append_left hx hb
        exact ⟨y, List.mem_append_left _ hy, rfl⟩
      · -- the id is that of an active record
        have hact := List.mem_map.2 ⟨found, (find_eq_some hfound).1, (find_eq_some hfound).2⟩
        exact absurd (List.mem_map.2 ⟨x, hx, hb⟩) (List.disjoint_of_nodup_append hids hact)
    · rename_i hnone
      have hactive : ∀ y ∈ (r.archiveFinished m).active, y.batch_id ≠ record.batch_id := fun y hy => by
        simpa using List.find?_eq_none.1 hnone y hy
      split at hx
      · rcases List.mem_append.1 hx with hx | hx
        · exact absurd hb (hactive x hx)
        · obtain ⟨y, hy, rfl⟩ := viewed_of_mem_viewFirst hids.of_append_right hx hb
          exact ⟨y, List.mem_append_right _ hy, rfl⟩
      · rename_i hnone'
        rcases List.mem_append.1 hx with hx | hx
        · exact absurd hb (hactive x hx)
        · have hhistory := List.find?_eq_none.1 hnone' x hx
          simp [hb] at hhistory

/-! ### Permanence -/

/-- The empty registry. -/
def new (limit : ℕ) : Registry := { history_limit := limit }

/-- No two batches are made under one id. -/
def FreshIds (calls : List Call) : Prop := (calls.filterMap Call.starts).Nodup

instance (calls : List Call) : Decidable (FreshIds calls) := inferInstanceAs (Decidable (List.Nodup _))

/-- The law: once a read is given states in which all jobs of a batch are terminal, every later read of the batch
answers one terminal view. -/
def Permanent (limit : ℕ) (calls : List Call) : Prop :=
  ∀ before read later, calls = before ++ read :: later →
    ∀ record ∈ (after (new limit) before).retained, read.Observes record →
      ∃ view : TransferBatch, view.state.terminal = true ∧
        ∀ between call rest, later = between ++ call :: rest →
          ∀ v ∈ call.views (after (new limit) (before ++ read :: between)), v.batch_id = record.batch_id → v = view

/-- Every read that finds all jobs of a batch terminal builds the batch's view, unless it is frozen. -/
def ViewsFinished (r : Registry) : List Call → Prop
  | [] => True
  | call :: calls =>
    (∀ record ∈ r.retained, call.Observes record → record.frozen_view = none → call.Views record.batch_id) ∧
      ViewsFinished (call.after r) calls

instance decideViewsFinished : (r : Registry) → (calls : List Call) → Decidable (ViewsFinished r calls)
  | _, [] => inferInstanceAs (Decidable True)
  | r, call :: calls =>
    have : Decidable (ViewsFinished (call.after r) calls) := decideViewsFinished _ calls
    inferInstanceAs (Decidable (_ ∧ _))

lemma ViewsFinished.at {r : Registry} {before later : List Call} {call : Call} (h : ViewsFinished r (before ++ call :: later)) :
    ∀ record ∈ (after r before).retained, call.Observes record → record.frozen_view = none → call.Views record.batch_id := by
  induction before generalizing r with
  | nil => exact h.1
  | cons c before ih => exact ih h.2

lemma after_append (r : Registry) (a b : List Call) : after r (a ++ b) = after (after r a) b := List.foldl_append

/-- The ids of a registry were started. -/
lemma started_of_mem (limit : ℕ) (calls : List Call) :
    ∀ record ∈ (after (new limit) calls).retained, record.batch_id ∈ calls.filterMap Call.starts := by
  induction calls using List.reverseRecOn with
  | nil => exact fun _ h => absurd h List.not_mem_nil
  | append_singleton calls call ih =>
    intro x hx
    rw [after_append] at hx
    rw [List.filterMap_append]
    have hold : ∀ y ∈ (after (new limit) calls).retained, x.batch_id = y.batch_id →
        x.batch_id ∈ calls.filterMap Call.starts ++ [call].filterMap Call.starts := fun y hy he =>
      List.mem_append_left _ (he ▸ ih y hy)
    cases came_of_mem hx with
    | kept h => exact hold x h rfl
    | viewed y hy m he => exact hold y hy (by rw [he, viewed_batch_id])
    | started hs _ => exact List.mem_append_right _ (List.mem_filterMap.2 ⟨call, List.mem_singleton_self _, hs⟩)

/-- A new batch has a new id. -/
lemma FreshIds.not_mem {limit : ℕ} {before later : List Call} {call : Call} (h : FreshIds (before ++ call :: later)) :
    ∀ b, call.starts = some b → b ∉ (after (new limit) before).retained.map Record.batch_id := by
  intro b hb hmem
  obtain ⟨record, hrecord, rfl⟩ := List.mem_map.1 hmem
  rw [FreshIds, List.filterMap_append, List.filterMap_cons_some hb] at h
  exact List.disjoint_of_nodup_append h (started_of_mem limit before record hrecord) List.mem_cons_self

lemma wf_after {limit : ℕ} {calls rest : List Call} (h : FreshIds (calls ++ rest)) : Wf (after (new limit) calls) := by
  induction calls using List.reverseRecOn generalizing rest with
  | nil => exact wf_empty limit
  | append_singleton calls call ih =>
    rw [List.append_assoc, List.singleton_append] at h
    rw [after_append]
    exact (ih h).after h.not_mem

/-- A settled batch stays settled. -/
lemma Settled.run {b : Text} {view : TransferBatch} {r : Registry} {calls : List Call} (h : Settled b view r)
    (hstart : b ∉ calls.filterMap Call.starts) : Settled b view (Batch.after r calls) := by
  induction calls generalizing r with
  | nil => exact h
  | cons call calls ih =>
    have hfirst : call.starts ≠ some b := fun hs => hstart (by rw [List.filterMap_cons_some hs]; exact List.mem_cons_self)
    refine ih (h.after hfirst) fun hmem => hstart ?_
    cases hs : call.starts with
    | none => rwa [List.filterMap_cons_none hs]
    | some b' =>
      rw [List.filterMap_cons_some hs]
      exact List.mem_cons_of_mem _ hmem

/-- A read settles a batch whose jobs it finds terminal, if it builds its view. -/
lemma settled_of_observed {r : Registry} (hw : Wf r) {read : Call} {record : Record} (hrecord : record ∈ r.retained)
    (hobserves : read.Observes record) (hviews : record.frozen_view = none → read.Views record.batch_id) :
    ∃ view, view.state.terminal = true ∧ Settled record.batch_id view (read.after r) := by
  cases hfrozen : record.frozen_view with
  | none => exact settled_of_viewed hw hrecord hobserves (hviews hfrozen)
  | some view =>
    refine ⟨view, (hw.sound record hrecord view hfrozen).2, Settled.after (fun x hx hb => ?_) ?_⟩
    · rw [hw.unique hx hrecord hb]
      exact hfrozen
    · intro hs
      cases read with
      | start b p t a created => exact hobserves.elim
      | get b m => cases hs
      | list m => cases hs

/-- In every history whose reads build the views of the batches they find finished, batch results are permanent. -/
theorem permanent_of_viewed (limit : ℕ) (calls : List Call) (hids : FreshIds calls)
    (hviews : ViewsFinished (new limit) calls) : Permanent limit calls := by
  rintro before read later rfl record hrecord hobserves
  obtain ⟨view, hterminal, hsettled⟩ := settled_of_observed (wf_after hids) hrecord hobserves (hviews.at record hrecord hobserves)
  refine ⟨view, hterminal, ?_⟩
  rintro between call rest rfl v hv hb
  -- the id is not taken again
  have hnot : record.batch_id ∉ (read :: (between ++ call :: rest)).filterMap Call.starts := by
    rw [FreshIds, List.filterMap_append] at hids
    exact List.disjoint_of_nodup_append hids (started_of_mem limit before record hrecord)
  rw [← List.cons_append, List.filterMap_append, List.mem_append, not_or] at hnot
  have hbetween : record.batch_id ∉ between.filterMap Call.starts := fun hmem => hnot.1 (by
    rw [← List.singleton_append, List.filterMap_append]
    exact List.mem_append_right _ hmem)
  have hrun : Settled record.batch_id view (after (new limit) (before ++ read :: between)) := by
    rw [after_append]
    exact hsettled.run hbetween
  refine hrun.view ?_ (fun hs => hnot.2 ?_) hv hb
  · have hsplit : before ++ read :: (between ++ call :: rest) = (before ++ read :: between) ++ call :: rest := by simp
    exact wf_after (hsplit ▸ hids)
  · rw [List.filterMap_cons_some hs]
    exact List.mem_cons_self

/-! ### Two batches -/

/-- The states in which the job of the first batch is done. -/
def firstDone : JobStates := fun job_id => if job_id = ['j'] then some .completed else none

/-- Two batches are started. -/
def twoBatches : List Call :=
  [.start ['a'] ['p'] ['t'] [] [some ['j']], .start ['b'] ['p'] ['t'] [] [some ['k']]]

/-- The first batch is read when its job is done, and again when the job is forgotten. -/
theorem permanent_read_twice : Permanent 50 (twoBatches ++ [.get ['a'] firstDone, .get ['a'] fun _ => none]) :=
  permanent_of_viewed 50 _ (by decide) (by decide)

/-- A read of another batch archives the first without freezing its view. -/
theorem not_permanent_read_other :
    ¬∀ (limit : ℕ) (calls : List Call), FreshIds calls → Permanent limit calls := by
  intro h
  obtain ⟨view, hterminal, hlater⟩ := h 50 (twoBatches ++ [.get ['b'] firstDone, .get ['a'] fun _ => none]) (by decide)
    twoBatches (.get ['b'] firstDone) [.get ['a'] fun _ => none] rfl
    { batch_id := ['a'], project_id := ['p'], target_server_id := ['t'], job_ids := [['j']], created_at := [] }
    (by decide) (by decide)
  have hview := hlater [] (.get ['a'] fun _ => none) [] rfl _ (List.mem_singleton_self _) rfl
  rw [← hview] at hterminal
  revert hterminal
  decide

end SshGpuConsole.Batch
