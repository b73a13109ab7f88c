import SshGpuConsole.Lib.Runs
import SshGpuConsole.Workspace.Distribution

/-!
# The reviewed sync plan

The part of the workspace store that the sync dialog reads (`workspaceStore.ts`): the plan under review, whether one
is being built, and the state of the sync itself. Every selection of a target sends a new request; nothing cancels
the earlier ones, and an answer does not say which request it belongs to. The plan in the store is the one of the
current request exactly in the runs where no answer comes late and no reset comes early (`reviewed_iff`).
-/

namespace SshGpuConsole.Frontend
open Shell (Text)
open Workspace (TransferStrategy)

/-- What a rejected promise carries: an `Error`, or anything else. -/
inductive Cause
  | error (message : Text)
  | other

def errorMessage : Cause → Text
  | .error message => message
  | .other => "request failed".toList

structure SyncPlanRequest where
  target_server_id : Text
  artifact_ids : Option (List Text) := none
  refresh_code : Bool := false
  strategy : Option TransferStrategy := none

/-- The fields of `WorkspaceState` about the plan under review. -/
structure SyncPlanState (π : Type) where
  syncPlan : Option π := none
  syncPlanLoading : Bool := false
  syncPlanError : Option Text := none
  syncRunning : Bool := false
  syncError : Option Text := none

namespace SyncPlanState
variable {π : Type} (s : SyncPlanState π)

/-- `buildSyncPlan`, up to its request. -/
def buildSyncPlan : SyncPlanState π :=
  { s with syncPlan := none, syncPlanLoading := true, syncPlanError := none }

/-- `buildSyncPlan`, when its request is answered. -/
def planBuilt (plan : π) : SyncPlanState π := { s with syncPlan := some plan, syncPlanLoading := false }

/-- `buildSyncPlan`, when its request fails. -/
def planFailed (cause : Cause) : SyncPlanState π :=
  { s with syncPlanError := some (errorMessage cause), syncPlanLoading := false }

/-- `syncProject`, up to its request. -/
def syncProject : SyncPlanState π := { s with syncRunning := true, syncError := none }

/-- `syncProject`, when its request is answered. -/
def synced : SyncPlanState π := { s with syncRunning := false }

/-- `syncProject`, when its request fails. -/
def syncFailed (cause : Cause) : SyncPlanState π :=
  { s with syncRunning := false, syncError := some (errorMessage cause) }

def resetSyncPlan : SyncPlanState π := { s with syncPlan := none, syncPlanError := none, syncError := none }

end SyncPlanState

/-! ### The store among its requests -/

/-- A call of `buildSyncPlan`. -/
structure PlanCall where
  projectId : Text
  body : SyncPlanRequest

/-- The response object to a call of `buildSyncPlan`, the calls numbered as they were made. -/
structure PlanResponse (π : Type) where
  call : ℕ
  plan : π

inductive SyncPlanEvent (π : Type)
  | buildSyncPlan (projectId : Text) (body : SyncPlanRequest)
  | planBuilt (call : ℕ) (plan : π)
  | planFailed (call : ℕ) (cause : Cause)
  | resetSyncPlan
  | syncProject (projectId : Text) (body : SyncPlanRequest)
  | synced (call : ℕ)
  | syncFailed (call : ℕ) (cause : Cause)

structure SyncPlanWorld (π : Type) where
  store : SyncPlanState (PlanResponse π) := {}
  /-- The calls of `buildSyncPlan` so far. -/
  calls : List PlanCall := []
  /-- Those that are not answered yet. -/
  pending : List ℕ := []
  /-- The most recent one, unless `resetSyncPlan` was called after it. -/
  current : Option ℕ := none
  /-- The calls of `syncProject` so far. -/
  syncs : List PlanCall := []
  syncing : List ℕ := []

variable {π : Type}

/-- An answer to a call that is not waiting for one is no event. -/
def SyncPlanWorld.step (w : SyncPlanWorld π) : SyncPlanEvent π → SyncPlanWorld π
  | .buildSyncPlan projectId body =>
    { w with
      store := w.store.buildSyncPlan
      calls := w.calls ++ [⟨projectId, body⟩]
      pending := w.calls.length :: w.pending
      current := some w.calls.length }
  | .planBuilt call plan =>
    if call ∈ w.pending then
      { w with store := w.store.planBuilt ⟨call, plan⟩, pending := w.pending.filter (· ≠ call) }
    else w
  | .planFailed call cause =>
    if call ∈ w.pending then
      { w with store := w.store.planFailed cause, pending := w.pending.filter (· ≠ call) }
    else w
  | .resetSyncPlan => { w with store := w.store.resetSyncPlan, current := none }
  | .syncProject projectId body =>
    { w with
      store := w.store.syncProject
      syncs := w.syncs ++ [⟨projectId, body⟩]
      syncing := w.syncs.length :: w.syncing }
  | .synced call =>
    if call ∈ w.syncing then { w with store := w.store.synced, syncing := w.syncing.filter (· ≠ call) } else w
  | .syncFailed call cause =>
    if call ∈ w.syncing then
      { w with store := w.store.syncFailed cause, syncing := w.syncing.filter (· ≠ call) }
    else w

/-- The call whose target is the selected one. -/
def SyncPlanWorld.selected (w : SyncPlanWorld π) : Option PlanCall := w.current.bind (w.calls[·]?)

/-- The plan under review answers the current call, so it is for the selected target, and the store loads just
while that call is unanswered. -/
structure Reviewed (w : SyncPlanWorld π) : Prop where
  plan : ∀ response, w.store.syncPlan = some response → w.current = some response.call
  target : ∀ response, w.store.syncPlan = some response →
    ∃ call, w.calls[response.call]? = some call ∧ w.selected = some call
  loading : w.store.syncPlanLoading = true ↔ ∃ call, w.current = some call ∧ call ∈ w.pending

/-- The event comes in time. -/
def InTime (w : SyncPlanWorld π) : SyncPlanEvent π → Prop
  -- a plan arrives for the current call only
  | .planBuilt call _ => call ∈ w.pending → w.current = some call
  -- and so does a failure, unless nothing is being built
  | .planFailed call _ => call ∈ w.pending → w.current = some call ∨ w.store.syncPlanLoading = false
  -- the dialog is not opened again while a plan is being built
  | .resetSyncPlan => w.store.syncPlanLoading = false
  | _ => True

/-! ### What holds in any run -/

structure SyncPlanWorld.Wf (w : SyncPlanWorld π) : Prop where
  pending : ∀ call ∈ w.pending, call < w.calls.length
  current : ∀ call, w.current = some call → call < w.calls.length
  answered : ∀ response, w.store.syncPlan = some response → response.call ∉ w.pending

lemma SyncPlanWorld.Wf.initial : ({} : SyncPlanWorld π).Wf := by
  refine ⟨fun call h => ?_, fun call h => ?_, fun response h => ?_⟩
  · cases h
  · cases h
  · cases h

lemma SyncPlanWorld.Wf.step {w : SyncPlanWorld π} (h : w.Wf) (e : SyncPlanEvent π) : (w.step e).Wf := by
  cases e with
  | buildSyncPlan projectId body =>
    refine ⟨fun call hcall => ?_, fun call hcall => ?_, fun response hr => ?_⟩
    · rw [SyncPlanWorld.step, List.length_append, List.length_singleton]
      rcases List.mem_cons.1 hcall with rfl | hcall
      · exact Nat.lt_succ_self _
      · exact Nat.lt_succ_of_lt (h.pending call hcall)
    · rw [SyncPlanWorld.step, List.length_append, List.length_singleton]
      cases hcall
      exact Nat.lt_succ_self _
    · cases hr
  | planBuilt call plan =>
    unfold SyncPlanWorld.step
    dsimp only
    split
    · refine ⟨fun c hc => h.pending c (List.mem_filter.1 hc).1, h.current, fun response hr => ?_⟩
      cases hr
      intro hc
      simpa using (List.mem_filter.1 hc).2
    · exact h
  | planFailed call cause =>
    unfold SyncPlanWorld.step
    dsimp only
    split
    · refine ⟨fun c hc => h.pending c (List.mem_filter.1 hc).1, h.current, fun response hr hc => ?_⟩
      exact h.answered response hr (List.mem_filter.1 hc).1
    · exact h
  | resetSyncPlan =>
    refine ⟨h.pending, fun call hcall => ?_, fun response hr => ?_⟩
    · cases hcall
    · cases hr
  | syncProject projectId body => exact ⟨h.pending, h.current, h.answered⟩
  | synced call =>
    unfold SyncPlanWorld.step
    dsimp only
    split
    · exact ⟨h.pending, h.current, h.answered⟩
    · exact h
  | syncFailed call cause =>
    unfold SyncPlanWorld.step
    dsimp only
    split
    · exact ⟨h.pending, h.current, h.answered⟩
    · exact h

/-! ### The plan under review is the current one exactly when the events come in time -/

lemma SyncPlanWorld.Wf.selected {w : SyncPlanWorld π} (h : w.Wf) {call : ℕ} (hcur : w.current = some call) :
    ∃ c, w.calls[call]? = some c ∧ w.selected = some c := by
  have hget := List.getElem?_eq_getElem (h.current call hcur)
  refine ⟨_, hget, ?_⟩
  rw [SyncPlanWorld.selected, hcur, Option.bind_some, hget]

/-- What is to show, since the target follows. -/
lemma SyncPlanWorld.Wf.reviewed {w : SyncPlanWorld π} (h : w.Wf)
    (hplan : ∀ response, w.store.syncPlan = some response → w.current = some response.call)
    (hloading : w.store.syncPlanLoading = true ↔ ∃ call, w.current = some call ∧ call ∈ w.pending) : Reviewed w :=
  ⟨hplan, fun response hr => h.selected (hplan response hr), hloading⟩

lemma Reviewed.initial : Reviewed ({} : SyncPlanWorld π) := by
  apply SyncPlanWorld.Wf.initial.reviewed
  · intro response hr
    cases hr
  · constructor
    · intro h
      cases h
    · rintro ⟨call, hcur, -⟩
      cases hcur

/-- The current call is answered by removing its number. -/
lemma pending_filter {pending : List ℕ} {call c : ℕ} : c ∈ pending.filter (· ≠ call) ↔ c ∈ pending ∧ c ≠ call := by
  rw [List.mem_filter, decide_eq_true_iff]

lemma reviewed_planBuilt {w : SyncPlanWorld π} (hwf : w.Wf) {call : ℕ} (plan : π) (hc : call ∈ w.pending) :
    Reviewed (w.step (.planBuilt call plan)) ↔ w.current = some call := by
  have hnext := hwf.step (.planBuilt call plan)
  have hstep : w.step (.planBuilt call plan) =
      { w with store := w.store.planBuilt ⟨call, plan⟩, pending := w.pending.filter (· ≠ call) } := if_pos hc
  rw [hstep] at hnext ⊢
  constructor
  · intro h
    exact h.plan ⟨call, plan⟩ rfl
  · intro hcur
    apply hnext.reviewed
    · intro response hr
      cases hr
      exact hcur
    · constructor
      · intro h
        cases h
      · rintro ⟨c, hc', hmem⟩
        rw [show c = call from Option.some.inj (hc'.symm.trans hcur)] at hmem
        exact absurd rfl (pending_filter.1 hmem).2

lemma reviewed_planFailed {w : SyncPlanWorld π} (hwf : w.Wf) (h : Reviewed w) {call : ℕ} (cause : Cause)
    (hc : call ∈ w.pending) : Reviewed (w.step (.planFailed call cause)) ↔
      w.current = some call ∨ w.store.syncPlanLoading = false := by
  have hnext := hwf.step (.planFailed call cause)
  have hstep : w.step (.planFailed call cause) =
      { w with store := w.store.planFailed cause, pending := w.pending.filter (· ≠ call) } := if_pos hc
  rw [hstep] at hnext ⊢
  constructor
  · intro h'
    by_cases hload : w.store.syncPlanLoading = true
    · -- the current call is unanswered before, and answered after
      obtain ⟨c, hcur, hmem⟩ := h.loading.1 hload
      by_cases heq : c = call
      · exact .inl (heq ▸ hcur)
      · exact absurd (h'.loading.2 ⟨c, hcur, pending_filter.2 ⟨hmem, heq⟩⟩) Bool.false_ne_true
    · exact .inr (Bool.not_eq_true _ ▸ hload)
  · intro hin
    apply hnext.reviewed
    · exact h.plan
    · constructor
      · intro hload
        cases hload
      · rintro ⟨c, hcur, hmem⟩
        obtain ⟨hmem, hne⟩ := pending_filter.1 hmem
        rcases hin with hcall | hload
        · exact absurd (Option.some.inj (hcur.symm.trans hcall)) hne
        · exact absurd (h.loading.2 ⟨c, hcur, hmem⟩) (hload ▸ Bool.false_ne_true)

lemma reviewed_resetSyncPlan {w : SyncPlanWorld π} (hwf : w.Wf) :
    Reviewed (w.step .resetSyncPlan) ↔ w.store.syncPlanLoading = false := by
  constructor
  · intro h
    by_contra hload
    obtain ⟨call, hcur, -⟩ := h.loading.1 (Bool.eq_true_of_not_eq_false hload)
    cases hcur
  · intro hload
    apply (hwf.step .resetSyncPlan).reviewed
    · intro response hr
      cases hr
    · constructor
      · intro h
        exact absurd h (hload ▸ Bool.false_ne_true)
      · rintro ⟨call, hcur, -⟩
        cases hcur

lemma reviewed_buildSyncPlan {w : SyncPlanWorld π} (hwf : w.Wf) (projectId : Text) (body : SyncPlanRequest) :
    Reviewed (w.step (.buildSyncPlan projectId body)) := by
  apply (hwf.step _).reviewed
  · intro response hr
    cases hr
  · constructor
    · intro _
      exact ⟨_, rfl, List.mem_cons_self⟩
    · intro _
      rfl

/-- A step that leaves the plan and its calls alone. -/
lemma Reviewed.of_eq {w w' : SyncPlanWorld π} (h : Reviewed w) (hplan : w'.store.syncPlan = w.store.syncPlan)
    (hloading : w'.store.syncPlanLoading = w.store.syncPlanLoading) (hcalls : w'.calls = w.calls)
    (hpending : w'.pending = w.pending) (hcurrent : w'.current = w.current) : Reviewed w' := by
  refine ⟨fun response hr => ?_, fun response hr => ?_, ?_⟩
  · rw [hcurrent]
    exact h.plan response (hplan ▸ hr)
  · rw [SyncPlanWorld.selected, hcurrent, hcalls]
    exact h.target response (hplan ▸ hr)
  · rw [hloading, hcurrent, hpending]
    exact h.loading

/-- One event keeps the plan the current one exactly when it comes in time. -/
lemma reviewed_step {w : SyncPlanWorld π} (hwf : w.Wf) (h : Reviewed w) (e : SyncPlanEvent π) :
    Reviewed (w.step e) ↔ InTime w e := by
  cases e with
  | buildSyncPlan projectId body => exact iff_of_true (reviewed_buildSyncPlan hwf projectId body) trivial
  | planBuilt call plan =>
    by_cases hc : call ∈ w.pending
    · rw [reviewed_planBuilt hwf plan hc]
      exact ⟨fun h _ => h, fun h => h hc⟩
    · rw [show w.step (.planBuilt call plan) = w from if_neg hc]
      exact iff_of_true h fun hc' => absurd hc' hc
  | planFailed call cause =>
    by_cases hc : call ∈ w.pending
    · rw [reviewed_planFailed hwf h cause hc]
      exact ⟨fun h _ => h, fun h => h hc⟩
    · rw [show w.step (.planFailed call cause) = w from if_neg hc]
      exact iff_of_true h fun hc' => absurd hc' hc
  | resetSyncPlan => exact reviewed_resetSyncPlan hwf
  | syncProject projectId body => exact iff_of_true (h.of_eq rfl rfl rfl rfl rfl) trivial
  | synced call =>
    refine iff_of_true ?_ trivial
    unfold SyncPlanWorld.step
    dsimp only
    split
    · exact h.of_eq rfl rfl rfl rfl rfl
    · exact h
  | syncFailed call cause =>
    refine iff_of_true ?_ trivial
    unfold SyncPlanWorld.step
    dsimp only
    split
    · exact h.of_eq rfl rfl rfl rfl rfl
    · exact h

/-- In a run from the fresh store the plan under review is the current one at every moment exactly when every event
of the run comes in time. -/
theorem reviewed_iff (es : List (SyncPlanEvent π)) :
    Machine.Always SyncPlanWorld.step Reviewed {} es ↔ Machine.Along SyncPlanWorld.step InTime {} es :=
  Machine.always_iff_along SyncPlanWorld.Wf.initial Reviewed.initial (fun _ e hwf => hwf.step e)
    fun _ e hwf h => reviewed_step hwf h e

/-- Two targets are selected one after the other, and the plan for the first arrives last: it is shown, and can be
confirmed, under the second. -/
theorem late_plan_shown : ¬Machine.Always SyncPlanWorld.step Reviewed ({} : SyncPlanWorld Unit)
    [.buildSyncPlan ['p'] { target_server_id := ['a'] }, .buildSyncPlan ['p'] { target_server_id := ['b'] },
      .planBuilt 1 (), .planBuilt 0 ()] := by
  intro h
  have hcur := h.last.plan ⟨0, ()⟩ rfl
  exact absurd hcur (by decide)

end SshGpuConsole.Frontend
