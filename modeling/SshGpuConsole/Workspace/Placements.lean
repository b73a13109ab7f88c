import SshGpuConsole.Lib.Runs
import SshGpuConsole.Workspace.Integrity

/-!
# Where artifacts are placed

`create_placement` trims the path and looks for an identical placement, and the transfer service records a target
through it; `update_placement` writes the path of the patch as it is. The placements of a run are at distinct
trimmed paths exactly as long as no update misplaces one.
-/

namespace SshGpuConsole.Workspace
open Shell PyText
open Effect (Prog exec)

/-- What makes a placement the one it is. -/
def Placement.spot (p : Placement) : Text × Text × Text := (p.val.artifact_id, p.val.server_id, p.val.remote_path)

structure Repo.WellPlaced (s : Repo) : Prop where
  unique : ∀ p ∈ s.placements.rows, ∀ q ∈ s.placements.rows, p.spot = q.spot → p = q
  trimmed : ∀ p ∈ s.placements.rows, strip p.val.remote_path = p.val.remote_path
  accepted : ∀ p ∈ s.placements.rows, ∃ path, normalizeRemotePath p.val.remote_path = .ok path

/-! ### The automatic placement -/

/-- What `_record_target_placement` reads of its job. -/
structure VerifiedJob where
  artifact_id : Text
  target_server_id : Text
  target_path : Text

/-- The field bounds of `PlacementCreate`. -/
def PlacementCreate.bounds (request : PlacementCreate) : Bool :=
  within 1 64 request.artifact_id && within 1 64 request.server_id && within 1 512 request.remote_path

/-- The request for the target of a job. -/
def VerifiedJob.request (job : VerifiedJob) : PlacementCreate :=
  { artifact_id := job.artifact_id, server_id := job.target_server_id, remote_path := job.target_path }

/-- The body of the `try` block of `_record_target_placement`. -/
def createTargetPlacement (draw : Draw) (job : VerifiedJob) : Service Unit := do
  let existing ← read .placements
  if (existing.map Placement.spot).contains (job.artifact_id, job.target_server_id, job.target_path) then return ()
  else if !job.request.bounds then .raise .validation
  else
    let _ ← createPlacement draw job.request
    return ()

/-- `_record_target_placement`: no exception gets out. -/
def recordTargetPlacement (draw : Draw) (job : VerifiedJob) : Service Unit :=
  (createTargetPlacement draw job).handle fun _ => return ()

/-- A step of the application that may write a placement. -/
inductive PlacingStep where
  | issued (i : Issued)
  | recorded (job : VerifiedJob) (draw : Draw) (saves : ℕ → Bool)

def PlacingStep.after (category : Category) (s : Repo) : PlacingStep → Repo
  | .issued i => i.after category s
  | .recorded job draw saves => (exec repository (recordTargetPlacement draw job) s saves).2.1

/-- The call is an update to a path with white space around it, or to one where the artifact has another placement. -/
def Call.Misplaces (s : Repo) : Call → Prop
  | .updatePlacement id request =>
    ∃ current path, s.placements.get id = some current ∧ request.remote_path = some path ∧ within 1 512 path = true ∧
      (strip path ≠ path ∨ ∃ other ∈ s.placements.rows, other.val.placement_id ≠ id ∧
        other.spot = (current.val.artifact_id, current.val.server_id, path))
  | _ => False

def PlacingStep.Misplaces (s : Repo) : PlacingStep → Prop
  | .issued i => i.call.Misplaces s
  | .recorded _ _ _ => False

/-! ### Steps that leave the placements -/

/-- The mutation writes no placement. -/
def Mutation.Unplaced : Mutation → Prop
  | .insertPlacement _ | .replacePlacement _ | .removePlacement _ => False
  | _ => True

def RepoOp.Unplaced : RepoOp → Prop
  | .read _ => True
  | .write m => m.Unplaced

section Steps
variable {category : Category} {draw : Draw} {s s' : Repo} {α β : Type}

lemma mutated_unplaced {m : Mutation} (h : m.Unplaced) : (s.mutated m).placements = s.placements := by
  rw [Repo.mutated]
  cases hm : s.mutate m with
  | error e => rfl
  | ok s' =>
    cases m with
    | insertProject r =>
      obtain ⟨-, rfl⟩ := insertProject_ok hm
      rfl
    | replaceProject r =>
      obtain ⟨-, rfl⟩ := replaceProject_ok hm
      rfl
    | removeProject id =>
      simp only [Repo.mutate, Repo.removeProject] at hm
      split_ifs at hm
      cases hm
      rfl
    | insertArtifact r =>
      simp only [Repo.mutate, Repo.insertArtifact] at hm
      split_ifs at hm
      cases hm
      rfl
    | removeArtifact id =>
      obtain ⟨-, -, -, rfl⟩ := removeArtifact_ok hm
      rfl
    | removeLaunchConfig id =>
      simp only [Repo.mutate, Repo.removeLaunchConfig] at hm
      split_ifs at hm
      cases hm
      rfl
    | replaceArtifact r | insertLaunchConfig r | replaceLaunchConfig r | setServerRoots id r =>
      cases hm
      rfl
    | insertPlacement r | replacePlacement r | removePlacement id => exact h.elim

lemma wellPlaced_of_eq (h : s.WellPlaced) (he : s'.placements = s.placements) : s'.WellPlaced where
  unique := by rw [he]; exact h.unique
  trimmed := by rw [he]; exact h.trimmed
  accepted := by rw [he]; exact h.accepted

lemma ensures_unplaced {p : Service α} (hp : p.Only RepoOp.Unplaced) (h : s.WellPlaced) :
    Ensures p (fun _ => Repo.WellPlaced) s := by
  refine Effect.wp_only (fun o ho t c ht => ?_) hp h
  cases o with
  | read q => exact ht
  | write m =>
    rw [repository_write]
    exact wellPlaced_of_eq ht (mutated_unplaced ho)

lemma unplaced_of_reads {p : Service α} (h : Reads p) : p.Only RepoOp.Unplaced :=
  h.mono fun o ho => by
    cases o with
    | read q => trivial
    | write m => exact ho.elim

lemma unplaced_write {m : Mutation} (h : m.Unplaced) : (write m).Only RepoOp.Unplaced := Prog.Only.perform h

lemma unplaced_validated [Model α] {fields : Option α} {f : Validated α → Service β}
    (h : ∀ v, (f v).Only RepoOp.Unplaced) : ((validated fields).bind f).Only RepoOp.Unplaced :=
  Prog.Only.bind (unplaced_of_reads (reads_validated fields)) h

lemma unplaced_reading {q : Query} {f : q.Ans → Service β} (h : ∀ a, (f a).Only RepoOp.Unplaced) :
    ((read q).bind f).Only RepoOp.Unplaced := Prog.Only.bind (Prog.Only.perform trivial) h

/-- The calls that write no placement. -/
def Call.Unplaced : Call → Prop
  | .createPlacement _ | .updatePlacement _ _ | .deletePlacement _ => False
  | _ => True

lemma unplaced_reply {p : Service α} {reply : α → Reply} (h : p.Only RepoOp.Unplaced) :
    (replying p reply).Only RepoOp.Unplaced := Prog.Only.bind h fun _ => trivial

lemma unplaced_program {call : Call} (h : call.Unplaced) : (call.program category draw).Only RepoOp.Unplaced := by
  have hlaunch : ∀ p : Project, (withLaunchConfigIds p).Only RepoOp.Unplaced := fun p =>
    unplaced_of_reads (reads_withLaunchConfigIds p)
  have hrefs : ∀ ids, (rejectUnknownArtifacts ids).Only RepoOp.Unplaced := fun ids =>
    unplaced_of_reads (reads_rejectUnknownArtifacts ids)
  cases call with
  | createProject request =>
    exact unplaced_reply (unplaced_validated fun r => Prog.Only.bind (unplaced_write (m := .insertProject r) trivial) hlaunch)
  | updateProject id request =>
    refine unplaced_reply (unplaced_reading fun current => Prog.Only.ite trivial (unplaced_validated fun r => ?_))
    exact Prog.Only.bind (unplaced_write (m := .replaceProject r) trivial) hlaunch
  | deleteProject id => exact unplaced_reply (unplaced_write (m := .removeProject id) trivial)
  | projects => exact unplaced_reply (unplaced_reading fun ps => unplaced_of_reads (reads_withAll ps))
  | project id => exact unplaced_reply (unplaced_reading hlaunch)
  | createArtifact request =>
    exact unplaced_reply (unplaced_validated fun r => unplaced_write (m := .insertArtifact r) trivial)
  | updateArtifact id request =>
    refine unplaced_reply (unplaced_reading fun current => Prog.Only.ite trivial (unplaced_validated fun r => ?_))
    exact unplaced_write (m := .replaceArtifact r) trivial
  | deleteArtifact id => exact unplaced_reply (unplaced_write (m := .removeArtifact id) trivial)
  | artifacts kind => exact unplaced_reply (unplaced_of_reads (reads_artifacts kind))
  | artifact id | placementsOf id | placement id | launchConfig id =>
    exact unplaced_reply (unplaced_of_reads (reads_read _))
  | placements | launchConfigs => exact unplaced_reply (unplaced_of_reads (reads_read _))
  | createPlacement request | updatePlacement id request | deletePlacement id => exact h.elim
  | createLaunchConfig request =>
    refine unplaced_reply (unplaced_reading fun current => Prog.Only.bind (hrefs _) fun _ => unplaced_validated fun r => ?_)
    exact unplaced_write (m := .insertLaunchConfig r) trivial
  | updateLaunchConfig id request =>
    refine unplaced_reply (unplaced_reading fun current => unplaced_validated fun r => Prog.Only.bind (hrefs _) fun _ => ?_)
    exact unplaced_write (m := .replaceLaunchConfig r) trivial
  | deleteLaunchConfig id => exact unplaced_reply (unplaced_write (m := .removeLaunchConfig id) trivial)
  | serverRoots id => exact unplaced_reply (unplaced_of_reads (reads_serverRoots draw id))
  | setServerRoots id update =>
    exact unplaced_reply (Prog.Only.ite trivial (unplaced_validated fun r => unplaced_write (m := .setServerRoots id r) trivial))
  | suggestTargetPath server_id artifact_id =>
    exact unplaced_reply (unplaced_of_reads (reads_suggestTargetPath category draw server_id artifact_id))

/-! ### Steps that write a placement -/

lemma bounds_placement (r : Placement) : r.val.bounds = true := by
  have hvalid : passing PlacementRecord.bounds r.val = some r.val := r.valid
  rw [passing] at hvalid
  split at hvalid
  · assumption
  · cases hvalid

/-- A trimmed path of a valid placement is accepted. -/
lemma accepted_of_trimmed {r : Placement} (h : strip r.val.remote_path = r.val.remote_path) :
    ∃ path, normalizeRemotePath r.val.remote_path = .ok path := by
  have hbounds := bounds_placement r
  simp only [PlacementRecord.bounds, within, Bool.and_eq_true, decide_eq_true_iff] at hbounds
  have hne : strip r.val.remote_path ≠ [] := by
    rw [h]
    exact List.ne_nil_of_length_pos hbounds.2.1
  rw [normalizeRemotePath, if_neg hne]
  dsimp only
  split
  · exact ⟨_, rfl⟩
  · exact ⟨_, rfl⟩

/-- A placement is put where no other one is. -/
lemma wellPlaced_set (h : s.WellPlaced) {r : Placement} (ht : strip r.val.remote_path = r.val.remote_path)
    (hfree : ∀ p ∈ s.placements.rows, p.val.placement_id ≠ r.val.placement_id → p.spot ≠ r.spot) :
    Repo.WellPlaced { s with placements := s.placements.set r } := by
  have hr : r ∈ (s.placements.set r).rows := (Table.get_eq_some.1 (Table.get_set_self s.placements r)).1
  have hsame : ∀ p ∈ (s.placements.set r).rows, p.spot = r.spot → p = r := by
    intro p hp hspot
    by_contra hne
    have hid : p.val.placement_id ≠ r.val.placement_id := fun he =>
      hne (List.inj_on_of_nodup_map (s.placements.set r).nodup hp hr he)
    exact hfree p ((Table.mem_set hp).resolve_left hne) hid hspot
  refine ⟨?_, ?_, ?_⟩
  · intro p hp q hq hpq
    rcases Table.mem_set hp with rfl | hp'
    · exact (hsame q hq hpq.symm).symm
    · rcases Table.mem_set hq with rfl | hq'
      · exact hsame p hp hpq
      · exact h.unique p hp' q hq' hpq
  · intro p hp
    rcases Table.mem_set hp with rfl | hp
    · exact ht
    · exact h.trimmed p hp
  · intro p hp
    rcases Table.mem_set hp with rfl | hp
    · exact accepted_of_trimmed ht
    · exact h.accepted p hp

lemma wellPlaced_insert (h : s.WellPlaced) {r : Placement} (ht : strip r.val.remote_path = r.val.remote_path)
    (hfree : ∀ p ∈ s.placements.rows, p.spot ≠ r.spot) : (s.mutated (.insertPlacement r)).WellPlaced := by
  simp only [Repo.mutated, Repo.mutate, Repo.insertPlacement]
  split
  · rename_i e hm
    exact h
  · rename_i s' hm
    split_ifs at hm
    cases hm
    exact wellPlaced_set h ht fun p hp _ => hfree p hp

lemma wellPlaced_createPlacement (h : s.WellPlaced) (request : PlacementCreate) :
    Ensures (createPlacement draw request) (fun _ => Repo.WellPlaced) s := by
  refine Effect.wp_ite (fun _ => h) fun _ => ensures_reading _ (fun _ _ => ?_) fun _ _ => h
  refine ensures_reading _ (fun existing he => Effect.wp_ite (fun _ => h) fun hnew => ?_) fun _ _ => h
  obtain rfl : s.placements.rows = existing := Except.ok.inj he
  refine ensures_validated (fun r hr => ensures_write _ fun _ => ?_) h
  have hval := passing_eq (Validated.build_val (show Validated.build _ = some r from hr))
  refine wellPlaced_insert h ?_ fun p hp hspot => hnew ?_
  · rw [hval]
    exact strip_strip request.remote_path
  · -- a placement at the spot of the record is what the request duplicates
    refine List.any_eq_true.2 ⟨p, hp, ?_⟩
    rw [Placement.spot, Placement.spot, hval, Prod.mk.injEq, Prod.mk.injEq] at hspot
    rw [Placement.isDuplicate, decide_eq_true hspot.1, decide_eq_true hspot.2.1, decide_eq_true hspot.2.2]
    rfl

lemma wellPlaced_updatePlacement (h : s.WellPlaced) {id : Text} {request : PlacementPatch}
    (hm : ¬(Call.updatePlacement id request).Misplaces s) :
    Ensures (updatePlacement draw id request) (fun _ => Repo.WellPlaced) s := by
  refine ensures_reading _ (fun current hc => ?_) fun _ _ => h
  have hget := found_ok hc
  refine ensures_validated (fun r hr => ensures_write _ fun _ => ?_) h
  obtain ⟨hid, hartifact, hserver, hpath⟩ := merged_placement hr
  have hwithin : within 1 512 r.val.remote_path = true := (Bool.and_eq_true_iff.1 (bounds_placement r)).2
  have hplaced := not_or.1 fun hbad => hm ⟨current, r.val.remote_path, hget, hpath, hwithin, hbad⟩
  refine wellPlaced_set h (not_not.1 hplaced.1) fun p hp hne hspot => hplaced.2 ⟨p, hp, ?_, ?_⟩
  · rw [hid, Table.key_of_get hget] at hne
    exact hne
  · rw [hspot, Placement.spot, hartifact, hserver]

lemma wellPlaced_deletePlacement (h : s.WellPlaced) (id : Text) :
    Ensures (deletePlacement id) (fun _ => Repo.WellPlaced) s := by
  refine ensures_write _ fun _ => ?_
  simp only [Repo.mutated, Repo.mutate, Repo.removePlacement]
  split
  · exact h
  · rename_i s' hm
    split_ifs at hm
    cases hm
    exact ⟨fun p hp q hq => h.unique p (Table.mem_erase.1 hp).1 q (Table.mem_erase.1 hq).1,
      fun p hp => h.trimmed p (Table.mem_erase.1 hp).1, fun p hp => h.accepted p (Table.mem_erase.1 hp).1⟩

lemma wellPlaced_recordTargetPlacement (h : s.WellPlaced) (job : VerifiedJob) :
    Ensures (recordTargetPlacement draw job) (fun _ => Repo.WellPlaced) s := by
  have hbody : Ensures (createTargetPlacement draw job) (fun _ => Repo.WellPlaced) s := by
    refine ensures_reading _ (fun existing _ => Effect.wp_ite (fun _ => h) fun _ => ?_) fun _ _ => h
    refine Effect.wp_ite (fun _ => h) fun _ => ?_
    exact Effect.wp_bind_of (wellPlaced_createPlacement h job.request) (fun _ _ ht => ht) fun _ _ ht => ht
  exact Effect.wp_handle_of hbody (fun _ _ ht => ht) fun _ _ ht => ht

/-! ### Runs -/

lemma wellPlaced_after (h : s.WellPlaced) {e : PlacingStep} (hm : ¬e.Misplaces s) :
    (PlacingStep.after category s e).WellPlaced := by
  cases e with
  | recorded job draw saves => exact run_ensures (wellPlaced_recordTargetPlacement h job) saves
  | issued i =>
    obtain ⟨call, draw, saves⟩ := i
    by_cases hu : call.Unplaced
    · exact run_ensures (ensures_unplaced (unplaced_program hu) h) saves
    · cases call with
      | createPlacement request => exact run_ensures (ensures_reply (wellPlaced_createPlacement h request)) saves
      | updatePlacement id request => exact run_ensures (ensures_reply (wellPlaced_updatePlacement h hm)) saves
      | deletePlacement id => exact run_ensures (ensures_reply (wellPlaced_deletePlacement h id)) saves
      | _ => exact absurd trivial hu

/-- The merged record of a patch whose path is within the bounds is valid. -/
lemma build_merged (current : Placement) (stamp : Text) {request : PlacementPatch} {path : Text}
    (hp : request.remote_path = some path) (hw : within 1 512 path = true) :
    ∃ r : Placement, (current.val.merge request stamp).bind Validated.build = some r ∧
      r.val = { current.val with remote_path := path, updated_at := stamp } := by
  have hmerge : current.val.merge request stamp = some { current.val with remote_path := path, updated_at := stamp } := by
    rw [PlacementRecord.merge, hp]
    rfl
  have hbounds : PlacementRecord.bounds { current.val with remote_path := path, updated_at := stamp } = true :=
    Bool.and_eq_true_iff.2 ⟨(Bool.and_eq_true_iff.1 (bounds_placement current)).1, hw⟩
  have hvalid : passing PlacementRecord.bounds { current.val with remote_path := path, updated_at := stamp } = some _ :=
    if_pos hbounds
  rw [hmerge]
  exact ⟨⟨_, hvalid⟩, Validated.build_self ⟨_, hvalid⟩, rfl⟩

lemma not_wellPlaced_after {e : PlacingStep} (hm : e.Misplaces s) : ¬(PlacingStep.after category s e).WellPlaced := by
  cases e with
  | recorded job draw saves => exact hm.elim
  | issued i =>
    obtain ⟨call, draw, saves⟩ := i
    cases call with
    | updatePlacement id request =>
      obtain ⟨current, path, hget, hp, hw, hbad⟩ := hm
      obtain ⟨r, hbuild, hval⟩ := build_merged current draw.updated_at hp hw
      have hid : r.val.placement_id = id := by
        rw [hval]
        exact (Table.get_eq_some.1 hget).2
      have hafter : PlacingStep.after category s (.issued ⟨.updatePlacement id request, draw, saves⟩) =
          { s with placements := s.placements.set r } := by
        refine run_ensures (ensures_reply (Q := fun t => t = { s with placements := s.placements.set r }) ?_) saves
        refine ensures_reading _ (fun found hf => ?_) fun e he => ?_
        · obtain rfl := Option.some.inj (hget.symm.trans (found_ok hf))
          rw [validated, hbuild]
          exact ensures_write (.replacePlacement r) fun _ => rfl
        · have hfound : found "placement".toList id (s.placements.get id) = .error e := he
          rw [hget] at hfound
          cases hfound
      have hr : r ∈ (s.placements.set r).rows := (Table.get_eq_some.1 (Table.get_set_self s.placements r)).1
      rw [hafter]
      intro hplaced
      rcases hbad with hblank | ⟨other, hother, hne, hspot⟩
      · have htrim := hplaced.trimmed r hr
        rw [hval] at htrim
        exact hblank htrim
      · -- the other placement is still there, at the same spot
        have hne' : other.val.placement_id ≠ r.val.placement_id := by rwa [hid]
        have hstays : other ∈ (s.placements.set r).rows := by
          have hold : s.placements.get other.val.placement_id = some other := Table.get_eq_some.2 ⟨hother, rfl⟩
          exact (Table.get_eq_some.1 ((Table.get_set_of_ne s.placements hne').trans hold)).1
        have hsame : other.spot = r.spot := by rw [hspot, Placement.spot, hval]
        exact hne' (congrArg (fun p : Placement => p.val.placement_id) (hplaced.unique other hstays r hr hsame))
    | _ => exact hm.elim

/-- The placements of every state of a run are at distinct, trimmed and accepted paths exactly when no update of it
misplaces one. -/
theorem placements_iff (category : Category) {s : Repo} (hs : s.WellPlaced) (es : List PlacingStep) :
    Machine.Always (PlacingStep.after category) Repo.WellPlaced s es ↔
      Machine.Along (PlacingStep.after category) (fun s e => ¬e.Misplaces s) s es := by
  have hinv : ∀ s e, True → (fun _ : Repo => True) (PlacingStep.after category s e) := fun _ _ _ => trivial
  refine Machine.always_iff_along trivial hs hinv fun s e _ h => ?_
  exact ⟨fun hafter hm => not_wellPlaced_after hm hafter, wellPlaced_after h⟩

end Steps

/-! ### An update to a path that is taken -/

/-- Two placements of an artifact on a server. -/
def placedTwice : List PlacingStep :=
  [.issued ⟨.createArtifact { kind := .dataset, name := "images".toList }, drawing "a1", saved⟩,
    .issued ⟨.createPlacement
      { artifact_id := "a1".toList, server_id := "gpu".toList, remote_path := " /data/images ".toList },
      drawing "l1", saved⟩,
    .recorded ⟨"a1".toList, "gpu".toList, "/scratch/images".toList⟩ (drawing "l2") saved]

/-- The second is moved to a path. -/
def moved (path : String) : PlacingStep :=
  .issued ⟨.updatePlacement "l2".toList { remote_path := some path.toList }, drawing "", saved⟩

lemma empty_wellPlaced : Repo.empty.WellPlaced where
  unique _ hp := absurd hp List.not_mem_nil
  trimmed _ hp := absurd hp List.not_mem_nil
  accepted _ hp := absurd hp List.not_mem_nil

/-- Both are well placed. -/
theorem placements_placed_twice : Machine.Always (PlacingStep.after letters) Repo.WellPlaced .empty placedTwice :=
  (placements_iff letters empty_wellPlaced placedTwice).2 ⟨fun h => h, fun h => h, fun h => h, trivial⟩

theorem placements_moved_on :
    ¬∀ es, Machine.Always (PlacingStep.after letters) Repo.WellPlaced .empty es := by
  intro h
  have hplaced := (h (placedTwice ++ [moved "/data/images"])).last
  have htwo : ∃ p ∈ (Machine.after (PlacingStep.after letters) .empty (placedTwice ++ [moved "/data/images"])).placements.rows,
      ∃ q ∈ (Machine.after (PlacingStep.after letters) .empty (placedTwice ++ [moved "/data/images"])).placements.rows,
        p.spot = q.spot ∧ p ≠ q := by decide +kernel
  obtain ⟨p, hp, q, hq, hpq, hne⟩ := htwo
  exact hne (hplaced.unique p hp q hq hpq)

end SshGpuConsole.Workspace
