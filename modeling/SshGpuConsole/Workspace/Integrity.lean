import SshGpuConsole.Workspace.Service

/-!
# Referential integrity

The references between workspace records, and which calls keep them. Each repository mutation keeps an intact
repository under a condition of its own (`Mutation.Sound`); what a service method checks before it writes
discharges the condition, but for the removal of an artifact, where nothing looks at the launch configs.
-/

namespace SshGpuConsole.Workspace
open Shell PyText
open Effect (Prog exec later wp)

/-- Every reference names a record that exists. -/
structure Repo.Intact (s : Repo) : Prop where
  project_artifact : ∀ p ∈ s.projects.rows, ∀ id ∈ p.val.artifact_ids, s.artifacts.Has id
  placement_artifact : ∀ p ∈ s.placements.rows, s.artifacts.Has p.val.artifact_id
  config_artifact : ∀ c ∈ s.launch_configs.rows, ∀ id ∈ c.val.required_artifact_ids, s.artifacts.Has id
  config_project : ∀ c ∈ s.launch_configs.rows, s.projects.Has c.val.project_id

/-- What the repository does not check itself. -/
def Mutation.Sound (s : Repo) : Mutation → Prop
  | .removeArtifact id => ∀ c ∈ s.launch_configs.rows, id ∉ c.val.required_artifact_ids
  | .replacePlacement r => s.artifacts.Has r.val.artifact_id
  | .insertLaunchConfig r | .replaceLaunchConfig r =>
    s.projects.Has r.val.project_id ∧ ∀ id ∈ r.val.required_artifact_ids, s.artifacts.Has id
  | _ => True

lemma empty_intact : Repo.empty.Intact where
  project_artifact _ hp := absurd hp List.not_mem_nil
  placement_artifact _ hp := absurd hp List.not_mem_nil
  config_artifact _ hc := absurd hc List.not_mem_nil
  config_project _ hc := absurd hc List.not_mem_nil

section Mutations
variable {s s' : Repo}

lemma checkProjectRefs_ok {r : Project} (h : s.checkProjectRefs r = .ok ()) :
    ∀ id ∈ r.val.artifact_ids, s.artifacts.Has id := by
  rw [Repo.checkProjectRefs] at h
  split at h
  · cases h
  · rename_i hnone
    intro id hid
    have hfound := List.find?_eq_none.1 hnone id hid
    simpa using hfound

/-- A project is put in place after its references were checked. -/
lemma intact_setProject (h : s.Intact) {r : Project} (hr : ∀ id ∈ r.val.artifact_ids, s.artifacts.Has id) :
    Repo.Intact { s with projects := s.projects.set r } where
  project_artifact p hp := by
    rcases Table.mem_set hp with rfl | hp
    · exact hr
    · exact h.project_artifact p hp
  placement_artifact := h.placement_artifact
  config_artifact := h.config_artifact
  config_project c hc := Table.has_set.2 (.inr (h.config_project c hc))

lemma intact_setArtifact (h : s.Intact) (r : Artifact) : Repo.Intact { s with artifacts := s.artifacts.set r } where
  project_artifact p hp id hid := Table.has_set.2 (.inr (h.project_artifact p hp id hid))
  placement_artifact p hp := Table.has_set.2 (.inr (h.placement_artifact p hp))
  config_artifact c hc id hid := Table.has_set.2 (.inr (h.config_artifact c hc id hid))
  config_project := h.config_project

lemma intact_setPlacement (h : s.Intact) {r : Placement} (hr : s.artifacts.Has r.val.artifact_id) :
    Repo.Intact { s with placements := s.placements.set r } where
  project_artifact := h.project_artifact
  placement_artifact p hp := by
    rcases Table.mem_set hp with rfl | hp
    · exact hr
    · exact h.placement_artifact p hp
  config_artifact := h.config_artifact
  config_project := h.config_project

lemma intact_setLaunchConfig (h : s.Intact) {r : LaunchConfig} (hp : s.projects.Has r.val.project_id)
    (hr : ∀ id ∈ r.val.required_artifact_ids, s.artifacts.Has id) :
    Repo.Intact { s with launch_configs := s.launch_configs.set r } where
  project_artifact := h.project_artifact
  placement_artifact := h.placement_artifact
  config_artifact c hc := by
    rcases Table.mem_set hc with rfl | hc
    · exact hr
    · exact h.config_artifact c hc
  config_project c hc := by
    rcases Table.mem_set hc with rfl | hc
    · exact hp
    · exact h.config_project c hc

/-- The cascade takes the launch configs that would lose their project. -/
lemma intact_removeProject (h : s.Intact) (id : Text) :
    Repo.Intact { s with
      projects := s.projects.erase id
      launch_configs := s.launch_configs.keep (·.val.project_id ≠ id) } where
  project_artifact p hp := h.project_artifact p (Table.mem_erase.1 hp).1
  placement_artifact := h.placement_artifact
  config_artifact c hc := h.config_artifact c (Table.mem_keep.1 hc).1
  config_project c hc := by
    obtain ⟨hc, hid⟩ := Table.mem_keep.1 hc
    exact Table.has_erase.2 ⟨h.config_project c hc, of_decide_eq_true hid⟩

/-- An artifact goes that no record refers to. -/
lemma intact_removeArtifact (h : s.Intact) {id : Text} (hp : ∀ p ∈ s.projects.rows, id ∉ p.val.artifact_ids)
    (hq : ∀ p ∈ s.placements.rows, p.val.artifact_id ≠ id)
    (hc : ∀ c ∈ s.launch_configs.rows, id ∉ c.val.required_artifact_ids) :
    Repo.Intact { s with artifacts := s.artifacts.erase id } where
  project_artifact p hm i hi := Table.has_erase.2 ⟨h.project_artifact p hm i hi, fun e => hp p hm (e ▸ hi)⟩
  placement_artifact p hm := Table.has_erase.2 ⟨h.placement_artifact p hm, hq p hm⟩
  config_artifact c hm i hi := Table.has_erase.2 ⟨h.config_artifact c hm i hi, fun e => hc c hm (e ▸ hi)⟩
  config_project := h.config_project

lemma intact_erasePlacement (h : s.Intact) (id : Text) :
    Repo.Intact { s with placements := s.placements.erase id } where
  project_artifact := h.project_artifact
  placement_artifact p hp := h.placement_artifact p (Table.mem_erase.1 hp).1
  config_artifact := h.config_artifact
  config_project := h.config_project

lemma intact_eraseLaunchConfig (h : s.Intact) (id : Text) :
    Repo.Intact { s with launch_configs := s.launch_configs.erase id } where
  project_artifact := h.project_artifact
  placement_artifact := h.placement_artifact
  config_artifact c hc := h.config_artifact c (Table.mem_erase.1 hc).1
  config_project c hc := h.config_project c (Table.mem_erase.1 hc).1

lemma intact_roots (h : s.Intact) (r : Text × Validated ServerRoots) :
    Repo.Intact { s with server_roots := s.server_roots.set r } :=
  ⟨h.project_artifact, h.placement_artifact, h.config_artifact, h.config_project⟩

/-- What goes through keeps the references. -/
lemma intact_mutate (h : s.Intact) {m : Mutation} (hm : m.Sound s) (ho : s.mutate m = .ok s') : s'.Intact := by
  cases m with
  | insertProject r =>
    obtain ⟨hrefs, rfl⟩ := insertProject_ok ho
    exact intact_setProject h (checkProjectRefs_ok hrefs)
  | replaceProject r =>
    obtain ⟨hrefs, rfl⟩ := replaceProject_ok ho
    exact intact_setProject h (checkProjectRefs_ok hrefs)
  | removeProject id =>
    simp only [Repo.mutate, Repo.removeProject] at ho
    split_ifs at ho
    cases ho
    exact intact_removeProject h id
  | insertArtifact r =>
    simp only [Repo.mutate, Repo.insertArtifact] at ho
    split_ifs at ho
    cases ho
    exact intact_setArtifact h r
  | replaceArtifact r =>
    cases ho
    exact intact_setArtifact h r
  | removeArtifact id =>
    obtain ⟨-, hp, hq, rfl⟩ := removeArtifact_ok ho
    exact intact_removeArtifact h hp hq hm
  | insertPlacement r =>
    simp only [Repo.mutate, Repo.insertPlacement] at ho
    split_ifs at ho with hhas
    cases ho
    exact intact_setPlacement h hhas
  | replacePlacement r =>
    cases ho
    exact intact_setPlacement h hm
  | removePlacement id =>
    simp only [Repo.mutate, Repo.removePlacement] at ho
    split_ifs at ho
    cases ho
    exact intact_erasePlacement h id
  | insertLaunchConfig r =>
    cases ho
    exact intact_setLaunchConfig h hm.1 hm.2
  | replaceLaunchConfig r =>
    cases ho
    exact intact_setLaunchConfig h hm.1 hm.2
  | removeLaunchConfig id =>
    simp only [Repo.mutate, Repo.removeLaunchConfig] at ho
    split_ifs at ho
    cases ho
    exact intact_eraseLaunchConfig h id
  | setServerRoots id r =>
    cases ho
    exact intact_roots h (id, r)

/-- One step of the repository. -/
lemma intact_mutated (h : s.Intact) {m : Mutation} (hm : m.Sound s) : (s.mutated m).Intact := by
  rw [Repo.mutated]
  cases ho : s.mutate m with
  | error e => exact h
  | ok s' => exact intact_mutate h hm ho

end Mutations

/-! ### The methods -/

/-- From the state, every run of the program ends in the postcondition. -/
def Ensures {α : Type} (p : Service α) (Q : Except Failure α → Repo → Prop) (s : Repo) : Prop :=
  wp repository (fun _ _ _ => True) (fun _ _ => True) p Q s

section Methods
variable {α β : Type} {s : Repo}

lemma ensures_read (q : Query) {Q : Except Failure q.Ans → Repo → Prop} (h : Q (s.read q) s) :
    Ensures (read q) Q s :=
  (Effect.wp_perform _ _ _).2 ⟨trivial, fun _ _ => h⟩

lemma ensures_write (m : Mutation) {Q : Except Failure m.Ans → Repo → Prop} (h : ∀ r, Q r (s.mutated m)) :
    Ensures (write m) Q s :=
  (Effect.wp_perform _ _ _).2 ⟨trivial, fun c _ => (repository_write m c s).symm ▸ h _⟩

lemma ensures_mono {p : Service α} {Q R : Except Failure α → Repo → Prop} (h : ∀ r s, Q r s → R r s)
    (hp : Ensures p Q s) : Ensures p R s := Effect.wp_mono h hp

/-- A step that reads, and what follows on its answer. -/
lemma ensures_reading (q : Query) {f : q.Ans → Service β} {Q : Except Failure β → Repo → Prop}
    (hok : ∀ a, s.read q = .ok a → Ensures (f a) Q s) (herr : ∀ e, s.read q = .error e → Q (.error e) s) :
    Ensures ((read q).bind f) Q s := by
  refine Effect.wp_bind_of (ensures_read q ⟨rfl, rfl⟩ : Ensures (read q) (fun r t => r = s.read q ∧ t = s) s) ?_ ?_
  · rintro a _ ⟨ha, rfl⟩
    exact hok a ha.symm
  · rintro e _ ⟨he, rfl⟩
    exact herr e he.symm

lemma ensures_validated [Model α] {fields : Option α} {f : Validated α → Service β}
    {Q : Except Failure β → Repo → Prop} (hok : ∀ v, fields.bind Validated.build = some v → Ensures (f v) Q s)
    (herr : Q (.error .validation) s) : Ensures ((validated fields).bind f) Q s := by
  rw [validated]
  cases h : fields.bind Validated.build with
  | some v => exact hok v h
  | none => exact herr

/-- A last step that writes, and reads behind it, keep what the mutation keeps. -/
lemma ensures_reply {p : Service α} {reply : α → Reply} {Q : Repo → Prop} (h : Ensures p (fun _ => Q) s) :
    Ensures (replying p reply) (fun _ => Q) s :=
  Effect.wp_bind_of h (fun _ _ hq => hq) fun _ _ hq => hq

/-- The step reads. -/
def IsRead : RepoOp → Prop
  | .read _ => True
  | .write _ => False

/-- Every step of the program reads. -/
def Reads (p : Service α) : Prop := p.Only IsRead

lemma reads_read (q : Query) : Reads (read q) := Prog.Only.perform trivial

lemma reads_validated [Model α] (fields : Option α) : Reads (validated fields) := by
  rw [validated]
  cases fields.bind Validated.build with
  | some v => trivial
  | none => trivial

/-- A program that reads leaves the state. -/
lemma ensures_of_reads {p : Service α} (h : Reads p) {Q : Repo → Prop} (hq : Q s) : Ensures p (fun _ => Q) s := by
  refine Effect.wp_only (fun o ho t c ht => ?_) h hq
  cases o with
  | read q => exact ht
  | write m => exact ho.elim

lemma reads_withLaunchConfigIds (p : Project) : Reads (withLaunchConfigIds p) := by
  refine Prog.Only.bind (reads_read _) fun configs => Prog.Only.ite trivial (reads_validated _)

lemma reads_withAll (ps : List Project) : Reads (withAllLaunchConfigIds ps) := by
  induction ps with
  | nil => trivial
  | cons p ps ih =>
    exact Prog.Only.bind (reads_withLaunchConfigIds p) fun first => Prog.Only.bind ih fun others => trivial

lemma reads_rejectUnknownArtifacts (ids : List Text) : Reads (rejectUnknownArtifacts ids) := by
  refine Prog.Only.bind (reads_read _) fun existing => ?_
  split
  · trivial
  · trivial

lemma reads_artifacts (kind : Option Text) : Reads (artifacts kind) := by
  rcases kind with - | - | ⟨c, kind⟩
  · exact reads_read _
  · exact reads_read _
  · exact reads_read _

lemma reads_serverRoots (draw : Draw) (id : Text) : Reads (serverRoots draw id) :=
  Prog.Only.ite trivial (reads_read _)

lemma reads_suggestTargetPath (category : Category) (draw : Draw) (server_id artifact_id : Text) :
    Reads (suggestTargetPath category draw server_id artifact_id) := by
  refine Prog.Only.bind (reads_read _) fun artifact => Prog.Only.bind (reads_serverRoots draw server_id) fun roots => ?_
  split
  · trivial
  · trivial
  · split
    · trivial
    · refine Prog.Only.bind (reads_read _) fun placements => ?_
      dsimp only
      split
      · trivial
      · trivial

/-! ### What the methods that write keep -/

variable {category : Category} {draw : Draw}

lemma found_ok {label id : Text} {r : Option α} {a : α} (h : found label id r = .ok a) : r = some a := by
  cases r with
  | none => cases h
  | some b =>
    cases h
    rfl

lemma passing_eq {check : α → Bool} {a b : α} (h : passing check a = some b) : b = a := by
  rw [passing] at h
  split at h
  · cases h
    rfl
  · cases h

/-- The record a patch leaves keeps what the patch cannot name. -/
lemma merged_placement {r : PlacementRecord} {p : PlacementPatch} {stamp : Text} {v : Placement}
    (h : (r.merge p stamp).bind Validated.build = some v) :
    v.val.placement_id = r.placement_id ∧ v.val.artifact_id = r.artifact_id ∧ v.val.server_id = r.server_id ∧
      p.remote_path = some v.val.remote_path := by
  obtain ⟨merged, hm, hv⟩ := Option.bind_eq_some_iff.1 h
  have hval := passing_eq (Validated.build_val hv)
  rw [hval]
  simp only [PlacementRecord.merge, Option.bind_eq_bind, Option.bind_eq_some_iff, Option.pure_def,
    Option.some.injEq] at hm
  obtain ⟨path, hp, rfl⟩ := hm
  exact ⟨rfl, rfl, rfl, hp⟩

lemma merged_launchConfig {r : LaunchConfigRecord} {p : LaunchConfigPatch} {stamp : Text} {v : LaunchConfig}
    (h : (r.merge p stamp).bind Validated.build = some v) :
    v.val.project_id = r.project_id ∧
      (p.required_artifact_ids = none → v.val.required_artifact_ids = r.required_artifact_ids) := by
  obtain ⟨merged, hm, hv⟩ := Option.bind_eq_some_iff.1 h
  have hval := passing_eq (Validated.build_val hv)
  rw [hval]
  simp only [LaunchConfigRecord.merge, Option.bind_eq_bind, Option.bind_eq_some_iff, Option.pure_def,
    Option.some.injEq] at hm
  obtain ⟨name, -, program, -, args, -, env_vars, -, ids, hids, rfl⟩ := hm
  refine ⟨rfl, fun hnone => ?_⟩
  rw [required, hnone] at hids
  exact (Option.some.inj hids).symm

/-- A method that ends with a write and reads. -/
lemma ensures_writing (h : s.Intact) {m : Mutation} (hm : m.Sound s) {f : m.Ans → Service β} (hf : ∀ a, Reads (f a)) :
    Ensures ((write m).bind f) (fun _ => Repo.Intact) s := by
  have hkeep := intact_mutated h hm
  refine Effect.wp_bind_of (ensures_write m fun r => hkeep : Ensures (write m) (fun _ => Repo.Intact) s) ?_ ?_
  · exact fun a t ht => ensures_of_reads (hf a) ht
  · exact fun e t ht => ht

lemma ensures_lastWrite (h : s.Intact) {m : Mutation} (hm : m.Sound s) :
    Ensures (write m) (fun _ => Repo.Intact) s := ensures_write m fun _ => intact_mutated h hm

lemma ensures_createProject (h : s.Intact) (request : ProjectCreate) :
    Ensures (createProject draw request) (fun _ => Repo.Intact) s :=
  ensures_validated (fun r _ => ensures_writing h (m := .insertProject r) trivial reads_withLaunchConfigIds) h

lemma ensures_updateProject (h : s.Intact) (id : Text) (request : ProjectPatch) :
    Ensures (updateProject draw id request) (fun _ => Repo.Intact) s := by
  refine ensures_reading _ (fun current _ => Effect.wp_ite (fun _ => h) fun _ => ?_) fun _ _ => h
  exact ensures_validated (fun r _ => ensures_writing h (m := .replaceProject r) trivial reads_withLaunchConfigIds) h

lemma ensures_createArtifact (h : s.Intact) (request : ArtifactCreate) :
    Ensures (createArtifact draw request) (fun _ => Repo.Intact) s :=
  ensures_validated (fun r _ => ensures_lastWrite h (m := .insertArtifact r) trivial) h

lemma ensures_updateArtifact (h : s.Intact) (id : Text) (request : ArtifactPatch) :
    Ensures (updateArtifact draw id request) (fun _ => Repo.Intact) s := by
  refine ensures_reading _ (fun current _ => Effect.wp_ite (fun _ => h) fun _ => ?_) fun _ _ => h
  exact ensures_validated (fun r _ => ensures_lastWrite h (m := .replaceArtifact r) trivial) h

lemma ensures_createPlacement (h : s.Intact) (request : PlacementCreate) :
    Ensures (createPlacement draw request) (fun _ => Repo.Intact) s := by
  refine Effect.wp_ite (fun _ => h) fun _ => ensures_reading _ (fun _ _ => ?_) fun _ _ => h
  refine ensures_reading _ (fun existing _ => Effect.wp_ite (fun _ => h) fun _ => ?_) fun _ _ => h
  exact ensures_validated (fun r _ => ensures_lastWrite h (m := .insertPlacement r) trivial) h

/-- The artifact of a placement stays the one it had. -/
lemma ensures_updatePlacement (h : s.Intact) (id : Text) (request : PlacementPatch) :
    Ensures (updatePlacement draw id request) (fun _ => Repo.Intact) s := by
  refine ensures_reading _ (fun current hc => ?_) fun _ _ => h
  obtain ⟨hmem, -⟩ := Table.get_eq_some.1 (found_ok hc)
  refine ensures_validated (fun r hr => ensures_lastWrite h (m := .replacePlacement r) ?_) h
  obtain ⟨-, hartifact, -, -⟩ := merged_placement hr
  show s.artifacts.Has r.val.artifact_id
  rw [hartifact]
  exact h.placement_artifact current hmem

/-- `_reject_unknown_artifacts` lets the ids pass that exist. -/
lemma ensures_rejectUnknown {ids : List Text} {f : Unit → Service β} {Q : Except Failure β → Repo → Prop}
    (hok : (∀ id ∈ ids, s.artifacts.Has id) → Ensures (f ()) Q s)
    (herr : ∀ id ∈ ids, ¬s.artifacts.Has id → Q (.error (.conflict (.unknownArtifact id))) s) :
    Ensures ((rejectUnknownArtifacts ids).bind f) Q s := by
  rw [rejectUnknownArtifacts, Effect.Prog.bind_eq, Prog.bind_assoc]
  refine ensures_reading .artifacts (fun existing he => ?_) fun e he => by cases he
  obtain rfl : s.artifacts.rows = existing := Except.ok.inj he
  cases hf : ids.find? fun id => !(s.artifacts.rows.map (·.val.artifact_id)).contains id with
  | some missing =>
    have hm := List.find?_some (p := fun id => !(s.artifacts.rows.map (·.val.artifact_id)).contains id) hf
    have hgone : missing ∉ s.artifacts.rows.map (·.val.artifact_id) := fun hin => by
      rw [List.contains_iff_mem.2 hin] at hm
      cases hm
    exact herr missing (List.mem_of_find?_eq_some hf) hgone
  | none =>
    refine hok fun id hid => ?_
    have hin := List.find?_eq_none.1 hf id hid
    exact List.contains_iff_mem.1 (by simpa using hin)

lemma mem_fromkeys {ids : List Text} {id : Text} (h : id ∈ fromkeys ids) : id ∈ ids := by
  have hfold : ∀ (ids kept : List Text), id ∈ ids.foldl (fun kept id => if kept.contains id then kept else kept ++ [id]) kept →
      id ∈ kept ∨ id ∈ ids := by
    intro ids
    induction ids with
    | nil => exact fun kept hk => .inl hk
    | cons x ids ih =>
      intro kept hk
      rcases ih _ hk with hin | hin
      · dsimp only at hin
        split at hin
        · exact .inl hin
        · exact (List.mem_append.1 hin).imp_right fun hx => List.mem_cons.2 (.inl (List.mem_singleton.1 hx))
      · exact .inr (List.mem_cons_of_mem x hin)
  exact (hfold ids [] h).resolve_left List.not_mem_nil

lemma ensures_createLaunchConfig (h : s.Intact) (request : LaunchConfigCreate) :
    Ensures (createLaunchConfig draw request) (fun _ => Repo.Intact) s := by
  refine ensures_reading _ (fun current hc => ?_) fun _ _ => h
  have hproject : s.projects.Has request.project_id := Table.has_of_get (found_ok hc)
  refine ensures_rejectUnknown (fun hids => ?_) fun _ _ _ => h
  refine ensures_validated (fun r hr => ensures_lastWrite h (m := .insertLaunchConfig r) ?_) h
  have hval := passing_eq (Validated.build_val (show Validated.build _ = some r from hr))
  show s.projects.Has r.val.project_id ∧ ∀ id ∈ r.val.required_artifact_ids, s.artifacts.Has id
  rw [hval]
  exact ⟨hproject, fun id hid => hids id (mem_fromkeys hid)⟩

lemma ensures_updateLaunchConfig (h : s.Intact) (id : Text) (request : LaunchConfigPatch) :
    Ensures (updateLaunchConfig draw id request) (fun _ => Repo.Intact) s := by
  refine ensures_reading _ (fun current hc => ?_) fun _ _ => h
  obtain ⟨hmem, -⟩ := Table.get_eq_some.1 (found_ok hc)
  refine ensures_validated (fun r hr => ensures_rejectUnknown (fun hids => ?_) fun _ _ _ => h) h
  refine ensures_lastWrite h (m := .replaceLaunchConfig r) ⟨?_, hids⟩
  obtain ⟨hproject, -⟩ := merged_launchConfig hr
  rw [hproject]
  exact h.config_project current hmem

/-- A patch that leaves the required artifacts alone meets no unknown one. -/
lemma ensures_updateUntouched (h : s.Intact) (id : Text) {request : LaunchConfigPatch}
    (hrequest : request.required_artifact_ids = none) :
    Ensures (updateLaunchConfig draw id request)
      (fun r _ => ∀ missing, r ≠ .error (.conflict (.unknownArtifact missing))) s := by
  refine ensures_reading _ (fun current hc => ?_) fun e he missing hr => ?_
  · obtain ⟨hmem, -⟩ := Table.get_eq_some.1 (found_ok hc)
    refine ensures_validated (fun r hr => ?_) fun missing hm => by cases hm
    have hsame := (merged_launchConfig hr).2 hrequest
    refine ensures_rejectUnknown (fun _ => ?_) fun missing hm hgone => ?_
    · refine (Effect.wp_perform _ _ _).2 ⟨trivial, fun saves _ missing => ?_⟩
      show (if saves = true then Except.ok r else Except.error Failure.save) ≠ _
      split
      · exact fun hm => by cases hm
      · exact fun hm => by cases hm
    · exact absurd (h.config_artifact current hmem missing (hsame ▸ hm)) hgone
  · obtain rfl := Except.error.inj hr
    have hget : found "launch config".toList id (s.launch_configs.get id) = .error _ := he
    cases hg : s.launch_configs.get id with
    | none =>
      rw [hg] at hget
      cases hget
    | some c =>
      rw [hg] at hget
      cases hget

lemma ensures_setServerRoots (h : s.Intact) (id : Text) (update : ServerRootsUpdate) :
    Ensures (setServerRoots draw id update) (fun _ => Repo.Intact) s := by
  refine Effect.wp_ite (fun _ => h) fun _ => ?_
  exact ensures_validated (fun r _ => ensures_lastWrite h (m := .setServerRoots id r) trivial) h

/-- The removal of an artifact goes through although a launch config requires it. -/
def Call.Dangles (s : Repo) : Call → Prop
  | .deleteArtifact id =>
    s.artifacts.Has id ∧ (∀ p ∈ s.projects.rows, id ∉ p.val.artifact_ids) ∧
      (∀ p ∈ s.placements.rows, p.val.artifact_id ≠ id) ∧ ∃ c ∈ s.launch_configs.rows, id ∈ c.val.required_artifact_ids
  | _ => False

lemma ensures_deleteArtifact (h : s.Intact) {id : Text} (hd : ¬(Call.deleteArtifact id).Dangles s) :
    Ensures (deleteArtifact id) (fun _ => Repo.Intact) s := by
  refine ensures_write _ fun _ => ?_
  rw [Repo.mutated]
  cases ho : s.mutate (.removeArtifact id) with
  | error e => exact h
  | ok s' =>
    obtain ⟨hhas, hp, hq, rfl⟩ := removeArtifact_ok ho
    exact intact_removeArtifact h hp hq fun c hc hid => hd ⟨hhas, hp, hq, c, hc, hid⟩

/-- Every call keeps the references, but a removal that leaves a launch config without its artifact. -/
lemma ensures_call (h : s.Intact) {call : Call} (hd : ¬call.Dangles s) :
    Ensures (call.program category draw) (fun _ => Repo.Intact) s := by
  cases call with
  | createProject request => exact ensures_reply (ensures_createProject h request)
  | updateProject id request => exact ensures_reply (ensures_updateProject h id request)
  | deleteProject id => exact ensures_reply (ensures_lastWrite h (m := .removeProject id) trivial)
  | projects => exact ensures_reply (ensures_of_reads (Prog.Only.bind (reads_read _) reads_withAll) h)
  | project id => exact ensures_reply (ensures_of_reads (Prog.Only.bind (reads_read _) reads_withLaunchConfigIds) h)
  | createArtifact request => exact ensures_reply (ensures_createArtifact h request)
  | updateArtifact id request => exact ensures_reply (ensures_updateArtifact h id request)
  | deleteArtifact id => exact ensures_reply (ensures_deleteArtifact h hd)
  | artifacts kind =>
    exact ensures_reply (ensures_of_reads (reads_artifacts kind) h)
  | artifact id => exact ensures_reply (ensures_of_reads (reads_read _) h)
  | placementsOf id => exact ensures_reply (ensures_of_reads (reads_read _) h)
  | createPlacement request => exact ensures_reply (ensures_createPlacement h request)
  | updatePlacement id request => exact ensures_reply (ensures_updatePlacement h id request)
  | deletePlacement id => exact ensures_reply (ensures_lastWrite h (m := .removePlacement id) trivial)
  | placements => exact ensures_reply (ensures_of_reads (reads_read _) h)
  | placement id => exact ensures_reply (ensures_of_reads (reads_read _) h)
  | createLaunchConfig request => exact ensures_reply (ensures_createLaunchConfig h request)
  | updateLaunchConfig id request => exact ensures_reply (ensures_updateLaunchConfig h id request)
  | deleteLaunchConfig id => exact ensures_reply (ensures_lastWrite h (m := .removeLaunchConfig id) trivial)
  | launchConfigs => exact ensures_reply (ensures_of_reads (reads_read _) h)
  | launchConfig id => exact ensures_reply (ensures_of_reads (reads_read _) h)
  | serverRoots id => exact ensures_reply (ensures_of_reads (reads_serverRoots draw id) h)
  | setServerRoots id update => exact ensures_reply (ensures_setServerRoots h id update)
  | suggestTargetPath server_id artifact_id =>
    exact ensures_reply (ensures_of_reads (reads_suggestTargetPath category draw server_id artifact_id) h)

end Methods

/-! ### Runs -/

/-- A call with what it draws and the outcomes of its saves. -/
structure Issued where
  call : Call
  draw : Draw
  saves : ℕ → Bool

/-- The repository a call leaves. -/
def Issued.after (category : Category) (i : Issued) (s : Repo) : Repo :=
  (exec repository (i.call.program category i.draw) s i.saves).2.1

/-- The states of a run of calls, one after the other. -/
def reached (category : Category) : Repo → List Issued → List Repo
  | s, [] => [s]
  | s, i :: calls => s :: reached category (i.after category s) calls

/-- No call of the run removes an artifact that a launch config requires. -/
def Spared (category : Category) : Repo → List Issued → Prop
  | _, [] => True
  | s, i :: calls => ¬i.call.Dangles s ∧ Spared category (i.after category s) calls

section Runs
variable {category : Category} {s : Repo}

lemma run_ensures {α : Type} {p : Service α} {Q : Except Failure α → Repo → Prop} (h : Ensures p Q s)
    (saves : ℕ → Bool) : Q (exec repository p s saves).1 (exec repository p s saves).2.1 :=
  Effect.wp_exec h (Effect.meets_of_forall fun _ _ _ => trivial)

lemma intact_after (h : s.Intact) {i : Issued} (hd : ¬i.call.Dangles s) : (i.after category s).Intact :=
  run_ensures (ensures_call h hd) i.saves

/-- The removal leaves the launch config, which requires what is gone. -/
lemma not_intact_after {i : Issued} (hd : i.call.Dangles s) : ¬(i.after category s).Intact := by
  obtain ⟨call, draw, saves⟩ := i
  cases call with
  | deleteArtifact id =>
    obtain ⟨hhas, hp, hq, c, hc, hid⟩ := hd
    have hgoes : s.mutated (.removeArtifact id) = { s with artifacts := s.artifacts.erase id } := by
      have hproj : ¬(s.projects.rows.any fun p => p.val.artifact_ids.contains id) = true := by
        rw [List.any_eq_true]
        rintro ⟨p, hm, hin⟩
        exact hp p hm (List.contains_iff_mem.1 hin)
      have hplaced : ¬(s.placements.rows.any fun p => p.val.artifact_id = id) = true := by
        rw [List.any_eq_true]
        rintro ⟨p, hm, he⟩
        exact hq p hm (of_decide_eq_true he)
      rw [Repo.mutated, Repo.mutate, Repo.removeArtifact, if_neg (not_not.2 hhas), if_neg hproj, if_neg hplaced]
    have hafter : Issued.after category ⟨.deleteArtifact id, draw, saves⟩ s = s.mutated (.removeArtifact id) :=
      run_ensures (ensures_reply (Q := fun t => t = s.mutated (.removeArtifact id))
        (ensures_write (.removeArtifact id) fun _ => rfl)) saves
    rw [hafter, hgoes]
    exact fun h => (Table.has_erase.1 (h.config_artifact c hc id hid)).2 rfl
  | _ => exact hd.elim

lemma intact_of_spared {calls : List Issued} (h : s.Intact) (hc : Spared category s calls) :
    ∀ t ∈ reached category s calls, t.Intact := by
  induction calls generalizing s with
  | nil => exact fun t ht => List.mem_singleton.1 ht ▸ h
  | cons i calls ih =>
    intro t ht
    rcases List.mem_cons.1 ht with rfl | ht
    · exact h
    · exact ih (intact_after h hc.1) hc.2 t ht

lemma mem_reached (calls : List Issued) : s ∈ reached category s calls := by
  cases calls with
  | nil => exact List.mem_singleton.2 rfl
  | cons i calls => exact List.mem_cons_self

lemma spared_of_intact {calls : List Issued} (h : ∀ t ∈ reached category s calls, t.Intact) :
    Spared category s calls := by
  induction calls generalizing s with
  | nil => trivial
  | cons i calls ih =>
    refine ⟨fun hd => ?_, ih fun t ht => h t (List.mem_cons_of_mem s ht)⟩
    exact not_intact_after hd (h _ (List.mem_cons_of_mem s (mem_reached calls)))

/-- The references hold in every state of a run exactly when no call of it removes an artifact that a launch
config requires, and then no patch that leaves the required artifacts alone is refused for one of them. -/
theorem references_iff (category : Category) (s : Repo) (hs : s.Intact) (calls : List Issued) :
    ((∀ t ∈ reached category s calls, t.Intact) ↔ Spared category s calls) ∧
      (Spared category s calls → ∀ t ∈ reached category s calls, ∀ draw saves id request missing,
        request.required_artifact_ids = none →
        (exec repository (updateLaunchConfig draw id request) t saves).1 ≠
          .error (.conflict (.unknownArtifact missing))) := by
  refine ⟨⟨spared_of_intact, intact_of_spared hs⟩, fun hc t ht draw saves id request missing hrequest => ?_⟩
  exact run_ensures (ensures_updateUntouched (intact_of_spared hs hc t ht) id hrequest) saves missing

end Runs

/-! ### A launch config that loses its artifact -/

/-- Every character is a letter. -/
def letters : Category := fun _ => 'L'

/-- Draws of a new id, while every server exists. -/
def drawing (id : String) : Draw := ⟨id.toList, [], [], fun _ => true⟩

def saved : ℕ → Bool := fun _ => true

/-- A project, an artifact and a launch config that requires it. -/
def declared : List Issued :=
  [⟨.createProject { name := "train".toList }, drawing "p1", saved⟩,
    ⟨.createArtifact { kind := .dataset, name := "images".toList }, drawing "a1", saved⟩,
    ⟨.createLaunchConfig
      { project_id := "p1".toList, name := "run".toList, program := "python".toList,
        required_artifact_ids := ["a1".toList] }, drawing "c1", saved⟩]

/-- The state behind the calls. -/
def settled (calls : List Issued) : Repo := calls.foldl (fun s i => i.after letters s) .empty

theorem references_kept : (settled declared).Intact :=
  (references_iff letters .empty empty_intact declared).1.2
    ⟨fun h => h, fun h => h, fun h => h, trivial⟩ (settled declared) (by decide +kernel)

/-- The removal of the artifact the launch config requires. -/
def undeclared : Issued := ⟨.deleteArtifact "a1".toList, drawing "", saved⟩

/-- The state it leaves. -/
def dangling : Repo := settled (declared ++ [undeclared])

theorem references_broken :
    ∃ t ∈ reached letters .empty (declared ++ [undeclared]),
      ¬t.Intact ∧
        (exec repository (updateLaunchConfig (drawing "") "c1".toList
          { name := some (some "rerun".toList), working_dir := none }) t saved).1 =
          .error (.conflict (.unknownArtifact "a1".toList)) := by
  refine ⟨dangling, by decide +kernel, fun h => ?_, by decide +kernel⟩
  have hconfig : ¬∀ c ∈ dangling.launch_configs.rows, ∀ id ∈ c.val.required_artifact_ids, dangling.artifacts.Has id := by
    decide +kernel
  exact hconfig h.config_artifact

end SshGpuConsole.Workspace
