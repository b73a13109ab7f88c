import SshGpuConsole.Workspace.Integrity

/-!
# Reading projects

`_with_launch_config_ids` validates a project again with the ids it derives, and the model bounds their number while
`create_launch_config` does not. So the projects can be read in a state exactly when each of them has at most as many
launch configs as its record takes (`readable_iff`).
-/

namespace SshGpuConsole.Workspace
open Shell PyText
open Effect (Prog exec later)

/-- `max_length` of `launch_config_ids`. -/
def maxLaunchConfigIds : ℕ := 32

/-- The launch configs of a project, in stored order. -/
def Repo.launchConfigIds (s : Repo) (project_id : Text) : List Text :=
  (s.launch_configs.rows.filter (·.val.project_id = project_id)).map (·.val.launch_config_id)

/-- The project as it is to be read. -/
def Repo.derived (s : Repo) (p : Project) : ProjectRecord :=
  { p.val with launch_config_ids := s.launchConfigIds p.val.project_id }

/-- `projects()` and `project(id)` return, with the derived ids. -/
structure Repo.Readable (s : Repo) : Prop where
  projects : ∀ saves, ∃ ps, (exec repository Workspace.projects s saves).1 = .ok ps ∧
    ps.map (·.val) = s.projects.rows.map s.derived
  project : ∀ saves, ∀ p ∈ s.projects.rows, ∃ q,
    (exec repository (Workspace.project p.val.project_id) s saves).1 = .ok q ∧ q.val = s.derived p

/-- Every project has a number of launch configs that its record takes. -/
def Repo.Fits (s : Repo) : Prop :=
  ∀ p ∈ s.projects.rows, (s.launchConfigIds p.val.project_id).length ≤ maxLaunchConfigIds

section Reads
variable {s : Repo} {saves : ℕ → Bool}

lemma exec_read (q : Query) (s : Repo) (saves : ℕ → Bool) :
    exec repository (read q) s saves = (s.read q, s, later saves) := Effect.exec_perform _ _ _

/-- Only the number of ids can keep a stored project from being valid with others. -/
lemma validate_derived (p : Project) (ids : List Text) :
    ProjectRecord.validate { p.val with launch_config_ids := ids } =
      if ids.length ≤ maxLaunchConfigIds then some { p.val with launch_config_ids := ids } else none := by
  have hvalid : ProjectRecord.validate p.val = some p.val := p.valid
  rw [ProjectRecord.validate] at hvalid
  split at hvalid
  · rename_i hbounds
    split at hvalid
    · rename_i cleaned hcleaned
      have hexcludes : cleaned = p.val.transfer_excludes :=
        congrArg ProjectRecord.transfer_excludes (Option.some.inj hvalid)
      simp only [ProjectRecord.bounds, Bool.and_eq_true, decide_eq_true_eq] at hbounds
      obtain ⟨⟨⟨⟨⟨⟨hid, hname⟩, hdescription⟩, hartifacts⟩, -⟩, htags⟩, hlength⟩ := hbounds
      rw [ProjectRecord.validate]
      dsimp only
      rw [hcleaned, hexcludes]
      split
      · rename_i hbounds'
        simp only [ProjectRecord.bounds, Bool.and_eq_true, decide_eq_true_eq] at hbounds'
        have hlen : ids.length ≤ maxLaunchConfigIds := hbounds'.1.1.2
        rw [if_pos hlen]
      · rename_i hbounds'
        rw [if_neg]
        intro hlen
        apply hbounds'
        simp only [ProjectRecord.bounds, Bool.and_eq_true, decide_eq_true_eq]
        exact ⟨⟨⟨⟨⟨⟨hid, hname⟩, hdescription⟩, hartifacts⟩, hlen⟩, htags⟩, hlength⟩
    · cases hvalid
  · cases hvalid

lemma exec_validated_of {α : Type} [Model α] {a b : α} (h : Model.validate a = some b) (s : Repo) (saves : ℕ → Bool) :
    ∃ v : Validated α, v.val = b ∧ exec repository (validated (some a)) s saves = (.ok v, s, saves) := by
  cases hbuild : Validated.build a with
  | none =>
    rw [Validated.build] at hbuild
    split at hbuild
    · cases hbuild
    · rename_i hnone
      cases hnone.symm.trans h
  | some v =>
    refine ⟨v, Option.some.inj ((Validated.build_val hbuild).symm.trans h), ?_⟩
    rw [validated, Option.bind_some, hbuild]
    rfl

lemma exec_validated_none {α : Type} [Model α] {a : α} (h : Model.validate a = none) (s : Repo) (saves : ℕ → Bool) :
    exec repository (validated (some a)) s saves = (.error .validation, s, saves) := by
  cases hbuild : Validated.build a with
  | none =>
    rw [validated, Option.bind_some, hbuild]
    rfl
  | some v => cases h.symm.trans (Validated.build_val hbuild)

lemma exec_withLaunchConfigIds (saves : ℕ → Bool) (p : Project) (h : (s.launchConfigIds p.val.project_id).length ≤ maxLaunchConfigIds) :
    ∃ q : Project, q.val = s.derived p ∧ exec repository (withLaunchConfigIds p) s saves = (.ok q, s, later saves) := by
  rw [withLaunchConfigIds, Prog.bind_eq, Effect.exec_bind_of_ok (exec_read .launchConfigs s saves)]
  dsimp only
  split
  · rename_i hsame
    refine ⟨p, ?_, rfl⟩
    rw [Repo.derived, Repo.launchConfigIds, hsame]
  · have hvalid : Model.validate { p.val with launch_config_ids := s.launchConfigIds p.val.project_id } =
        some (s.derived p) := (validate_derived p _).trans (if_pos h)
    exact exec_validated_of hvalid s (later saves)

lemma exec_withLaunchConfigIds_error (p : Project)
    (h : ¬(s.launchConfigIds p.val.project_id).length ≤ maxLaunchConfigIds) :
    exec repository (withLaunchConfigIds p) s saves = (.error .validation, s, later saves) := by
  rw [withLaunchConfigIds, Prog.bind_eq, Effect.exec_bind_of_ok (exec_read .launchConfigs s saves)]
  dsimp only
  split
  · -- the ids it has are not too many
    rename_i hsame
    have hstored := validate_derived p p.val.launch_config_ids
    rw [show ({ p.val with launch_config_ids := p.val.launch_config_ids } : ProjectRecord) = p.val from rfl] at hstored
    rw [if_neg (hsame ▸ h)] at hstored
    cases hstored.symm.trans p.valid
  · have hinvalid : Model.validate { p.val with launch_config_ids := s.launchConfigIds p.val.project_id } = none :=
      (validate_derived p _).trans (if_neg h)
    exact exec_validated_none hinvalid s (later saves)

lemma exec_withAll {ps : List Project}
    (h : ∀ p ∈ ps, (s.launchConfigIds p.val.project_id).length ≤ maxLaunchConfigIds) (saves : ℕ → Bool) :
    ∃ qs saves', qs.map (·.val) = ps.map s.derived ∧
      exec repository (withAllLaunchConfigIds ps) s saves = (.ok qs, s, saves') := by
  induction ps generalizing saves with
  | nil => exact ⟨[], saves, rfl, rfl⟩
  | cons p ps ih =>
    obtain ⟨q, hq, hfirst⟩ := exec_withLaunchConfigIds saves p (h p List.mem_cons_self)
    obtain ⟨qs, saves', hqs, hothers⟩ := ih (fun p hp => h p (List.mem_cons_of_mem _ hp)) (later saves)
    refine ⟨q :: qs, saves', ?_, ?_⟩
    · rw [List.map_cons, List.map_cons, hq, hqs]
    · rw [withAllLaunchConfigIds, Prog.bind_eq, Effect.exec_bind_of_ok hfirst, Prog.bind_eq,
        Effect.exec_bind_of_ok hothers]
      rfl

lemma exec_project {p : Project} (hp : p ∈ s.projects.rows) :
    exec repository (project p.val.project_id) s saves = exec repository (withLaunchConfigIds p) s (later saves) := by
  have hget : s.read (.getProject p.val.project_id) = .ok p := by
    rw [Repo.read, Table.get_eq_some.2 ⟨hp, rfl⟩]
    rfl
  rw [project, Prog.bind_eq, Effect.exec_bind_of_ok ((exec_read _ s saves).trans (by rw [hget]))]

/-- The projects of a state can be read exactly when their launch configs are not too many. -/
lemma readable_iff_fits : s.Readable ↔ s.Fits := by
  constructor
  · intro h p hp
    by_contra hmany
    obtain ⟨q, hq, -⟩ := h.project (fun _ => true) p hp
    rw [exec_project hp, exec_withLaunchConfigIds_error p hmany] at hq
    cases hq
  · intro h
    constructor
    · intro saves
      obtain ⟨ps, saves', hps, hall⟩ := exec_withAll h (later saves)
      refine ⟨ps, ?_, hps⟩
      rw [projects, Prog.bind_eq, Effect.exec_bind_of_ok (exec_read .projects s saves), hall]
    · intro saves p hp
      obtain ⟨q, hq, hproject⟩ := exec_withLaunchConfigIds (later saves) p (h p hp)
      refine ⟨q, ?_, hq⟩
      rw [exec_project hp, hproject]

end Reads

/-- Along a run of calls from any repository, the projects can be read in every state exactly when in every state
each project has at most 32 launch configs. -/
theorem readable_iff (category : Category) (s : Repo) (calls : List Issued) :
    (∀ t ∈ reached category s calls, t.Readable) ↔ ∀ t ∈ reached category s calls, t.Fits :=
  forall₂_congr fun _ _ => readable_iff_fits

/-! ### A project with too many launch configs -/

/-- A project and `n` launch configs of it, each accepted. -/
def crowded (n : ℕ) : List Issued :=
  ⟨.createProject { name := "p".toList }, ⟨['p'], [], [], fun _ => true⟩, saved⟩ ::
    (List.range n).map fun i =>
      ⟨.createLaunchConfig { project_id := ['p'], name := "run".toList, program := "python".toList },
        ⟨List.replicate (i + 1) 'c', [], [], fun _ => true⟩, saved⟩

theorem crowded_unreadable : ¬∀ t ∈ reached letters .empty (crowded 33), t.Readable := by
  intro h
  have hmem : settled (crowded 33) ∈ reached letters .empty (crowded 33) := by decide +kernel
  have hread := (h _ hmem).projects saved
  have herror : (exec repository projects (settled (crowded 33)) saved).1 = .error .validation := by decide +kernel
  obtain ⟨ps, hps, -⟩ := hread
  cases hps.symm.trans herror

end SshGpuConsole.Workspace
