import SshGpuConsole.Lib.Effect
import SshGpuConsole.Lib.Table
import SshGpuConsole.Workspace.Paths

/-!
# The workspace repository

`WorkspaceRepository` (`workspace/repository.py`): what each method reads and checks, and what it makes of the
records in memory. A method holds the lock, so that it is one step; a step that writes changes the records
and then saves them, and the save may fail.
-/

namespace SshGpuConsole.Workspace
open Shell PyText

abbrev Project := Validated ProjectRecord
abbrev Artifact := Validated ArtifactRecord
abbrev Placement := Validated PlacementRecord
abbrev LaunchConfig := Validated LaunchConfigRecord

/-- The records in memory. -/
structure Repo where
  projects : Table fun p : Project => p.val.project_id
  artifacts : Table fun a : Artifact => a.val.artifact_id
  placements : Table fun p : Placement => p.val.placement_id
  launch_configs : Table fun c : LaunchConfig => c.val.launch_config_id
  server_roots : Table fun r : Text × Validated ServerRoots => r.1
  deriving DecidableEq

def Repo.empty : Repo := ⟨.empty, .empty, .empty, .empty, .empty⟩

inductive Failure where
  | conflict (c : Conflict)
  /-- "{label} {id!r} not found" -/
  | notFound (label id : Text)
  /-- pydantic's `ValidationError` -/
  | validation
  /-- what `JsonFileStore.save` raised -/
  | save
  deriving DecidableEq, Repr

inductive Query where
  | projects
  | artifacts
  | placements
  | launchConfigs
  | getProject (project_id : Text)
  | getArtifact (artifact_id : Text)
  | getPlacement (placement_id : Text)
  | getLaunchConfig (launch_config_id : Text)
  | serverRoots (server_id : Text)
  | placementsOf (artifact_id : Text)
  | artifactsByKind (kind : Text)

@[reducible] def Query.Ans : Query → Type
  | .projects => List Project
  | .artifacts | .artifactsByKind _ => List Artifact
  | .placements | .placementsOf _ => List Placement
  | .launchConfigs => List LaunchConfig
  | .getProject _ => Project
  | .getArtifact _ => Artifact
  | .getPlacement _ => Placement
  | .getLaunchConfig _ => LaunchConfig
  | .serverRoots _ => Option (Validated ServerRoots)

/-- `_get`. -/
def found {α : Type} (label id : Text) (record : Option α) : Except Failure α :=
  match record with
  | some r => .ok r
  | none => .error (.notFound label id)

/-- The accessors. -/
def Repo.read (s : Repo) : (q : Query) → Except Failure q.Ans
  | .projects => .ok s.projects.rows
  | .artifacts => .ok s.artifacts.rows
  | .placements => .ok s.placements.rows
  | .launchConfigs => .ok s.launch_configs.rows
  | .getProject id => found "project".toList id (s.projects.get id)
  | .getArtifact id => found "artifact".toList id (s.artifacts.get id)
  | .getPlacement id => found "placement".toList id (s.placements.get id)
  | .getLaunchConfig id => found "launch config".toList id (s.launch_configs.get id)
  | .serverRoots id => .ok ((s.server_roots.get id).map Prod.snd)
  | .placementsOf id => .ok (s.placements.rows.filter (·.val.artifact_id = id))
  | .artifactsByKind kind => .ok (s.artifacts.rows.filter (·.val.kind.value = kind))

/-! ### Mutations -/

/-- `_check_project_refs`. -/
def Repo.checkProjectRefs (s : Repo) (record : Project) : Except Failure Unit :=
  match record.val.artifact_ids.find? (¬s.artifacts.Has ·) with
  | some missing => .error (.conflict (.unknownArtifact missing))
  | none => .ok ()

/-- `_reject_duplicate_name`. -/
def Repo.rejectDuplicateName (s : Repo) (name : Text) (exclude_id : Option Text) : Except Failure Unit :=
  if s.projects.rows.any fun p => p.val.name = name ∧ some p.val.project_id ≠ exclude_id
  then .error (.conflict (.duplicateName name)) else .ok ()

def Repo.insertProject (s : Repo) (record : Project) : Except Failure Repo := do
  s.checkProjectRefs record
  s.rejectDuplicateName record.val.name none
  return { s with projects := s.projects.set record }

def Repo.replaceProject (s : Repo) (record : Project) : Except Failure Repo := do
  s.checkProjectRefs record
  s.rejectDuplicateName record.val.name (some record.val.project_id)
  return { s with projects := s.projects.set record }

/-- The launch configs of the project go with it. -/
def Repo.removeProject (s : Repo) (project_id : Text) : Except Failure Repo :=
  if s.projects.Has project_id then
    .ok { s with
      projects := s.projects.erase project_id
      launch_configs := s.launch_configs.keep (·.val.project_id ≠ project_id) }
  else .error (.notFound "project".toList project_id)

/-- `_MAX_PER_KIND`. -/
def maxPerKind : ℕ := 512

def Repo.insertArtifact (s : Repo) (record : Artifact) : Except Failure Repo :=
  if maxPerKind ≤ s.artifacts.rows.countP (·.val.kind = record.val.kind)
  then .error (.conflict (.tooMany record.val.kind))
  else .ok { s with artifacts := s.artifacts.set record }

def Repo.replaceArtifact (s : Repo) (record : Artifact) : Except Failure Repo :=
  .ok { s with artifacts := s.artifacts.set record }

def Repo.removeArtifact (s : Repo) (artifact_id : Text) : Except Failure Repo :=
  if ¬s.artifacts.Has artifact_id then .error (.notFound "artifact".toList artifact_id)
  else if s.projects.rows.any fun p => p.val.artifact_ids.contains artifact_id
  then .error (.conflict .artifactInProject)
  else if s.placements.rows.any fun p => p.val.artifact_id = artifact_id then .error (.conflict .artifactPlaced)
  else .ok { s with artifacts := s.artifacts.erase artifact_id }

def Repo.insertPlacement (s : Repo) (record : Placement) : Except Failure Repo :=
  if s.artifacts.Has record.val.artifact_id then .ok { s with placements := s.placements.set record }
  else .error (.conflict .noArtifact)

def Repo.replacePlacement (s : Repo) (record : Placement) : Except Failure Repo :=
  .ok { s with placements := s.placements.set record }

def Repo.removePlacement (s : Repo) (placement_id : Text) : Except Failure Repo :=
  if s.placements.Has placement_id then .ok { s with placements := s.placements.erase placement_id }
  else .error (.notFound "placement".toList placement_id)

def Repo.insertLaunchConfig (s : Repo) (record : LaunchConfig) : Except Failure Repo :=
  .ok { s with launch_configs := s.launch_configs.set record }

def Repo.replaceLaunchConfig (s : Repo) (record : LaunchConfig) : Except Failure Repo :=
  .ok { s with launch_configs := s.launch_configs.set record }

def Repo.removeLaunchConfig (s : Repo) (launch_config_id : Text) : Except Failure Repo :=
  if s.launch_configs.Has launch_config_id
  then .ok { s with launch_configs := s.launch_configs.erase launch_config_id }
  else .error (.notFound "launch config".toList launch_config_id)

def Repo.setServerRoots (s : Repo) (server_id : Text) (roots : Validated ServerRoots) : Except Failure Repo :=
  .ok { s with server_roots := s.server_roots.set (server_id, roots) }

inductive Mutation where
  | insertProject (record : Project)
  | replaceProject (record : Project)
  | removeProject (project_id : Text)
  | insertArtifact (record : Artifact)
  | replaceArtifact (record : Artifact)
  | removeArtifact (artifact_id : Text)
  | insertPlacement (record : Placement)
  | replacePlacement (record : Placement)
  | removePlacement (placement_id : Text)
  | insertLaunchConfig (record : LaunchConfig)
  | replaceLaunchConfig (record : LaunchConfig)
  | removeLaunchConfig (launch_config_id : Text)
  | setServerRoots (server_id : Text) (roots : Validated ServerRoots)
  deriving DecidableEq

@[reducible] def Mutation.Ans : Mutation → Type
  | .insertProject _ | .replaceProject _ => Project
  | .insertArtifact _ | .replaceArtifact _ => Artifact
  | .insertPlacement _ | .replacePlacement _ => Placement
  | .insertLaunchConfig _ | .replaceLaunchConfig _ => LaunchConfig
  | .setServerRoots _ _ => Validated ServerRoots
  | .removeProject _ | .removeArtifact _ | .removePlacement _ | .removeLaunchConfig _ => Unit

/-- The copy a mutation returns. -/
def Mutation.answer : (m : Mutation) → m.Ans
  | .insertProject r | .replaceProject r => r
  | .insertArtifact r | .replaceArtifact r => r
  | .insertPlacement r | .replacePlacement r => r
  | .insertLaunchConfig r | .replaceLaunchConfig r => r
  | .setServerRoots _ r => r
  | .removeProject _ | .removeArtifact _ | .removePlacement _ | .removeLaunchConfig _ => ()

/-- The records a mutation leaves in memory, or the exception it raises before it changes them. -/
def Repo.mutate (s : Repo) : Mutation → Except Failure Repo
  | .insertProject r => s.insertProject r
  | .replaceProject r => s.replaceProject r
  | .removeProject id => s.removeProject id
  | .insertArtifact r => s.insertArtifact r
  | .replaceArtifact r => s.replaceArtifact r
  | .removeArtifact id => s.removeArtifact id
  | .insertPlacement r => s.insertPlacement r
  | .replacePlacement r => s.replacePlacement r
  | .removePlacement id => s.removePlacement id
  | .insertLaunchConfig r => s.insertLaunchConfig r
  | .replaceLaunchConfig r => s.replaceLaunchConfig r
  | .removeLaunchConfig id => s.removeLaunchConfig id
  | .setServerRoots id r => s.setServerRoots id r

inductive RepoOp where
  | read (q : Query)
  | write (m : Mutation)

@[reducible] def RepoOp.Ans : RepoOp → Type
  | .read q => q.Ans
  | .write m => m.Ans

/-- The repository; the choice is whether the save succeeds. -/
def repository : Effect.Sem RepoOp RepoOp.Ans Failure Repo Bool where
  act
    | .read q, _, s => (s.read q, s)
    | .write m, saves, s =>
      match s.mutate m with
      | .error e => (.error e, s)
      | .ok s' => (if saves then .ok m.answer else .error .save, s')

/-- A program over the repository. -/
abbrev Service (α : Type) := Effect.Prog RepoOp RepoOp.Ans Failure α

/-- The state a step leaves: what the mutation makes of it, whether or not the save succeeds. -/
def Repo.mutated (s : Repo) (m : Mutation) : Repo :=
  match s.mutate m with
  | .error _ => s
  | .ok s' => s'

lemma repository_read (q : Query) (c : Bool) (s : Repo) : repository.act (.read q) c s = (s.read q, s) := rfl

lemma repository_write (m : Mutation) (c : Bool) (s : Repo) : (repository.act (.write m) c s).2 = s.mutated m := by
  cases h : s.mutate m with
  | error e => simp [repository, Repo.mutated, h]
  | ok s' => simp [repository, Repo.mutated, h]

/-! ### What goes through -/

section Mutations
variable {s s' : Repo}

/-- What the checks of a removal that goes through say. -/
lemma removeArtifact_ok {id : Text} (h : s.removeArtifact id = .ok s') :
    s.artifacts.Has id ∧ (∀ p ∈ s.projects.rows, id ∉ p.val.artifact_ids) ∧
      (∀ p ∈ s.placements.rows, p.val.artifact_id ≠ id) ∧ s' = { s with artifacts := s.artifacts.erase id } := by
  simp only [Repo.removeArtifact, ite_not] at h
  split_ifs at h with hhas hproj hplaced
  simp only [List.any_eq_true, not_exists, not_and, decide_eq_true_eq] at hplaced
  simp only [List.any_eq_true, not_exists, not_and, List.contains_iff_mem] at hproj
  cases h
  exact ⟨hhas, hproj, hplaced, rfl⟩

lemma insertProject_ok {r : Project} (h : s.insertProject r = .ok s') :
    s.checkProjectRefs r = .ok () ∧ s' = { s with projects := s.projects.set r } := by
  rw [Repo.insertProject] at h
  cases hc : s.checkProjectRefs r with
  | error e =>
    rw [hc] at h
    cases h
  | ok u =>
    cases hd : s.rejectDuplicateName r.val.name none with
    | error e =>
      rw [hc, hd] at h
      cases h
    | ok v =>
      rw [hc, hd] at h
      cases h
      exact ⟨rfl, rfl⟩

lemma replaceProject_ok {r : Project} (h : s.replaceProject r = .ok s') :
    s.checkProjectRefs r = .ok () ∧ s' = { s with projects := s.projects.set r } := by
  rw [Repo.replaceProject] at h
  cases hc : s.checkProjectRefs r with
  | error e =>
    rw [hc] at h
    cases h
  | ok u =>
    cases hd : s.rejectDuplicateName r.val.name (some r.val.project_id) with
    | error e =>
      rw [hc, hd] at h
      cases h
    | ok v =>
      rw [hc, hd] at h
      cases h
      exact ⟨rfl, rfl⟩

end Mutations

end SshGpuConsole.Workspace
