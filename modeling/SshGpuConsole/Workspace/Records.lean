import SshGpuConsole.Lib.Validated
import SshGpuConsole.Workspace.Models

/-!
# Workspace records

The records and requests of `models/workspace.py` with what pydantic checks of them. A record in a store is a
`Validated` one; a request is what a caller hands over, and a patch distinguishes a field it leaves out from
one it sets to null.
-/

namespace SshGpuConsole.Workspace
open Shell PyText

/-- `min_length` and `max_length` of a text. -/
def within (low high : ℕ) (t : Text) : Bool := low ≤ t.length && t.length ≤ high

/-- A check of an optional field. -/
def optional {α : Type} (check : α → Bool) (value : Option α) : Bool := value.all check

inductive ArtifactKind where
  | code
  | dataset
  | model
  deriving DecidableEq, Repr

def ArtifactKind.value : ArtifactKind → Text
  | .code => "code".toList
  | .dataset => "dataset".toList
  | .model => "model".toList

structure ProjectRecord where
  project_id : Text
  name : Text
  description : Text := []
  artifact_ids : List Text := []
  launch_config_ids : List Text := []
  tags : List Text := []
  transfer_excludes : List Text := []
  created_at : Text := []
  updated_at : Text := []
  deriving DecidableEq, Repr

structure ArtifactRecord where
  artifact_id : Text
  kind : ArtifactKind
  name : Text
  version : Option Text := none
  description : Text := []
  immutable : Bool := true
  created_at : Text := []
  updated_at : Text := []
  deriving DecidableEq, Repr

structure PlacementRecord where
  placement_id : Text
  artifact_id : Text
  server_id : Text
  remote_path : Text
  created_at : Text := []
  updated_at : Text := []
  deriving DecidableEq, Repr

structure LaunchConfigRecord where
  launch_config_id : Text
  project_id : Text
  name : Text
  working_dir : Option Text := none
  program : Text
  args : List Text := []
  environment : Option Text := none
  env_vars : List (Text × Text) := []
  required_artifact_ids : List Text := []
  gpu_count : Option Int := none
  min_vram_b : Option Int := none
  created_at : Text := []
  updated_at : Text := []
  deriving DecidableEq, Repr

structure ServerRoots where
  project_root : Option Text := none
  dataset_root : Option Text := none
  model_root : Option Text := none
  output_root : Option Text := none
  deriving DecidableEq, Repr

/-! ### Validation -/

/-- The field bounds of `ProjectRecord`. -/
def ProjectRecord.bounds (r : ProjectRecord) : Bool :=
  within 1 64 r.project_id && within 1 120 r.name && within 0 600 r.description && r.artifact_ids.length ≤ 64 &&
    r.launch_config_ids.length ≤ 32 && r.tags.length ≤ 16 && r.transfer_excludes.length ≤ 32

/-- `ProjectRecord`: the bounds, then `_clean_excludes`. -/
def ProjectRecord.validate (r : ProjectRecord) : Option ProjectRecord :=
  if r.bounds then
    match cleanExcludes r.transfer_excludes with
    | .ok cleaned => some { r with transfer_excludes := cleaned }
    | .error _ => none
  else none

/-- A validation that adjusts nothing. -/
def passing {α : Type} (check : α → Bool) (a : α) : Option α := if check a then some a else none

/-- The field bounds of `ArtifactRecord`. -/
def ArtifactRecord.bounds (r : ArtifactRecord) : Bool :=
  within 1 64 r.artifact_id && within 1 120 r.name && optional (within 0 64) r.version && within 0 600 r.description

/-- The field bounds of `PlacementRecord`. -/
def PlacementRecord.bounds (r : PlacementRecord) : Bool :=
  within 1 64 r.placement_id && within 1 64 r.artifact_id && within 1 64 r.server_id && within 1 512 r.remote_path

/-- `_SHELL_META`. -/
def shellMeta : List Char :=
  [';', '&', '|', '<', '>', '\x60', '$', '\n', '\r', '\x00', '(', ')', '\x7b', '\x7d', '[', ']', '*', '?', '~',
    '"', '\'', '\\']

/-- `_no_shell_metacharacters`. -/
def noShellMetacharacters (value : Text) : Bool := !shellMeta.any (value.contains ·)

/-- The field bounds of `LaunchConfigRecord`. -/
def LaunchConfigRecord.bounds (r : LaunchConfigRecord) : Bool :=
  within 1 64 r.launch_config_id && within 1 64 r.project_id && within 1 120 r.name &&
    optional (within 1 512) r.working_dir && within 1 256 r.program && r.args.length ≤ 64 &&
    optional (within 0 120) r.environment && r.env_vars.length ≤ 32 && r.required_artifact_ids.length ≤ 64 &&
    optional (fun n => 1 ≤ n && n ≤ 64) r.gpu_count && optional (0 ≤ ·) r.min_vram_b

/-- The checks of `LaunchConfigRecord`. -/
def LaunchConfigRecord.accepts (r : LaunchConfigRecord) : Bool :=
  r.bounds && noShellMetacharacters r.program && optional noShellMetacharacters r.working_dir

/-- The field bounds of `ServerRoots`. -/
def ServerRoots.bounds (r : ServerRoots) : Bool :=
  optional (within 1 512) r.project_root && optional (within 1 512) r.dataset_root &&
    optional (within 1 512) r.model_root && optional (within 1 512) r.output_root

/-! ### Cleaned patterns stay -/

/-- A list of patterns the cleaning has nothing to do on. -/
structure Cleaned (ps : List Text) : Prop where
  stripped : ∀ p ∈ ps, strip p = p
  filled : ∀ p ∈ ps, p ≠ []
  plain : ∀ p ∈ ps, p.any isControl = false
  nodup : ps.Nodup

lemma cleaned_append {ps : List Text} (h : Cleaned ps) {p : Text} (hs : strip p = p) (hf : p ≠ [])
    (hc : p.any isControl = false) (hn : p ∉ ps) : Cleaned (ps ++ [p]) where
  stripped q hq := (List.mem_append.1 hq).elim (h.stripped q) fun hq => List.mem_singleton.1 hq ▸ hs
  filled q hq := (List.mem_append.1 hq).elim (h.filled q) fun hq => List.mem_singleton.1 hq ▸ hf
  plain q hq := (List.mem_append.1 hq).elim (h.plain q) fun hq => List.mem_singleton.1 hq ▸ hc
  nodup := List.nodup_append.2 ⟨h.nodup, List.nodup_singleton p, fun _ hx _ hy e =>
    hn (List.mem_singleton.1 hy ▸ e ▸ hx)⟩

/-- One round keeps the list clean, and at most one pattern longer. -/
lemma cleaned_cleanExclude {cleaned out : List Text} (h : Cleaned cleaned) {p : Text}
    (ho : cleanExclude cleaned p = .ok out) : Cleaned out ∧ out.length ≤ cleaned.length + 1 := by
  simp only [cleanExclude] at ho
  split_ifs at ho with he hc hm
  · cases ho
    exact ⟨h, Nat.le_succ _⟩
  · cases ho
    refine ⟨cleaned_append h (strip_strip p) (by simpa using he) (by simpa using hc) (by simpa using hm), ?_⟩
    rw [List.length_append, List.length_singleton]

lemma cleaned_foldlM {ps cleaned out : List Text} (h : Cleaned cleaned)
    (ho : ps.foldlM cleanExclude cleaned = .ok out) : Cleaned out ∧ out.length ≤ cleaned.length + ps.length := by
  induction ps generalizing cleaned with
  | nil =>
    cases ho
    exact ⟨h, Nat.le_refl _⟩
  | cons p ps ih =>
    rw [List.foldlM_cons] at ho
    cases hp : cleanExclude cleaned p with
    | error e =>
      rw [hp] at ho
      cases ho
    | ok next =>
      rw [hp] at ho
      obtain ⟨hn, hl⟩ := cleaned_cleanExclude h hp
      obtain ⟨hout, hle⟩ := ih hn ho
      exact ⟨hout, by rw [List.length_cons]; omega⟩

lemma foldlM_of_cleaned {ps cleaned : List Text} (h : Cleaned (cleaned ++ ps)) :
    ps.foldlM cleanExclude cleaned = .ok (cleaned ++ ps) := by
  induction ps generalizing cleaned with
  | nil => rw [List.append_nil]; rfl
  | cons p ps ih =>
    have hmem : p ∈ cleaned ++ p :: ps := List.mem_append_right _ List.mem_cons_self
    have hnew : p ∉ cleaned := fun hm => (List.nodup_append.1 h.nodup).2.2 p hm p List.mem_cons_self rfl
    have hround : cleanExclude cleaned p = .ok (cleaned ++ [p]) := by
      simp [cleanExclude, h.stripped p hmem, h.filled p hmem, h.plain p hmem, hnew]
    have hrest : cleaned ++ p :: ps = cleaned ++ [p] ++ ps := by rw [List.append_assoc, List.singleton_append]
    rw [List.foldlM_cons, hround, hrest]
    exact ih (hrest ▸ h)

lemma cleaned_cleanExcludes {ps out : List Text} (h : cleanExcludes ps = .ok out) :
    Cleaned out ∧ out.length ≤ ps.length := by
  have hnil : Cleaned [] :=
    ⟨fun _ hp => absurd hp List.not_mem_nil, fun _ hp => absurd hp List.not_mem_nil,
      fun _ hp => absurd hp List.not_mem_nil, List.nodup_nil⟩
  obtain ⟨hc, hl⟩ := cleaned_foldlM hnil h
  exact ⟨hc, by simpa using hl⟩

lemma cleanExcludes_of_cleaned {ps : List Text} (h : Cleaned ps) : cleanExcludes ps = .ok ps := foldlM_of_cleaned h

lemma ProjectRecord.validate_stable {a b : ProjectRecord} (h : a.validate = some b) : b.validate = some b := by
  rw [ProjectRecord.validate] at h
  split at h
  · rename_i hb
    split at h
    · rename_i cleaned hc
      cases h
      obtain ⟨hclean, hlen⟩ := cleaned_cleanExcludes hc
      have hbounds : ProjectRecord.bounds { a with transfer_excludes := cleaned } = true := by
        simp only [ProjectRecord.bounds, Bool.and_eq_true, decide_eq_true_eq] at hb ⊢
        exact ⟨hb.1, hlen.trans hb.2⟩
      rw [ProjectRecord.validate, if_pos hbounds, cleanExcludes_of_cleaned hclean]
    · cases h
  · cases h

lemma passing_stable {α : Type} (check : α → Bool) {a b : α} (h : passing check a = some b) :
    passing check b = some b := by
  rw [passing] at h
  split at h
  · cases h
    rename_i hc
    exact if_pos hc
  · cases h

instance : Model ProjectRecord := ⟨ProjectRecord.validate, ProjectRecord.validate_stable⟩
instance : Model ArtifactRecord := ⟨passing ArtifactRecord.bounds, passing_stable _⟩
instance : Model PlacementRecord := ⟨passing PlacementRecord.bounds, passing_stable _⟩
instance : Model LaunchConfigRecord := ⟨passing LaunchConfigRecord.accepts, passing_stable _⟩
instance : Model ServerRoots := ⟨passing ServerRoots.bounds, passing_stable _⟩

/-! ### Requests -/

structure ProjectCreate where
  name : Text
  description : Text := []
  artifact_ids : List Text := []
  tags : List Text := []
  transfer_excludes : List Text := []
  deriving DecidableEq, Repr

structure ProjectPatch where
  name : Option (Option Text) := none
  description : Option (Option Text) := none
  artifact_ids : Option (Option (List Text)) := none
  tags : Option (Option (List Text)) := none
  transfer_excludes : Option (Option (List Text)) := none
  deriving DecidableEq, Repr

structure ArtifactCreate where
  kind : ArtifactKind
  name : Text
  version : Option Text := none
  description : Text := []
  immutable : Option Bool := none
  deriving DecidableEq, Repr

structure ArtifactPatch where
  name : Option (Option Text) := none
  version : Option (Option Text) := none
  description : Option (Option Text) := none
  immutable : Option (Option Bool) := none
  deriving DecidableEq, Repr

structure PlacementCreate where
  artifact_id : Text
  server_id : Text
  remote_path : Text
  deriving DecidableEq, Repr

/-- `remote_path` has no default: a patch always sets it. -/
structure PlacementPatch where
  remote_path : Option Text
  deriving DecidableEq, Repr

structure LaunchConfigCreate where
  project_id : Text
  name : Text
  working_dir : Option Text := none
  program : Text
  args : List Text := []
  environment : Option Text := none
  env_vars : List (Text × Text) := []
  required_artifact_ids : List Text := []
  gpu_count : Option Int := none
  min_vram_b : Option Int := none
  deriving DecidableEq, Repr

/-- `working_dir` has no default: a patch always sets it. -/
structure LaunchConfigPatch where
  name : Option (Option Text) := none
  working_dir : Option Text
  program : Option (Option Text) := none
  args : Option (Option (List Text)) := none
  environment : Option (Option Text) := none
  env_vars : Option (Option (List (Text × Text))) := none
  required_artifact_ids : Option (Option (List Text)) := none
  gpu_count : Option (Option Int) := none
  min_vram_b : Option (Option Int) := none
  deriving DecidableEq, Repr

/-- `ServerRootsUpdate`, which has the fields and bounds of `ServerRoots`. -/
abbrev ServerRootsUpdate := ServerRoots

/-! ### Merging a patch -/

/-- The value of a field that does not take null. -/
def required {α : Type} (patch : Option (Option α)) (current : α) : Option α := patch.getD (some current)

/-- The value of a field that takes null. -/
def nullable {α : Type} (patch : Option (Option α)) (current : Option α) : Option α := patch.getD current

/-- Whether `model_dump(exclude_unset=True)` is empty. -/
def ProjectPatch.isEmpty (p : ProjectPatch) : Bool :=
  p.name.isNone && p.description.isNone && p.artifact_ids.isNone && p.tags.isNone && p.transfer_excludes.isNone

def ArtifactPatch.isEmpty (p : ArtifactPatch) : Bool :=
  p.name.isNone && p.version.isNone && p.description.isNone && p.immutable.isNone

/-- The record `ProjectRecord.model_validate` is given by `update_project`; a null where none is taken is
refused. -/
def ProjectRecord.merge (r : ProjectRecord) (p : ProjectPatch) (stamp : Text) : Option ProjectRecord := do
  let name ← required p.name r.name
  let description ← required p.description r.description
  let artifact_ids ← required p.artifact_ids r.artifact_ids
  let tags ← required p.tags r.tags
  let transfer_excludes ← required p.transfer_excludes r.transfer_excludes
  return { r with name, description, artifact_ids, tags, transfer_excludes, updated_at := stamp }

def ArtifactRecord.merge (r : ArtifactRecord) (p : ArtifactPatch) (stamp : Text) : Option ArtifactRecord := do
  let name ← required p.name r.name
  let description ← required p.description r.description
  let immutable ← required p.immutable r.immutable
  return { r with name, version := nullable p.version r.version, description, immutable, updated_at := stamp }

def PlacementRecord.merge (r : PlacementRecord) (p : PlacementPatch) (stamp : Text) : Option PlacementRecord := do
  let remote_path ← p.remote_path
  return { r with remote_path, updated_at := stamp }

def LaunchConfigRecord.merge (r : LaunchConfigRecord) (p : LaunchConfigPatch) (stamp : Text) :
    Option LaunchConfigRecord := do
  let name ← required p.name r.name
  let program ← required p.program r.program
  let args ← required p.args r.args
  let env_vars ← required p.env_vars r.env_vars
  let required_artifact_ids ← required p.required_artifact_ids r.required_artifact_ids
  return { r with
    name, working_dir := p.working_dir, program, args, environment := nullable p.environment r.environment, env_vars,
    required_artifact_ids, gpu_count := nullable p.gpu_count r.gpu_count,
    min_vram_b := nullable p.min_vram_b r.min_vram_b, updated_at := stamp }

end SshGpuConsole.Workspace
