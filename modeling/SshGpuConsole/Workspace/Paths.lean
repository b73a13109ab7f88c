import SshGpuConsole.Lib.PosixPath
import SshGpuConsole.Workspace.Records

/-!
# Path components

`workspace/paths.py`: display names made path components, remote paths normalized, and target paths claimed
among those that are taken.
-/

namespace SshGpuConsole.Workspace
open Shell PyText

/-- The `ConflictError`s of the workspace, by their messages. -/
inductive Conflict where
  /-- "artifact path component is empty" -/
  | emptyComponent
  /-- "no usable path characters in {text!r}" -/
  | unusable (text : Text)
  /-- "remote path is empty" -/
  | emptyPath
  /-- "empty update" -/
  | emptyUpdate
  /-- "no changes" -/
  | noChanges
  /-- "unknown artifact reference: {artifact_id}" -/
  | unknownArtifact (artifact_id : Text)
  /-- "project name {name!r} already exists" -/
  | duplicateName (name : Text)
  /-- "too many {kind} artifacts (limit 512)" -/
  | tooMany (kind : ArtifactKind)
  /-- "artifact is referenced by a project" -/
  | artifactInProject
  /-- "artifact has placements; delete them first" -/
  | artifactPlaced
  /-- "artifact does not exist" -/
  | noArtifact
  /-- "identical placement already exists" -/
  | identicalPlacement
  deriving DecidableEq, Repr

/-- The first letter of `unicodedata.category` of a character. -/
abbrev Category := Char → Char

/-- `_is_kept`. -/
def isKept (category : Category) (c : Char) : Bool :=
  (c.toNat < 128 && (c.isAlphanum || c ∈ ['.', '_', '-'])) || category c ∈ ['L', 'N']

/-- `_DASH_RUN.sub("-", ...)`. -/
def collapseDashes : Text → Text
  | [] => []
  | c :: rest => if c = '-' && rest.head? = some '-' then collapseDashes rest else c :: collapseDashes rest

def isDashDot (c : Char) : Bool := c ∈ ['-', '.']

/-- `sanitize_component`, with the default `max_length`. -/
def sanitizeComponent (category : Category) (text : Text) : Except Conflict Text :=
  let candidate := strip text
  if candidate = [] then .error .emptyComponent
  else
    let dashed := collapseDashes (candidate.map fun c => if isKept category c then c else '-')
    let cleaned := (dashed.dropWhile isDashDot).rdropWhile isDashDot
    if cleaned = [] || cleaned.all (· = '.') then .error (.unusable text)
    else if 80 < cleaned.length then .ok ((cleaned.take 80).rdropWhile isDashDot)
    else .ok cleaned

/-- `safe_artifact_leaf`. -/
def safeArtifactLeaf (category : Category) (name : Text) (version : Option Text) : Except Conflict Text := do
  let base ← sanitizeComponent category name
  match version with
  | none | some [] => return base
  | some version => return base ++ "--".toList ++ (← sanitizeComponent category version)

/-- `normalize_remote_path`. -/
def normalizeRemotePath (path : Text) : Except Conflict Text :=
  let candidate := strip path
  if candidate = [] then .error .emptyPath
  else
    let normalized := PosixPath.normpath candidate
    if 1 < normalized.length then
      let trimmed := PosixPath.rstripSlash normalized
      .ok (if trimmed = [] then ['/'] else trimmed)
    else .ok normalized

/-- `_components`. -/
def components (path : Text) : Except Conflict (List Text) :=
  (normalizeRemotePath path).map fun normalized => (normalized.splitOn '/').filter (· ≠ [])

/-- `paths_overlap`. -/
def pathsOverlap (a b : Text) : Except Conflict Bool := do
  let parts_a ← components a
  let parts_b ← components b
  if parts_a.length > parts_b.length then return parts_b.isPrefixOf parts_a
  else return parts_a.isPrefixOf parts_b

/-- `root_for_kind`. -/
def rootForKind (roots : ServerRoots) : ArtifactKind → Option Text
  | .code => roots.project_root
  | .dataset => roots.dataset_root
  | .model => roots.model_root

/-- `claim_path`. -/
def claimPath (base artifact_id : Text) (taken : List Text) : Option Text :=
  if !taken.contains base then some base
  else ([6, 8, 12, artifact_id.length].map fun width => base ++ "--".toList ++ artifact_id.take width).find?
    fun candidate => !taken.contains candidate

end SshGpuConsole.Workspace
