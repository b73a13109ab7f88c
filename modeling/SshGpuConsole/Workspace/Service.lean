import SshGpuConsole.Workspace.Repository

/-!
# The workspace service

`WorkspaceService` (`workspace/service.py`): every method as the sequence of repository steps its code performs.
What a call draws from outside (`new_id()`, the two stamps, the answers of `server_exists`) is its `Draw`.
-/

namespace SshGpuConsole.Workspace
open Shell PyText
open Effect (Prog)

/-- What a call gets from outside the repository. -/
structure Draw where
  new_id : Text
  created_at : Text
  updated_at : Text
  server_exists : Text → Bool

/-- One step that reads. -/
def read (q : Query) : Service q.Ans := Prog.perform (.read q : RepoOp)

/-- One step that writes. -/
def write (m : Mutation) : Service m.Ans := Prog.perform (.write m : RepoOp)

/-- A record of the given fields, or pydantic's exception. -/
def validated {α : Type} [Model α] (fields : Option α) : Service (Validated α) :=
  match fields.bind Validated.build with
  | some record => .ret record
  | none => .raise .validation

def conflict {α : Type} (c : Conflict) : Service α := .raise (.conflict c)

/-- `list(dict.fromkeys(ids))`. -/
def fromkeys (ids : List Text) : List Text :=
  ids.foldl (fun kept id => if kept.contains id then kept else kept ++ [id]) []

/-! ### Projects -/

/-- `_with_launch_config_ids`. -/
def withLaunchConfigIds (project : Project) : Service Project := do
  let configs ← read .launchConfigs
  let derived := (configs.filter (·.val.project_id = project.val.project_id)).map (·.val.launch_config_id)
  if derived = project.val.launch_config_ids then return project
  else validated (some { project.val with launch_config_ids := derived })

def createProject (draw : Draw) (request : ProjectCreate) : Service Project := do
  let record ← validated (some {
    project_id := draw.new_id
    name := strip request.name
    description := strip request.description
    artifact_ids := fromkeys request.artifact_ids
    tags := request.tags
    transfer_excludes := request.transfer_excludes
    created_at := draw.created_at
    updated_at := draw.updated_at : ProjectRecord })
  let inserted ← write (.insertProject record)
  withLaunchConfigIds inserted

def updateProject (draw : Draw) (project_id : Text) (request : ProjectPatch) : Service Project := do
  let current ← read (.getProject project_id)
  if request.isEmpty then conflict .emptyUpdate
  else
    let updated ← validated (current.val.merge request draw.updated_at)
    let replaced ← write (.replaceProject updated)
    withLaunchConfigIds replaced

def deleteProject (project_id : Text) : Service Unit := write (.removeProject project_id)

/-- The comprehension of `projects`. -/
def withAllLaunchConfigIds : List Project → Service (List Project)
  | [] => return []
  | project :: projects => do
    let first ← withLaunchConfigIds project
    let others ← withAllLaunchConfigIds projects
    return first :: others

def projects : Service (List Project) := do
  let records ← read .projects
  withAllLaunchConfigIds records

def project (project_id : Text) : Service Project := do
  let record ← read (.getProject project_id)
  withLaunchConfigIds record

/-! ### Artifacts -/

def createArtifact (draw : Draw) (request : ArtifactCreate) : Service Artifact := do
  let record ← validated (some {
    artifact_id := draw.new_id
    kind := request.kind
    name := strip request.name
    version := request.version.bind fun version => if strip version = [] then none else some (strip version)
    description := strip request.description
    immutable := request.immutable.getD (request.kind ≠ .code)
    created_at := draw.created_at
    updated_at := draw.updated_at : ArtifactRecord })
  write (.insertArtifact record)

def updateArtifact (draw : Draw) (artifact_id : Text) (request : ArtifactPatch) : Service Artifact := do
  let current ← read (.getArtifact artifact_id)
  if request.isEmpty then conflict .noChanges
  else
    let updated ← validated (current.val.merge request draw.updated_at)
    write (.replaceArtifact updated)

def deleteArtifact (artifact_id : Text) : Service Unit := write (.removeArtifact artifact_id)

/-- A kind that is empty counts as none. -/
def artifacts (kind : Option Text) : Service (List Artifact) :=
  match kind with
  | none | some [] => read .artifacts
  | some kind => read (.artifactsByKind kind)

def artifact (artifact_id : Text) : Service Artifact := read (.getArtifact artifact_id)

def placementsOf (artifact_id : Text) : Service (List Placement) := read (.placementsOf artifact_id)

/-! ### Placements -/

/-- The test for an identical placement. -/
def Placement.isDuplicate (request : PlacementCreate) (p : Placement) : Bool :=
  p.val.artifact_id = request.artifact_id && p.val.server_id = request.server_id &&
    p.val.remote_path = strip request.remote_path

def createPlacement (draw : Draw) (request : PlacementCreate) : Service Placement := do
  if !draw.server_exists request.server_id then .raise (.notFound "server".toList request.server_id)
  else
    let _ ← read (.getArtifact request.artifact_id)
    let existing ← read .placements
    if existing.any (Placement.isDuplicate request) then conflict .identicalPlacement
    else
      let record ← validated (some {
        placement_id := draw.new_id
        artifact_id := request.artifact_id
        server_id := request.server_id
        remote_path := strip request.remote_path
        created_at := draw.created_at
        updated_at := draw.updated_at : PlacementRecord })
      write (.insertPlacement record)

/-- The patch is never empty: its one field has no default. -/
def updatePlacement (draw : Draw) (placement_id : Text) (request : PlacementPatch) : Service Placement := do
  let current ← read (.getPlacement placement_id)
  let updated ← validated (current.val.merge request draw.updated_at)
  write (.replacePlacement updated)

def deletePlacement (placement_id : Text) : Service Unit := write (.removePlacement placement_id)

def placements : Service (List Placement) := read .placements

def placement (placement_id : Text) : Service Placement := read (.getPlacement placement_id)

/-! ### Launch configs -/

/-- `_reject_unknown_artifacts`. -/
def rejectUnknownArtifacts (artifact_ids : List Text) : Service Unit := do
  let existing ← read .artifacts
  match artifact_ids.find? fun artifact_id => !(existing.map (·.val.artifact_id)).contains artifact_id with
  | some missing => conflict (.unknownArtifact missing)
  | none => return ()

def createLaunchConfig (draw : Draw) (request : LaunchConfigCreate) : Service LaunchConfig := do
  let _ ← read (.getProject request.project_id)
  rejectUnknownArtifacts request.required_artifact_ids
  let record ← validated (some {
    launch_config_id := draw.new_id
    project_id := request.project_id
    name := strip request.name
    working_dir := request.working_dir
    program := strip request.program
    args := request.args
    environment := request.environment
    env_vars := request.env_vars
    required_artifact_ids := fromkeys request.required_artifact_ids
    gpu_count := request.gpu_count
    min_vram_b := request.min_vram_b
    created_at := draw.created_at
    updated_at := draw.updated_at : LaunchConfigRecord })
  write (.insertLaunchConfig record)

/-- The patch is never empty: `working_dir` has no default. -/
def updateLaunchConfig (draw : Draw) (launch_config_id : Text) (request : LaunchConfigPatch) :
    Service LaunchConfig := do
  let current ← read (.getLaunchConfig launch_config_id)
  let updated ← validated (current.val.merge request draw.updated_at)
  rejectUnknownArtifacts updated.val.required_artifact_ids
  write (.replaceLaunchConfig updated)

def deleteLaunchConfig (launch_config_id : Text) : Service Unit := write (.removeLaunchConfig launch_config_id)

def launchConfigs : Service (List LaunchConfig) := read .launchConfigs

def launchConfig (launch_config_id : Text) : Service LaunchConfig := read (.getLaunchConfig launch_config_id)

/-! ### Server roots -/

def serverRoots (draw : Draw) (server_id : Text) : Service (Option (Validated ServerRoots)) :=
  if !draw.server_exists server_id then .raise (.notFound "server".toList server_id)
  else read (.serverRoots server_id)

def setServerRoots (draw : Draw) (server_id : Text) (update : ServerRootsUpdate) :
    Service (Validated ServerRoots) := do
  if !draw.server_exists server_id then .raise (.notFound "server".toList server_id)
  else
    let roots ← validated (some update)
    write (.setServerRoots server_id roots)

/-- The path a suggestion starts from: the leaf of the artifact under the root of its kind. -/
def suggestedBase (category : Category) (root : Text) (artifact : Artifact) : Except Conflict Text := do
  let leaf ← safeArtifactLeaf category artifact.val.name artifact.val.version
  normalizeRemotePath (PosixPath.rstripSlash root ++ '/' :: leaf)

/-- `suggest_target_path`: the path, or why there is none. -/
def suggestTargetPath (category : Category) (draw : Draw) (server_id artifact_id : Text) :
    Service (Option Text × Option Text) := do
  let artifact ← read (.getArtifact artifact_id)
  let roots ← serverRoots draw server_id
  match roots.bind fun roots => rootForKind roots.val artifact.val.kind with
  | none | some [] => return (none, some "server_root_not_configured".toList)
  | some root =>
    match suggestedBase category root artifact with
    | .error _ => return (none, some "artifact_name_unusable".toList)
    | .ok base =>
      let placements ← read .placements
      let others := placements.filter fun p => p.val.server_id = server_id ∧ p.val.artifact_id ≠ artifact_id
      match others.mapM fun p => normalizeRemotePath p.val.remote_path with
      | .error c => conflict c
      | .ok taken => return (claimPath base artifact_id taken, none)

/-! ### Calls -/

/-- The methods, with their arguments. -/
inductive Call where
  | createProject (request : ProjectCreate)
  | updateProject (project_id : Text) (request : ProjectPatch)
  | deleteProject (project_id : Text)
  | projects
  | project (project_id : Text)
  | createArtifact (request : ArtifactCreate)
  | updateArtifact (artifact_id : Text) (request : ArtifactPatch)
  | deleteArtifact (artifact_id : Text)
  | artifacts (kind : Option Text)
  | artifact (artifact_id : Text)
  | placementsOf (artifact_id : Text)
  | createPlacement (request : PlacementCreate)
  | updatePlacement (placement_id : Text) (request : PlacementPatch)
  | deletePlacement (placement_id : Text)
  | placements
  | placement (placement_id : Text)
  | createLaunchConfig (request : LaunchConfigCreate)
  | updateLaunchConfig (launch_config_id : Text) (request : LaunchConfigPatch)
  | deleteLaunchConfig (launch_config_id : Text)
  | launchConfigs
  | launchConfig (launch_config_id : Text)
  | serverRoots (server_id : Text)
  | setServerRoots (server_id : Text) (update : ServerRootsUpdate)
  | suggestTargetPath (server_id artifact_id : Text)
  deriving DecidableEq

/-- What the methods return. -/
inductive Reply where
  | done
  | project (p : Project)
  | projects (ps : List Project)
  | artifact (a : Artifact)
  | artifacts (as : List Artifact)
  | placement (p : Placement)
  | placements (ps : List Placement)
  | launchConfig (c : LaunchConfig)
  | launchConfigs (cs : List LaunchConfig)
  | roots (r : Option (Validated ServerRoots))
  | suggestion (path reason : Option Text)
  deriving DecidableEq

/-- Run a method, and hand its value on as a reply. -/
def replying {α : Type} (p : Service α) (reply : α → Reply) : Service Reply := p.bind fun a => .ret (reply a)

/-- The program of a call. -/
def Call.program (category : Category) (draw : Draw) : Call → Service Reply
  | .createProject request => replying (Workspace.createProject draw request) .project
  | .updateProject id request => replying (Workspace.updateProject draw id request) .project
  | .deleteProject id => replying (Workspace.deleteProject id) fun _ => .done
  | .projects => replying Workspace.projects .projects
  | .project id => replying (Workspace.project id) .project
  | .createArtifact request => replying (Workspace.createArtifact draw request) .artifact
  | .updateArtifact id request => replying (Workspace.updateArtifact draw id request) .artifact
  | .deleteArtifact id => replying (Workspace.deleteArtifact id) fun _ => .done
  | .artifacts kind => replying (Workspace.artifacts kind) .artifacts
  | .artifact id => replying (Workspace.artifact id) .artifact
  | .placementsOf id => replying (Workspace.placementsOf id) .placements
  | .createPlacement request => replying (Workspace.createPlacement draw request) .placement
  | .updatePlacement id request => replying (Workspace.updatePlacement draw id request) .placement
  | .deletePlacement id => replying (Workspace.deletePlacement id) fun _ => .done
  | .placements => replying Workspace.placements .placements
  | .placement id => replying (Workspace.placement id) .placement
  | .createLaunchConfig request => replying (Workspace.createLaunchConfig draw request) .launchConfig
  | .updateLaunchConfig id request => replying (Workspace.updateLaunchConfig draw id request) .launchConfig
  | .deleteLaunchConfig id => replying (Workspace.deleteLaunchConfig id) fun _ => .done
  | .launchConfigs => replying Workspace.launchConfigs .launchConfigs
  | .launchConfig id => replying (Workspace.launchConfig id) .launchConfig
  | .serverRoots id => replying (Workspace.serverRoots draw id) .roots
  | .setServerRoots id update => replying (Workspace.setServerRoots draw id update) fun r => .roots (some r)
  | .suggestTargetPath server_id artifact_id =>
    replying (Workspace.suggestTargetPath category draw server_id artifact_id) fun r => .suggestion r.1 r.2

end SshGpuConsole.Workspace
