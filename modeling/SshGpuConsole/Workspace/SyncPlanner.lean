import SshGpuConsole.Lib.Dict
import SshGpuConsole.Workspace.Distribution

/-!
# The sync planner

`SyncPlanner` (`workspace/sync_planner.py`): for each artifact of a project what it takes to have it on a server, as a
program over the workspace, the distribution and what is injected (the executors and `plan_transfer`).
-/

namespace SshGpuConsole.Workspace
open Shell PyText
open Effect (Prog)

inductive SyncAction where
  | skip
  | transfer
  | unresolved
  deriving DecidableEq, Repr

structure ArtifactSyncItem where
  artifact_id : Text
  artifact_label : Text
  artifact_kind : Text
  target_status : DistributionState
  action : SyncAction
  reason : Text
  source_placement_id : Option Text := none
  source_server_id : Option Text := none
  source_path : Option Text := none
  target_path : Option Text := none
  strategy_selected : Option TransferStrategy := none
  alternatives : List Text := []
  warnings : List Text := []
  deriving DecidableEq, Repr

structure SyncPlanRequest where
  target_server_id : Text
  artifact_ids : Option (List Text) := none
  refresh_code : Bool := false
  strategy : TransferStrategy := .auto
  deriving DecidableEq, Repr

structure ProjectSyncPlan where
  project_id : Text
  target_server_id : Text
  generated_at : Text
  refresh_code : Bool
  items : List ArtifactSyncItem
  valid : Bool
  error : Text
  deriving DecidableEq, Repr

/-- What the planner uses of Python besides: `repr` of a text. -/
structure SyncConfig extends Config where
  repr : Text → Text

/-- A `ConflictError` of a helper. -/
def ofConflict {α : Type} : Except Conflict α → Watch α
  | .ok a => .ret a
  | .error c => .raise (.failure (.conflict c))

/-- `isinstance(exc, NotFoundError)`. -/
def Raised.isNotFound : Raised → Bool
  | .failure (.notFound _ _) => true
  | _ => false

/-- `_short`. -/
def shortText (text : Text) : Text := (strip text).take 200

/-- `_add_warning`. -/
def addWarning (warnings : List Text) (message : Text) : List Text :=
  if warnings.length < 20 then warnings ++ [message.take 300] else warnings

/-- `str(exc) or default`. -/
def orDefault (text default : Text) : Text := if text = [] then default else text

/-! ### Decisions -/

/-- `_needs_transfer`. -/
def needsTransfer (kind : ArtifactKind) (present refresh_code : Bool) : Bool :=
  match kind with
  | .code => !present || refresh_code
  | _ => !present

/-- `_motive`. -/
def motive (kind : ArtifactKind) (present refresh_code declared : Bool) : Text :=
  if kind = .code && present && refresh_code then "code refresh requested".toList
  else if !declared then "no placement declared on the target server".toList
  else "target path checked missing".toList

/-- `_item`, without what only some items have. -/
def syncItem (artifact : Artifact) (target_status : DistributionState) (action : SyncAction) (reason : Text)
    (target_path : Option Text) : ArtifactSyncItem :=
  { artifact_id := artifact.val.artifact_id
    artifact_label := artifactLabel artifact
    artifact_kind := artifact.val.kind.value
    target_status, action, reason, target_path }

/-- `f"{placement.server_id}:{placement.remote_path}"`. -/
def placeText (placement : Placement) : Text := placement.val.server_id ++ ':' :: placement.val.remote_path

/-! ### Sources -/

/-- `_PREFLIGHT_COMMAND`. -/
def preflightCommand (path : Text) : Text :=
  "p=".toList ++ quote path ++
    ";if [ -L \"$p\" ]; then echo SYMLINK; elif [ -e \"$p\" ]; then echo OK; else echo MISSING; fi".toList

/-- What a preflight that ran says. -/
def preflightFailure (result : CommandResult) : Option Text :=
  if result.exit_code ≠ some 0 then
    some ("preflight exited with code ".toList ++ (result.exit_code.map ofInt).getD "None".toList)
  else
    let output := strip result.stdout
    if output = "SYMLINK".toList then some "source root is a symlink (unsafe for automatic sync)".toList
    else if output = "MISSING".toList then some "source path is missing".toList
    else if output = "OK".toList then none
    else some "unexpected preflight output".toList

/-- `_preflight_source`. -/
def preflightSource (cfg : SyncConfig) (placement : Placement) : Watch (Option Text) := do
  match ← Prog.catching Raised.isException (ask (.executorFor placement.val.server_id)) with
  | .error e => return some (shortText (orDefault (cfg.str e) "server unavailable".toList))
  | .ok _ =>
    match ← Prog.catching Raised.isException
      (ask (.run placement.val.server_id (preflightCommand placement.val.remote_path))) with
    | .error e => return some (shortText (orDefault (cfg.str e) "source preflight failed".toList))
    | .ok result => return preflightFailure result

/-- The loop over the candidates: those that pass, and the failures of the others. -/
def preflightAll (cfg : SyncConfig) : List Placement → Watch (List Placement × List Text)
  | [] => return ([], [])
  | placement :: candidates => do
    let failure ← preflightSource cfg placement
    let others ← preflightAll cfg candidates
    match failure with
    | none => return (placement :: others.1, others.2)
    | some failure => return (others.1, (placeText placement ++ " (".toList ++ failure ++ ")".toList) :: others.2)

/-- The observations of a distribution, by placement. -/
abbrev Snapshot := Dict Text ArtifactServerDistribution

def isVerified (snapshot : Snapshot) (placement : Placement) : Bool :=
  (Dict.get snapshot placement.val.placement_id).any (·.state = .verified)

/-- The placements on other servers, the verified ones first. -/
def sourceCandidates (target_server_id : Text) (snapshot : Snapshot) (placements : List Placement) : List Placement :=
  let others := placements.filter (·.val.server_id ≠ target_server_id)
  others.filter (isVerified snapshot) ++ others.filter (!isVerified snapshot ·)

/-- `_select_source`: the selected placement, the alternatives and the failures. -/
def selectSource (cfg : SyncConfig) (artifact : Artifact) (target_server_id : Text) (snapshot : Snapshot) :
    Watch (Option Placement × List Placement × List Text) := do
  let placements ← ofService (placementsOf artifact.val.artifact_id)
  let tried ← preflightAll cfg (sourceCandidates target_server_id snapshot placements)
  match tried.1 with
  | [] => return (none, [], tried.2)
  | selected :: alternatives => return (some selected, alternatives, tried.2)

/-! ### Targets -/

/-- `_suggested_target_path`. -/
def suggestedTargetPath (cfg : SyncConfig) (artifact : Artifact) (server_id : Text) : Watch (Option Text) := do
  match ← Prog.catching Raised.isNotFound (ofService (serverRoots ⟨[], [], [], cfg.server_exists⟩ server_id)) with
  | .error _ => return none
  | .ok roots =>
    match roots.bind fun roots => rootForKind roots.val artifact.val.kind with
    | none | some [] => return none
    | some root => some <$> ofConflict (suggestedBase cfg.category root artifact)

/-- `taken`: the paths of the other artifacts' placements on the target, and the suggestions so far. -/
def takenPaths (artifact : Artifact) (target_placements : List Placement) (suggested : Dict Text Text) :
    Except Conflict (List Text) := do
  let others := target_placements.filter (·.val.artifact_id ≠ artifact.val.artifact_id)
  let paths ← others.mapM fun p => normalizeRemotePath p.val.remote_path
  return paths ++ suggested.map Prod.fst

/-- The suggestion for an artifact that is not placed on the target: its path and the registry with it, or why there
is none. -/
def suggestPath (cfg : SyncConfig) (artifact : Artifact) (server_id : Text) (target_placements : List Placement)
    (suggested : Dict Text Text) : Watch (Except Text (Text × Dict Text Text)) := do
  match ← suggestedTargetPath cfg artifact server_id with
  | none => return .error "target root not configured on server".toList
  | some base =>
    let taken ← ofConflict (takenPaths artifact target_placements suggested)
    match claimPath base artifact.val.artifact_id taken with
    | none => return .error "suggested target path is already used by another artifact".toList
    | some path => return .ok (path, Dict.set path artifact.val.artifact_id suggested)

/-- `_inspect_target`. -/
def inspectTarget (cfg : SyncConfig) (placement_id : Text) : Watch DistributionState := do
  match ← Prog.catching Raised.isApp (inspectPlacement cfg.toConfig placement_id) with
  | .error _ => return .unavailable
  | .ok inspection => return inspection.state.distribution

/-- The state of the target placement and its path. -/
def targetState (cfg : SyncConfig) (snapshot : Snapshot) :
    Option Placement → Watch (DistributionState × Option Text)
  | none => return (.missing, none)
  | some target => do
    let observed := ((Dict.get snapshot target.val.placement_id).map (·.state)).getD .declared
    let path ← ofConflict (normalizeRemotePath target.val.remote_path)
    if observed = .declared then
      let status ← inspectTarget cfg target.val.placement_id
      return (status, some path)
    else return (observed, some path)

/-! ### One item -/

/-- The bounds of a `TransferRequest`. -/
def TransferRequest.bounds (r : TransferRequest) : Bool :=
  within 1 64 r.artifact_id && within 1 64 r.source_placement_id && within 1 64 r.target_server_id &&
    within 1 512 r.target_path

/-- `TransferRequest(...)`, and the plan for it. -/
def planTransfer (request : TransferRequest) : Watch TransferPlan :=
  if request.bounds then ask (.planTransfer request) else .raise (.failure .validation)

def planWarnings (plan : TransferPlan) : List Text :=
  let warnings := if plan.reason = [] then [] else addWarning [] plan.reason
  if plan.space_warning = [] then warnings else addWarning warnings plan.space_warning

/-- From the source on: the item for a target path. -/
def transferItem (cfg : SyncConfig) (request : SyncPlanRequest) (snapshot : Snapshot) (artifact : Artifact)
    (target_status : DistributionState) (why target_path : Text) : Watch ArtifactSyncItem := do
  let source ← selectSource cfg artifact request.target_server_id snapshot
  match source.1 with
  | none =>
    let summary := if source.2.2 = [] then "no other server declares this artifact".toList
      else "; ".toList.intercalate source.2.2
    return syncItem artifact target_status .unresolved
      (("no usable source placement: ".toList ++ summary).take 500) (some target_path)
  | some selected =>
    match ← Prog.catching Raised.isException (planTransfer {
      artifact_id := artifact.val.artifact_id
      source_placement_id := selected.val.placement_id
      target_server_id := request.target_server_id
      target_path
      strategy := request.strategy }) with
    | .error e =>
      return syncItem artifact target_status .unresolved
        ("transfer planning failed: ".toList ++ shortText (cfg.str e)) (some target_path)
    | .ok plan =>
      match plan.strategy_selected with
      | none =>
        return { syncItem artifact target_status .unresolved
          (orDefault plan.reason "no transfer strategy available".toList) (some target_path) with
          warnings := planWarnings plan }
      | some strategy =>
        return { syncItem artifact target_status .transfer
          (why ++ "; transfer from ".toList ++ placeText selected) (some target_path) with
          source_placement_id := some selected.val.placement_id
          source_server_id := some selected.val.server_id
          source_path := some selected.val.remote_path
          strategy_selected := some strategy
          alternatives := source.2.1.map placeText
          warnings := planWarnings plan }

/-- The reason of an item that is left as it is. -/
def presentReason (kind : ArtifactKind) : Text :=
  if kind = .code then "target placement is verified; code refresh not requested".toList
  else "target placement is verified".toList

/-- `_plan_item`, with the registry of suggestions it leaves. -/
def planItem (cfg : SyncConfig) (request : SyncPlanRequest) (snapshot : Snapshot) (target_placements : List Placement)
    (artifact : Artifact) (suggested : Dict Text Text) : Watch (ArtifactSyncItem × Dict Text Text) := do
  let placements ← ofService (placementsOf artifact.val.artifact_id)
  let target := placements.find? (·.val.server_id = request.target_server_id)
  let (status, path) ← targetState cfg snapshot target
  if status = .syncing then
    return ({ syncItem artifact status .skip "target placement is currently syncing".toList path with
      warnings := ["decision may change after the active transfer finishes".toList] }, suggested)
  else if status = .unavailable then
    return (syncItem artifact status .unresolved
      "target server unavailable; placement cannot be checked now".toList path, suggested)
  else
    let present := status = .verified || status = .declared
    if !needsTransfer artifact.val.kind present request.refresh_code then
      return (syncItem artifact status .skip (presentReason artifact.val.kind) path, suggested)
    else
      let why := motive artifact.val.kind present request.refresh_code target.isSome
      match path with
      | some target_path =>
        let item ← transferItem cfg request snapshot artifact status why target_path
        return (item, suggested)
      | none =>
        match ← suggestPath cfg artifact request.target_server_id target_placements suggested with
        | .error reason => return (syncItem artifact status .unresolved reason none, suggested)
        | .ok (target_path, suggested) =>
          let item ← transferItem cfg request snapshot artifact status why target_path
          return (item, suggested)

/-- The loop over the artifacts. -/
def planItems (cfg : SyncConfig) (request : SyncPlanRequest) (snapshot : Snapshot) (target_placements : List Placement) :
    List Text → Dict Text Text → Watch (List ArtifactSyncItem)
  | [], _ => return []
  | artifact_id :: artifact_ids, suggested => do
    let found ← ofService (artifact artifact_id)
    let (item, suggested) ← planItem cfg request snapshot target_placements found suggested
    let others ← planItems cfg request snapshot target_placements artifact_ids suggested
    return item :: others

/-! ### The plan -/

/-- The conflicts of one item with those behind it. -/
def conflictsWith (first : ArtifactSyncItem) (path_a : Text) : List ArtifactSyncItem → Except Conflict (List Text)
  | [] => .ok []
  | second :: items =>
    match second.target_path with
    | none => conflictsWith first path_a items
    | some path_b => do
      let overlap ← pathsOverlap path_a path_b
      let others ← conflictsWith first path_a items
      if overlap then
        return (first.artifact_label ++ " (".toList ++ path_a ++ ") vs ".toList ++ second.artifact_label ++
          " (".toList ++ path_b ++ ")".toList) :: others
      else return others

def conflictsAmong : List ArtifactSyncItem → Except Conflict (List Text)
  | [] => .ok []
  | first :: items =>
    match first.target_path with
    | none => conflictsAmong items
    | some path_a => do
      let conflicts ← conflictsWith first path_a items
      let others ← conflictsAmong items
      return conflicts ++ others

/-- `_overlap_error`. -/
def overlapError (items : List ArtifactSyncItem) : Except Conflict (Bool × Text) := do
  let conflicts ← conflictsAmong (items.filter (·.action = .transfer))
  if conflicts = [] then return (true, [])
  else return (false, ("target path overlap: ".toList ++ "; ".toList.intercalate conflicts).take 600)

/-- The artifacts of the plan. -/
def planIds (cfg : SyncConfig) (project : Project) (request : SyncPlanRequest) : Except Raised (List Text) :=
  match request.artifact_ids with
  | none => .ok (fromkeys project.val.artifact_ids)
  | some ids =>
    match (fromkeys ids).find? fun id => !project.val.artifact_ids.contains id with
    | none => .ok (fromkeys ids)
    | some foreign =>
      .error (.app ("artifact ".toList ++ cfg.repr foreign ++ " is not part of project ".toList ++
        cfg.repr project.val.project_id))

/-- `{item.placement_id: item for item in items}`. -/
def snapshotOf (items : List ArtifactServerDistribution) : Snapshot :=
  Dict.ofItems (items.map fun item => (item.placement_id, item))

/-- `build_plan`. -/
def buildPlan (cfg : SyncConfig) (project_id : Text) (request : SyncPlanRequest) : Watch ProjectSyncPlan := do
  let found ← ofService (project project_id)
  let artifact_ids ← Prog.answer (planIds cfg found request)
  let snapshot ← distribution project_id
  let all ← ofService placements
  let target_placements := all.filter (·.val.server_id = request.target_server_id)
  let items ← planItems cfg request (snapshotOf snapshot.items) target_placements artifact_ids []
  let (valid, error) ← ofConflict (overlapError items)
  let generated_at ← ask .now
  return { project_id, target_server_id := request.target_server_id, generated_at,
           refresh_code := request.refresh_code, items, valid, error }

end SshGpuConsole.Workspace
