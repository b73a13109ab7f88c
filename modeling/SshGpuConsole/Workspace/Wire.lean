import SshGpuConsole.Lib.Fields
import SshGpuConsole.Persistence.JsonStore
import SshGpuConsole.Workspace.Repository

/-!
# The workspace document

How `WorkspaceRepository._save_locked` writes the records and `_load` reads them (`workspace/repository.py`):
`model_dump` of every record, and `model_validate` of every item, where an item that is refused is skipped. What
pydantic makes of a number or a boolean that is written as something else is a parameter (`Lax`).
-/

namespace SshGpuConsole.Workspace
open Shell (Text)
open Json (Value Members asStr asInt asBool asNullable asList asDict needed defaulted)

/-- Pydantic's conversions of values of another type. -/
structure Lax where
  int : Value → Option Int
  bool : Value → Option Bool

/-! ### Records -/

def ProjectRecord.dump (r : ProjectRecord) : Members :=
  [("project_id".toList, .str r.project_id), ("name".toList, .str r.name), ("description".toList, .str r.description),
    ("artifact_ids".toList, Json.texts r.artifact_ids), ("launch_config_ids".toList, Json.texts r.launch_config_ids),
    ("tags".toList, Json.texts r.tags), ("transfer_excludes".toList, Json.texts r.transfer_excludes),
    ("created_at".toList, .str r.created_at), ("updated_at".toList, .str r.updated_at)]

def ProjectRecord.names : List Text :=
  ["project_id".toList, "name".toList, "description".toList, "artifact_ids".toList, "launch_config_ids".toList,
    "tags".toList, "transfer_excludes".toList, "created_at".toList, "updated_at".toList]

def ProjectRecord.fields (kvs : Members) : Option ProjectRecord := do
  let project_id ← needed kvs "project_id".toList asStr
  let name ← needed kvs "name".toList asStr
  let description ← defaulted kvs "description".toList [] asStr
  let artifact_ids ← defaulted kvs "artifact_ids".toList [] (asList asStr)
  let launch_config_ids ← defaulted kvs "launch_config_ids".toList [] (asList asStr)
  let tags ← defaulted kvs "tags".toList [] (asList asStr)
  let transfer_excludes ← defaulted kvs "transfer_excludes".toList [] (asList asStr)
  let created_at ← defaulted kvs "created_at".toList [] asStr
  let updated_at ← defaulted kvs "updated_at".toList [] asStr
  return { project_id, name, description, artifact_ids, launch_config_ids, tags, transfer_excludes, created_at,
           updated_at }

def ArtifactKind.decode (v : Value) : Option ArtifactKind :=
  (asStr v).bind fun t => [ArtifactKind.code, .dataset, .model].find? (·.value = t)

def ArtifactRecord.dump (r : ArtifactRecord) : Members :=
  [("artifact_id".toList, .str r.artifact_id), ("kind".toList, .str r.kind.value), ("name".toList, .str r.name),
    ("version".toList, Json.nullable .str r.version), ("description".toList, .str r.description),
    ("immutable".toList, .bool r.immutable), ("created_at".toList, .str r.created_at),
    ("updated_at".toList, .str r.updated_at)]

def ArtifactRecord.names : List Text :=
  ["artifact_id".toList, "kind".toList, "name".toList, "version".toList, "description".toList, "immutable".toList,
    "created_at".toList, "updated_at".toList]

def ArtifactRecord.fields (lax : Lax) (kvs : Members) : Option ArtifactRecord := do
  let artifact_id ← needed kvs "artifact_id".toList asStr
  let kind ← needed kvs "kind".toList ArtifactKind.decode
  let name ← needed kvs "name".toList asStr
  let version ← defaulted kvs "version".toList none (asNullable asStr)
  let description ← defaulted kvs "description".toList [] asStr
  let immutable ← defaulted kvs "immutable".toList true (asBool lax.bool)
  let created_at ← defaulted kvs "created_at".toList [] asStr
  let updated_at ← defaulted kvs "updated_at".toList [] asStr
  return { artifact_id, kind, name, version, description, immutable, created_at, updated_at }

def PlacementRecord.dump (r : PlacementRecord) : Members :=
  [("placement_id".toList, .str r.placement_id), ("artifact_id".toList, .str r.artifact_id),
    ("server_id".toList, .str r.server_id), ("remote_path".toList, .str r.remote_path),
    ("created_at".toList, .str r.created_at), ("updated_at".toList, .str r.updated_at)]

def PlacementRecord.names : List Text :=
  ["placement_id".toList, "artifact_id".toList, "server_id".toList, "remote_path".toList, "created_at".toList,
    "updated_at".toList]

def PlacementRecord.fields (kvs : Members) : Option PlacementRecord := do
  let placement_id ← needed kvs "placement_id".toList asStr
  let artifact_id ← needed kvs "artifact_id".toList asStr
  let server_id ← needed kvs "server_id".toList asStr
  let remote_path ← needed kvs "remote_path".toList asStr
  let created_at ← defaulted kvs "created_at".toList [] asStr
  let updated_at ← defaulted kvs "updated_at".toList [] asStr
  return { placement_id, artifact_id, server_id, remote_path, created_at, updated_at }

def LaunchConfigRecord.dump (r : LaunchConfigRecord) : Members :=
  [("launch_config_id".toList, .str r.launch_config_id), ("project_id".toList, .str r.project_id),
    ("name".toList, .str r.name), ("working_dir".toList, Json.nullable .str r.working_dir),
    ("program".toList, .str r.program), ("args".toList, Json.texts r.args),
    ("environment".toList, Json.nullable .str r.environment), ("env_vars".toList, Json.dict r.env_vars),
    ("required_artifact_ids".toList, Json.texts r.required_artifact_ids),
    ("gpu_count".toList, Json.nullable .int r.gpu_count), ("min_vram_b".toList, Json.nullable .int r.min_vram_b),
    ("created_at".toList, .str r.created_at), ("updated_at".toList, .str r.updated_at)]

def LaunchConfigRecord.names : List Text :=
  ["launch_config_id".toList, "project_id".toList, "name".toList, "working_dir".toList, "program".toList,
    "args".toList, "environment".toList, "env_vars".toList, "required_artifact_ids".toList, "gpu_count".toList,
    "min_vram_b".toList, "created_at".toList, "updated_at".toList]

def LaunchConfigRecord.fields (lax : Lax) (kvs : Members) : Option LaunchConfigRecord := do
  let launch_config_id ← needed kvs "launch_config_id".toList asStr
  let project_id ← needed kvs "project_id".toList asStr
  let name ← needed kvs "name".toList asStr
  let working_dir ← defaulted kvs "working_dir".toList none (asNullable asStr)
  let program ← needed kvs "program".toList asStr
  let args ← defaulted kvs "args".toList [] (asList asStr)
  let environment ← defaulted kvs "environment".toList none (asNullable asStr)
  let env_vars ← defaulted kvs "env_vars".toList [] (asDict asStr)
  let required_artifact_ids ← defaulted kvs "required_artifact_ids".toList [] (asList asStr)
  let gpu_count ← defaulted kvs "gpu_count".toList none (asNullable (asInt lax.int))
  let min_vram_b ← defaulted kvs "min_vram_b".toList none (asNullable (asInt lax.int))
  let created_at ← defaulted kvs "created_at".toList [] asStr
  let updated_at ← defaulted kvs "updated_at".toList [] asStr
  return { launch_config_id, project_id, name, working_dir, program, args, environment, env_vars,
           required_artifact_ids, gpu_count, min_vram_b, created_at, updated_at }

def ServerRoots.dump (r : ServerRoots) : Members :=
  [("project_root".toList, Json.nullable .str r.project_root), ("dataset_root".toList, Json.nullable .str r.dataset_root),
    ("model_root".toList, Json.nullable .str r.model_root), ("output_root".toList, Json.nullable .str r.output_root)]

def ServerRoots.names : List Text :=
  ["project_root".toList, "dataset_root".toList, "model_root".toList, "output_root".toList]

def ServerRoots.fields (kvs : Members) : Option ServerRoots := do
  let project_root ← defaulted kvs "project_root".toList none (asNullable asStr)
  let dataset_root ← defaulted kvs "dataset_root".toList none (asNullable asStr)
  let model_root ← defaulted kvs "model_root".toList none (asNullable asStr)
  let output_root ← defaulted kvs "output_root".toList none (asNullable asStr)
  return { project_root, dataset_root, model_root, output_root }

/-! ### What is written is read again -/

open Json (needed_of defaulted_of asList_texts asDict_dict asNullable_str asNullable_int)

lemma ProjectRecord.fields_dump (r : ProjectRecord) : ProjectRecord.fields r.dump = some r := by
  have hid : needed r.dump "project_id".toList asStr = some r.project_id := rfl
  have hname : needed r.dump "name".toList asStr = some r.name := rfl
  have hdescription : defaulted r.dump "description".toList [] asStr = some r.description := rfl
  have hartifacts : defaulted r.dump "artifact_ids".toList [] (asList asStr) = some r.artifact_ids :=
    defaulted_of rfl (asList_texts _)
  have hconfigs : defaulted r.dump "launch_config_ids".toList [] (asList asStr) = some r.launch_config_ids :=
    defaulted_of rfl (asList_texts _)
  have htags : defaulted r.dump "tags".toList [] (asList asStr) = some r.tags := defaulted_of rfl (asList_texts _)
  have hexcludes : defaulted r.dump "transfer_excludes".toList [] (asList asStr) = some r.transfer_excludes :=
    defaulted_of rfl (asList_texts _)
  have hcreated : defaulted r.dump "created_at".toList [] asStr = some r.created_at := rfl
  have hupdated : defaulted r.dump "updated_at".toList [] asStr = some r.updated_at := rfl
  rw [ProjectRecord.fields, hid, hname, hdescription, hartifacts, hconfigs, htags, hexcludes, hcreated, hupdated]
  rfl

lemma ArtifactKind.decode_value (k : ArtifactKind) : ArtifactKind.decode (.str k.value) = some k := by
  cases k with
  | code => rfl
  | dataset => rfl
  | model => rfl

lemma ArtifactRecord.fields_dump (lax : Lax) (r : ArtifactRecord) : ArtifactRecord.fields lax r.dump = some r := by
  have hid : needed r.dump "artifact_id".toList asStr = some r.artifact_id := rfl
  have hkind : needed r.dump "kind".toList ArtifactKind.decode = some r.kind :=
    needed_of rfl (ArtifactKind.decode_value _)
  have hname : needed r.dump "name".toList asStr = some r.name := rfl
  have hversion : defaulted r.dump "version".toList none (asNullable asStr) = some r.version :=
    defaulted_of rfl (asNullable_str _)
  have hdescription : defaulted r.dump "description".toList [] asStr = some r.description := rfl
  have himmutable : defaulted r.dump "immutable".toList true (asBool lax.bool) = some r.immutable := rfl
  have hcreated : defaulted r.dump "created_at".toList [] asStr = some r.created_at := rfl
  have hupdated : defaulted r.dump "updated_at".toList [] asStr = some r.updated_at := rfl
  rw [ArtifactRecord.fields, hid, hkind, hname, hversion, hdescription, himmutable, hcreated, hupdated]
  rfl

lemma PlacementRecord.fields_dump (r : PlacementRecord) : PlacementRecord.fields r.dump = some r := rfl

lemma LaunchConfigRecord.fields_dump (lax : Lax) (r : LaunchConfigRecord) :
    LaunchConfigRecord.fields lax r.dump = some r := by
  have hid : needed r.dump "launch_config_id".toList asStr = some r.launch_config_id := rfl
  have hproject : needed r.dump "project_id".toList asStr = some r.project_id := rfl
  have hname : needed r.dump "name".toList asStr = some r.name := rfl
  have hdir : defaulted r.dump "working_dir".toList none (asNullable asStr) = some r.working_dir :=
    defaulted_of rfl (asNullable_str _)
  have hprogram : needed r.dump "program".toList asStr = some r.program := rfl
  have hargs : defaulted r.dump "args".toList [] (asList asStr) = some r.args := defaulted_of rfl (asList_texts _)
  have henvironment : defaulted r.dump "environment".toList none (asNullable asStr) = some r.environment :=
    defaulted_of rfl (asNullable_str _)
  have hvars : defaulted r.dump "env_vars".toList [] (asDict asStr) = some r.env_vars :=
    defaulted_of rfl (asDict_dict _)
  have hrequired : defaulted r.dump "required_artifact_ids".toList [] (asList asStr) = some r.required_artifact_ids :=
    defaulted_of rfl (asList_texts _)
  have hgpus : defaulted r.dump "gpu_count".toList none (asNullable (asInt lax.int)) = some r.gpu_count :=
    defaulted_of rfl (asNullable_int _ _)
  have hvram : defaulted r.dump "min_vram_b".toList none (asNullable (asInt lax.int)) = some r.min_vram_b :=
    defaulted_of rfl (asNullable_int _ _)
  have hcreated : defaulted r.dump "created_at".toList [] asStr = some r.created_at := rfl
  have hupdated : defaulted r.dump "updated_at".toList [] asStr = some r.updated_at := rfl
  rw [LaunchConfigRecord.fields, hid, hproject, hname, hdir, hprogram, hargs, henvironment, hvars, hrequired, hgpus,
    hvram, hcreated, hupdated]
  rfl

lemma ServerRoots.fields_dump (r : ServerRoots) : ServerRoots.fields r.dump = some r := by
  have hproject : defaulted r.dump "project_root".toList none (asNullable asStr) = some r.project_root :=
    defaulted_of rfl (asNullable_str _)
  have hdataset : defaulted r.dump "dataset_root".toList none (asNullable asStr) = some r.dataset_root :=
    defaulted_of rfl (asNullable_str _)
  have hmodel : defaulted r.dump "model_root".toList none (asNullable asStr) = some r.model_root :=
    defaulted_of rfl (asNullable_str _)
  have houtput : defaulted r.dump "output_root".toList none (asNullable asStr) = some r.output_root :=
    defaulted_of rfl (asNullable_str _)
  rw [ServerRoots.fields, hproject, hdataset, hmodel, houtput]
  rfl

/-! ### The document -/

/-- `model_validate` of an item: the fields, no others, and the checks. -/
def readModel {α : Type} [Model α] (names : List Text) (fields : Members → Option α) (kvs : Members) :
    Option (Validated α) :=
  if Json.onlyNamed kvs names then (fields kvs).bind Validated.build else none

/-- The items of a list that are read. -/
def rowsOf {ρ : Type} (read : Members → Option ρ) (items : List Value) : List ρ :=
  items.filterMap fun item =>
    match item with
    | .obj kvs => read kvs
    | _ => none

/-- `raw.get(key, [])`, iterated: a dict and a text give texts, which no item is; a value of another kind raises. -/
def itemsOf (raw : Members) (key : Text) : Option (List Value) :=
  match Json.member raw key with
  | none => some []
  | some (.arr items) => some items
  | some (.obj _) | some (.str _) => some []
  | some _ => none

/-- `raw.get("server_roots", {}).items()`. -/
def rootItems (raw : Members) : Option Members :=
  match Json.member raw "server_roots".toList with
  | none => some []
  | some (.obj kvs) => some kvs
  | some _ => none

/-- One entry of the server roots: none under the empty id. -/
def readRoots (kv : Text × Value) : Option (Text × Validated ServerRoots) :=
  match kv with
  | ([], _) => none
  | (server_id, .obj kvs) => (readModel ServerRoots.names ServerRoots.fields kvs).map fun roots => (server_id, roots)
  | _ => none

/-- `_load`. -/
def Repo.load (lax : Lax) : Persistence.File → Option Repo
  | .document (.obj raw) => do
    let projects ← itemsOf raw "projects".toList
    let artifacts ← itemsOf raw "artifacts".toList
    let placements ← itemsOf raw "placements".toList
    let launch_configs ← itemsOf raw "launch_configs".toList
    let roots ← rootItems raw
    return {
      projects := .ofRows (rowsOf (readModel ProjectRecord.names ProjectRecord.fields) projects)
      artifacts := .ofRows (rowsOf (readModel ArtifactRecord.names (ArtifactRecord.fields lax)) artifacts)
      placements := .ofRows (rowsOf (readModel PlacementRecord.names PlacementRecord.fields) placements)
      launch_configs :=
        .ofRows (rowsOf (readModel LaunchConfigRecord.names (LaunchConfigRecord.fields lax)) launch_configs)
      server_roots := .ofRows (roots.filterMap readRoots) }
  | _ => some .empty

/-- The payload of `_save_locked`. -/
def Repo.dump (s : Repo) : Value :=
  .obj [("schema_version".toList, .int 1),
    ("projects".toList, .arr (s.projects.rows.map fun p => .obj p.val.dump)),
    ("artifacts".toList, .arr (s.artifacts.rows.map fun a => .obj a.val.dump)),
    ("placements".toList, .arr (s.placements.rows.map fun p => .obj p.val.dump)),
    ("launch_configs".toList, .arr (s.launch_configs.rows.map fun c => .obj c.val.dump)),
    ("server_roots".toList, .obj (s.server_roots.rows.map fun r => (r.1, .obj r.2.val.dump)))]

/-- `WorkspaceRepository` as a store: every mutation that is let through is saved. -/
def workspaceStore (lax : Lax) : Persistence.Store Repo Mutation Failure where
  change m s := (s.mutate m).map some
  dump := Repo.dump
  load := Repo.load lax

/-- No roots are kept under the empty id. -/
def Repo.Sound (s : Repo) : Prop := ∀ r ∈ s.server_roots.rows, r.1 ≠ []

/-- The mutation is not the setting of roots under the empty id, which names no server. -/
def Mutation.Storable : Mutation → Prop
  | .setServerRoots id _ => id ≠ []
  | _ => True

lemma readModel_dump {α : Type} [Model α] {names : List Text} {fields : Members → Option α} {kvs : Members}
    (v : Validated α) (hn : Json.onlyNamed kvs names = true) (hf : fields kvs = some v.val) :
    readModel names fields kvs = some v := by
  rw [readModel, if_pos hn, hf]
  exact Validated.build_self v

lemma rowsOf_dump {ρ : Type} {read : Members → Option ρ} {write : ρ → Members} (h : ∀ r, read (write r) = some r)
    (rows : List ρ) : rowsOf read (rows.map fun r => .obj (write r)) = rows := by
  rw [rowsOf, List.filterMap_map]
  exact (congrArg (List.filterMap · rows) (funext h)).trans List.filterMap_some

lemma readRoots_dump {r : Text × Validated ServerRoots} (h : r.1 ≠ []) :
    readRoots (r.1, .obj r.2.val.dump) = some r := by
  obtain ⟨id, roots⟩ := r
  cases id with
  | nil => exact absurd rfl h
  | cons c id =>
    have hread : readModel ServerRoots.names ServerRoots.fields roots.val.dump = some roots :=
      readModel_dump roots rfl (ServerRoots.fields_dump roots.val)
    show (readModel ServerRoots.names ServerRoots.fields roots.val.dump).map (fun roots => (c :: id, roots)) = _
    rw [hread]
    rfl

lemma rootItems_dump {rows : List (Text × Validated ServerRoots)} (h : ∀ r ∈ rows, r.1 ≠ []) :
    (rows.map fun r => (r.1, Value.obj r.2.val.dump)).filterMap readRoots = rows := by
  induction rows with
  | nil => rfl
  | cons r rows ih =>
    rw [List.map_cons, List.filterMap_cons_some (readRoots_dump (h r List.mem_cons_self)),
      ih fun r hr => h r (List.mem_cons_of_mem _ hr)]

/-- What is saved is loaded again, in its order. -/
lemma Repo.load_dump (lax : Lax) {s : Repo} (h : s.Sound) : Repo.load lax (.document s.dump) = some s := by
  have hprojects : rowsOf (readModel ProjectRecord.names ProjectRecord.fields)
      (s.projects.rows.map fun p => .obj p.val.dump) = s.projects.rows :=
    rowsOf_dump (fun p : Project => readModel_dump p rfl (ProjectRecord.fields_dump p.val)) _
  have hartifacts : rowsOf (readModel ArtifactRecord.names (ArtifactRecord.fields lax))
      (s.artifacts.rows.map fun a => .obj a.val.dump) = s.artifacts.rows :=
    rowsOf_dump (fun a : Artifact => readModel_dump a rfl (ArtifactRecord.fields_dump lax a.val)) _
  have hplacements : rowsOf (readModel PlacementRecord.names PlacementRecord.fields)
      (s.placements.rows.map fun p => .obj p.val.dump) = s.placements.rows :=
    rowsOf_dump (fun p : Placement => readModel_dump p rfl (PlacementRecord.fields_dump p.val)) _
  have hconfigs : rowsOf (readModel LaunchConfigRecord.names (LaunchConfigRecord.fields lax))
      (s.launch_configs.rows.map fun c => .obj c.val.dump) = s.launch_configs.rows :=
    rowsOf_dump (fun c : LaunchConfig => readModel_dump c rfl (LaunchConfigRecord.fields_dump lax c.val)) _
  have hload : Repo.load lax (.document s.dump) = some {
      projects := .ofRows (rowsOf (readModel ProjectRecord.names ProjectRecord.fields)
        (s.projects.rows.map fun p => .obj p.val.dump))
      artifacts := .ofRows (rowsOf (readModel ArtifactRecord.names (ArtifactRecord.fields lax))
        (s.artifacts.rows.map fun a => .obj a.val.dump))
      placements := .ofRows (rowsOf (readModel PlacementRecord.names PlacementRecord.fields)
        (s.placements.rows.map fun p => .obj p.val.dump))
      launch_configs := .ofRows (rowsOf (readModel LaunchConfigRecord.names (LaunchConfigRecord.fields lax))
        (s.launch_configs.rows.map fun c => .obj c.val.dump))
      server_roots := .ofRows
        ((s.server_roots.rows.map fun r => (r.1, Value.obj r.2.val.dump)).filterMap readRoots) } := rfl
  rw [hload, hprojects, hartifacts, hplacements, hconfigs, rootItems_dump h, Table.ofRows_rows, Table.ofRows_rows,
    Table.ofRows_rows, Table.ofRows_rows, Table.ofRows_rows]

lemma readRoots_sound {kv : Text × Value} {r : Text × Validated ServerRoots} (h : readRoots kv = some r) : r.1 ≠ [] := by
  unfold readRoots at h
  split at h
  · cases h
  · rename_i server_id kvs hne
    obtain ⟨roots, -, rfl⟩ := Option.map_eq_some_iff.1 h
    exact fun he => hne he
  · cases h

lemma Repo.sound_load (lax : Lax) {f : Persistence.File} {s : Repo} (h : Repo.load lax f = some s) : s.Sound := by
  unfold Repo.load at h
  split at h
  · simp only [Option.bind_eq_bind, Option.bind_eq_some_iff, Option.pure_def, Option.some.injEq] at h
    obtain ⟨-, -, -, -, -, -, -, -, roots, -, rfl⟩ := h
    intro r hr
    obtain ⟨kv, -, hkv⟩ := List.mem_filterMap.1 (Table.mem_ofRows hr)
    exact readRoots_sound hkv
  · cases h
    exact fun r hr => absurd hr List.not_mem_nil

/-- Only the setting of roots touches them. -/
lemma mutate_roots {s s' : Repo} {m : Mutation} (h : s.mutate m = .ok s') :
    s'.server_roots = s.server_roots ∨ ∃ id roots, m = .setServerRoots id roots ∧
      s'.server_roots = s.server_roots.set (id, roots) := by
  cases m with
  | insertProject r =>
    obtain ⟨-, rfl⟩ := insertProject_ok h
    exact .inl rfl
  | replaceProject r =>
    obtain ⟨-, rfl⟩ := replaceProject_ok h
    exact .inl rfl
  | removeProject id =>
    simp only [Repo.mutate, Repo.removeProject] at h
    split_ifs at h
    cases h
    exact .inl rfl
  | insertArtifact r =>
    simp only [Repo.mutate, Repo.insertArtifact] at h
    split_ifs at h
    cases h
    exact .inl rfl
  | removeArtifact id =>
    obtain ⟨-, -, -, rfl⟩ := removeArtifact_ok h
    exact .inl rfl
  | insertPlacement r =>
    simp only [Repo.mutate, Repo.insertPlacement] at h
    split_ifs at h
    cases h
    exact .inl rfl
  | removePlacement id =>
    simp only [Repo.mutate, Repo.removePlacement] at h
    split_ifs at h
    cases h
    exact .inl rfl
  | removeLaunchConfig id =>
    simp only [Repo.mutate, Repo.removeLaunchConfig] at h
    split_ifs at h
    cases h
    exact .inl rfl
  | setServerRoots id roots =>
    cases h
    exact .inr ⟨id, roots, rfl, rfl⟩
  | replaceArtifact r | replacePlacement r | insertLaunchConfig r | replaceLaunchConfig r =>
    cases h
    exact .inl rfl

lemma changed {lax : Lax} {s s' : Repo} {m : Mutation} (h : (workspaceStore lax).change m s = .ok (some s')) :
    s.mutate m = .ok s' := by
  have hmap : (s.mutate m).map some = .ok (some s') := h
  cases ho : s.mutate m with
  | error e =>
    rw [ho] at hmap
    cases hmap
  | ok t =>
    rw [ho] at hmap
    cases hmap
    rfl

/-- The roots of the empty id are there once they are set. -/
lemma not_sound_set {s s' : Repo} {roots : Validated ServerRoots} (h : s.mutate (.setServerRoots [] roots) = .ok s') :
    ¬s'.Sound := by
  cases h
  intro hs
  obtain ⟨r, hr, he⟩ := Table.mem_of_has (Table.has_set.2 (.inl rfl) : (s.server_roots.set ([], roots)).Has [])
  exact hs r hr he

theorem workspaceStore_lawful (lax : Lax) : (workspaceStore lax).Lawful Repo.Sound Mutation.Storable where
  sound_load := Repo.sound_load lax
  sound_change := by
    intro m s s' hs hm h
    rcases mutate_roots (changed h) with he | ⟨id, roots, rfl, he⟩
    · exact fun r hr => hs r (he ▸ hr)
    · intro r hr
      rcases Table.mem_set (he ▸ hr) with rfl | hr
      · exact hm
      · exact hs r hr
  load_dump := Repo.load_dump lax
  unstorable := by
    intro m s s' hs hm h
    have hbad : ¬s'.Sound := by
      cases m with
      | setServerRoots id roots =>
        obtain rfl : id = [] := not_not.1 hm
        exact not_sound_set (changed h)
      | _ => exact absurd trivial hm
    have hload : ¬Repo.load lax (.document s'.dump) = some s' := fun hl => hbad (Repo.sound_load lax hl)
    exact ⟨hload, fun he => hbad (he ▸ hs)⟩

end SshGpuConsole.Workspace
