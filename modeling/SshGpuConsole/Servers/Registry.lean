import SshGpuConsole.Workspace.Wire

/-!
# The server registry

`ServerRegistry` (`servers/registry.py`) over its JSON file: what `create`, `update` and `delete` make of the
records, and how the records are written and loaded. The floats of Python are a type with their `repr`.
-/

namespace SshGpuConsole.Registry
open Shell (Text)
open PyText
open Json (Value Members asStr asInt asBool asNullable asList needed defaulted)
open Workspace (Lax within optional passing passing_stable readModel rowsOf rowsOf_dump readModel_dump required)

/-- Python's floats: a float is what `float` makes of its `repr`. -/
class PyFloat (φ : Type) where
  repr : φ → Text
  /-- `float` of a numeral. -/
  parse : Text → Option φ
  parse_repr : ∀ x, parse (repr x) = some x
  /-- `ge=0.5, le=600.0` -/
  isInterval : φ → Bool

structure ServerRecord (φ : Type) where
  server_id : Text
  display_name : Text
  ssh_host : Text
  username : Option Text := none
  port : Option Int := none
  tags : List Text := []
  enabled : Bool := true
  sample_interval_s : Option φ := none
  deriving DecidableEq

structure ServerCreate (φ : Type) where
  display_name : Text
  ssh_host : Text
  username : Option Text := none
  port : Option Int := none
  tags : List Text := []
  enabled : Bool := true
  sample_interval_s : Option φ := none
  deriving DecidableEq

structure ServerPatch (φ : Type) where
  display_name : Option (Option Text) := none
  ssh_host : Option (Option Text) := none
  username : Option (Option Text) := none
  port : Option (Option Int) := none
  tags : Option (Option (List Text)) := none
  enabled : Option (Option Bool) := none
  sample_interval_s : Option (Option φ) := none
  deriving DecidableEq

section Registry
variable {φ : Type} [PyFloat φ]

/-- The field bounds of `ServerRecord`. -/
def ServerRecord.bounds (r : ServerRecord φ) : Bool :=
  within 1 64 r.server_id && within 1 120 r.display_name && within 1 255 r.ssh_host &&
    optional (within 0 64) r.username && optional (fun n => 1 ≤ n && n ≤ 65535) r.port &&
    optional PyFloat.isInterval r.sample_interval_s

instance : Model (ServerRecord φ) := ⟨passing ServerRecord.bounds, passing_stable _⟩

abbrev Server (φ : Type) [PyFloat φ] := Validated (ServerRecord φ)

/-- What a registry operation raises. -/
inductive Refusal where
  /-- pydantic's `ValidationError` -/
  | validation
  /-- "invalid SSH host or alias" -/
  | invalidHost
  /-- "invalid username" -/
  | invalidUsername
  /-- "server {server_id!r} not found" -/
  | notFound (server_id : Text)
  /-- "server limit of 256 reached" -/
  | limit
  /-- "a server with the same host, username and port already exists" -/
  | duplicate
  deriving DecidableEq, Repr

/-- `_FORBIDDEN_HOST_CHARS`. -/
def forbiddenHostChars : List Char :=
  [' ', ';', '&', '|', '<', '>', '\x60', '$', '\\', '"', '\'', '(', ')', '/', '\t', '\n', '\r', '*', '?', '!']

/-- `_validate_host`. -/
def validHost (value : Text) : Bool :=
  let candidate := strip value
  candidate ≠ [] && candidate.length ≤ 255 && candidate.head? ≠ some '-' &&
    !candidate.any fun c => forbiddenHostChars.contains c

/-- A character of `_USERNAME_RE`. -/
def isUsernameChar (c : Char) : Bool := c.isAlphanum || c = '.' || c = '_' || c = '-'

/-- `_validate_username`. -/
def validUsername (value : Text) : Bool :=
  let candidate := strip value
  candidate ≠ [] && candidate.length ≤ 64 && candidate.all isUsernameChar

/-- `_validated_record`. -/
def validatedRecord (record : Server φ) : Except Refusal (Server φ) :=
  if !validHost record.val.ssh_host then .error .invalidHost
  else if !optional validUsername record.val.username then .error .invalidUsername
  else .ok record

abbrev Servers (φ : Type) [PyFloat φ] := Table fun s : Server φ => s.val.server_id

/-- `_MAX_SERVERS`. -/
def maxServers : ℕ := 256

variable (casefold : Text → Text)

/-- `_key`. -/
def Server.key (s : Server φ) : Text × Option Text × Option Int :=
  (casefold s.val.ssh_host, s.val.username, s.val.port)

/-- `_duplicate`. -/
def isDuplicate (servers : Servers φ) (candidate : Server φ) (exclude : Option Text) : Bool :=
  servers.rows.any fun item => some item.val.server_id ≠ exclude && Server.key casefold item = Server.key casefold candidate

/-- A record of the given fields, or pydantic's exception. -/
def built (fields : Option (ServerRecord φ)) : Except Refusal (Server φ) :=
  match fields.bind Validated.build with
  | some record => .ok record
  | none => .error .validation

/-- The fields `create` gives a record. -/
def ServerCreate.record (request : ServerCreate φ) (server_id : Text) : ServerRecord φ where
  server_id := server_id
  display_name := request.display_name
  ssh_host := request.ssh_host
  username := request.username
  port := request.port
  tags := request.tags
  enabled := request.enabled
  sample_interval_s := request.sample_interval_s

/-- The fields `update` validates: the record with the patch over it, under its own id. -/
def ServerRecord.merge (r : ServerRecord φ) (p : ServerPatch φ) : Option (ServerRecord φ) := do
  let display_name ← required p.display_name r.display_name
  let ssh_host ← required p.ssh_host r.ssh_host
  let tags ← required p.tags r.tags
  let enabled ← required p.enabled r.enabled
  return { server_id := r.server_id, display_name, ssh_host,
           username := Workspace.nullable p.username r.username, port := Workspace.nullable p.port r.port, tags, enabled,
           sample_interval_s := Workspace.nullable p.sample_interval_s r.sample_interval_s }

def create (servers : Servers φ) (new_id : Text) (request : ServerCreate φ) : Except Refusal (Servers φ) := do
  let record ← built (some (request.record new_id))
  let record ← validatedRecord record
  if maxServers ≤ servers.rows.length then .error .limit
  else if isDuplicate casefold servers record none then .error .duplicate
  else .ok (servers.set record)

def update (servers : Servers φ) (server_id : Text) (request : ServerPatch φ) : Except Refusal (Servers φ) :=
  match servers.get server_id with
  | none => .error (.notFound server_id)
  | some current => do
    let candidate ← built (current.val.merge request)
    let candidate ← validatedRecord candidate
    if isDuplicate casefold servers candidate (some server_id) then .error .duplicate
    else .ok (servers.set candidate)

def delete (servers : Servers φ) (server_id : Text) : Except Refusal (Servers φ) :=
  if servers.Has server_id then .ok (servers.erase server_id) else .error (.notFound server_id)

/-- The operations that write. -/
inductive RegistryOp (φ : Type) where
  | create (new_id : Text) (request : ServerCreate φ)
  | update (server_id : Text) (request : ServerPatch φ)
  | delete (server_id : Text)

def RegistryOp.change : RegistryOp φ → Servers φ → Except Refusal (Servers φ)
  | .create new_id request, servers => Registry.create casefold servers new_id request
  | .update server_id request, servers => Registry.update casefold servers server_id request
  | .delete server_id, servers => Registry.delete servers server_id

/-! ### The file -/

/-- A float of a JSON document; what becomes of another value is up to the reader. -/
def asFloat (other : Value → Option φ) : Value → Option φ
  | .float t => PyFloat.parse t
  | v => other v

def ServerRecord.dump (r : ServerRecord φ) : Members :=
  [("server_id".toList, .str r.server_id), ("display_name".toList, .str r.display_name),
    ("ssh_host".toList, .str r.ssh_host), ("username".toList, Json.nullable .str r.username),
    ("port".toList, Json.nullable .int r.port), ("tags".toList, Json.texts r.tags),
    ("enabled".toList, .bool r.enabled),
    ("sample_interval_s".toList, Json.nullable (fun x => .float (PyFloat.repr x)) r.sample_interval_s)]

def ServerRecord.names : List Text :=
  ["server_id".toList, "display_name".toList, "ssh_host".toList, "username".toList, "port".toList, "tags".toList,
    "enabled".toList, "sample_interval_s".toList]

def ServerRecord.fields (lax : Lax) (lax_float : Value → Option φ) (kvs : Members) : Option (ServerRecord φ) := do
  let server_id ← needed kvs "server_id".toList asStr
  let display_name ← needed kvs "display_name".toList asStr
  let ssh_host ← needed kvs "ssh_host".toList asStr
  let username ← defaulted kvs "username".toList none (asNullable asStr)
  let port ← defaulted kvs "port".toList none (asNullable (asInt lax.int))
  let tags ← defaulted kvs "tags".toList [] (asList asStr)
  let enabled ← defaulted kvs "enabled".toList true (asBool lax.bool)
  let sample_interval_s ← defaulted kvs "sample_interval_s".toList none (asNullable (asFloat lax_float))
  return { server_id, display_name, ssh_host, username, port, tags, enabled, sample_interval_s }

/-- `_load`. -/
def load (lax : Lax) (lax_float : Value → Option φ) : Persistence.File → Option (Servers φ)
  | .document (.arr items) =>
    some (.ofRows (rowsOf (readModel ServerRecord.names (ServerRecord.fields lax lax_float)) items))
  | _ => some .empty

/-- `ServerRegistry` as a store. -/
def registryStore (lax : Lax) (lax_float : Value → Option φ) :
    Persistence.Store (Servers φ) (RegistryOp φ) Refusal where
  change o servers := (o.change casefold servers).map some
  dump servers := .arr (servers.rows.map fun s => .obj s.val.dump)
  load := load lax lax_float

lemma ServerRecord.fields_dump (lax : Lax) (lax_float : Value → Option φ) (r : ServerRecord φ) :
    ServerRecord.fields lax lax_float r.dump = some r := by
  have hid : needed r.dump "server_id".toList asStr = some r.server_id := rfl
  have hname : needed r.dump "display_name".toList asStr = some r.display_name := rfl
  have hhost : needed r.dump "ssh_host".toList asStr = some r.ssh_host := rfl
  have husername : defaulted r.dump "username".toList none (asNullable asStr) = some r.username :=
    Json.defaulted_of rfl (Json.asNullable_str _)
  have hport : defaulted r.dump "port".toList none (asNullable (asInt lax.int)) = some r.port :=
    Json.defaulted_of rfl (Json.asNullable_int _ _)
  have htags : defaulted r.dump "tags".toList [] (asList asStr) = some r.tags :=
    Json.defaulted_of rfl (Json.asList_texts _)
  have henabled : defaulted r.dump "enabled".toList true (asBool lax.bool) = some r.enabled := rfl
  have hfloat : ∀ x : φ, asFloat lax_float (.float (PyFloat.repr x)) = some x := PyFloat.parse_repr
  have hinterval : defaulted r.dump "sample_interval_s".toList none (asNullable (asFloat lax_float)) =
      some r.sample_interval_s :=
    Json.defaulted_of rfl (Json.asNullable_nullable hfloat (fun _ h => by cases h) _)
  rw [ServerRecord.fields, hid, hname, hhost, husername, hport, htags, henabled, hinterval]
  rfl

/-- Every registry is loaded as it was saved. -/
theorem registryStore_lawful (lax : Lax) (lax_float : Value → Option φ) :
    (registryStore casefold lax lax_float).Lawful (fun _ => True) (fun _ => True) where
  sound_load _ := trivial
  sound_change _ _ _ := trivial
  load_dump := by
    intro servers _
    have hrows : rowsOf (readModel ServerRecord.names (ServerRecord.fields lax lax_float))
        (servers.rows.map fun s => .obj s.val.dump) = servers.rows :=
      rowsOf_dump (fun s : Server φ => readModel_dump s rfl (ServerRecord.fields_dump lax lax_float s.val)) _
    have hload : (registryStore casefold lax lax_float).load
        (.document ((registryStore casefold lax lax_float).dump servers)) =
        some (.ofRows (rowsOf (readModel ServerRecord.names (ServerRecord.fields lax lax_float))
          (servers.rows.map fun s => .obj s.val.dump))) := rfl
    rw [hload, hrows, Table.ofRows_rows]
  unstorable _ h _ := absurd trivial h

end Registry

end SshGpuConsole.Registry
