import SshGpuConsole.Lib.Dict
import SshGpuConsole.Persistence.Stores

/-!
# Loading the stores

What the constructors of the four stores do with any file: `JsonFileStore.load` behind them, and the loop of each
`_load` with the shapes and exceptions it guards. The loaders take Python as a parameter: its strings, its floats,
its documents and its JSON reader. A store is loaded with the valid records of its file exactly when the file can be
read at all and nothing in the document reaches what the loader leaves unguarded (`loaded_iff`).
-/

namespace SshGpuConsole.Persistence.Loading
open Shell (Text)

/-! ### Python -/

/-- What a document is, one level of it. -/
inductive Shape (σ φ δ : Type) where
  | null
  | bool (b : Bool)
  | int (n : ℤ)
  | float (x : φ)
  | str (s : σ)
  | list (items : List δ)
  | dict (members : Dict σ δ)

inductive PyError where
  | os
  | jsonDecode
  | unicodeDecode
  | key
  | type
  | value
  | attribute
  | overflow
  /-- Any other exception, a `RecursionError` for one. -/
  | other
  deriving DecidableEq, Repr

/-- What `int` makes of a float. -/
inductive FloatKind where
  | finite (n : ℤ)
  | nan
  | infinite
  deriving DecidableEq, Repr

/-- The strings, floats and documents of Python. -/
structure Python (σ φ δ : Type) where
  view : δ → Shape σ φ δ
  /-- `json.loads` -/
  loads : Text → Except PyError δ
  /-- A string of the source. -/
  lit : Text → σ
  kind : φ → FloatKind
  /-- `int` of a string -/
  intOfStr : σ → Option ℤ
  str : δ → σ
  casefold : σ → σ
  strip : σ → σ

/-- What is behind the path of a store. -/
inductive Content where
  | missing
  /-- Opening or reading it raises an `OSError`. -/
  | unreadable
  | bytes (b : List UInt8)

section Documents
variable {σ φ δ : Type} (py : Python σ φ δ)

/-- `JsonFileStore.load`; nothing when it returns its default. -/
def JsonFileStore.load : Content → Except PyError (Option δ)
  | .missing => .ok none
  | .unreadable => .ok none
  | .bytes b =>
    match PyText.decodeUtf8 b with
    | none => .error .unicodeDecode
    | some text =>
      match py.loads text with
      | .ok d => .ok (some d)
      | .error .os => .ok none
      | .error .jsonDecode => .ok none
      | .error e => .error e

/-- The document of a file, if it has one. -/
def document : Content → Option δ
  | .bytes b => (PyText.decodeUtf8 b).bind fun text => (py.loads text).toOption
  | _ => none

/-- The bytes are UTF-8, and all that the JSON reader raises on them is a `JSONDecodeError` or an `OSError`. -/
def Reads : Content → Prop
  | .bytes b => ∃ text, PyText.decodeUtf8 b = some text ∧
      ∀ e, py.loads text = .error e → e = .os ∨ e = .jsonDecode
  | _ => True

/-- `int`. -/
def int (d : δ) : Except PyError ℤ :=
  match py.view d with
  | .bool b => .ok (if b then 1 else 0)
  | .int n => .ok n
  | .float x =>
    match py.kind x with
    | .finite n => .ok n
    | .nan => .error .value
    | .infinite => .error .overflow
  | .str s =>
    match py.intOfStr s with
    | some n => .ok n
    | none => .error .value
  | _ => .error .type

/-- `for item in d`, without the items that are no documents: the characters of a string, the keys of a dict. -/
def iterate (d : δ) : Except PyError (List δ) :=
  match py.view d with
  | .list items => .ok items
  | .str _ => .ok []
  | .dict _ => .ok []
  | _ => .error .type

/-- The items of a list; nothing else has any. -/
def listed (d : Option δ) : List δ :=
  match d.map py.view with
  | some (.list items) => items
  | _ => []

/-- The members of a dict; nothing else has any. -/
def members (d : Option δ) : Dict σ δ :=
  match d.map py.view with
  | some (.dict kvs) => kvs
  | _ => []

/-- The value can be iterated: it is a list, a string or a dict. -/
def IsIterable (d : δ) : Prop :=
  match py.view d with
  | .list _ | .str _ | .dict _ => True
  | _ => False

def IsDict (d : δ) : Prop :=
  match py.view d with
  | .dict _ => True
  | _ => False

variable {py}

lemma iterate_of {d : δ} (h : IsIterable py d) : iterate py d = .ok (listed py (some d)) := by
  unfold IsIterable at h
  unfold iterate listed
  rw [Option.map_some]
  cases hview : py.view d with
  | list items => rfl
  | str s => rfl
  | dict kvs => rfl
  | _ => rw [hview] at h; exact h.elim

lemma isIterable_of {d : δ} {items : List δ} (h : iterate py d = .ok items) : IsIterable py d := by
  unfold iterate at h
  unfold IsIterable
  cases hview : py.view d with
  | list items => trivial
  | str s => trivial
  | dict kvs => trivial
  | _ => rw [hview] at h; cases h

/-- A document that is no dict has no members, and the workspace starts empty. -/
lemma members_eq_nil {raw : Option δ} (h : ∀ kvs, raw.map py.view ≠ some (.dict kvs)) : members py raw = [] := by
  unfold members
  split
  · rename_i kvs hview
    exact absurd hview (h kvs)
  · rfl

end Documents

/-! ### Records -/

/-- A pydantic model: what `model_validate` makes of a dict, and the id of a record. -/
structure RecordModel (σ δ ι : Type) where
  Row : Type
  validate : Dict σ δ → Except PyError Row
  id : Row → ι

/-- Under each id the table has the last of the rows with it. -/
def HoldsLast {ρ ι : Type} [DecidableEq ι] {id : ρ → ι} (rows : List ρ) (records : Table id) : Prop :=
  ∀ i, records.get i = (rows.filter fun r => id r = i).getLast?

/-- A loop that sets the row an item has, if it has one, builds the table of these rows. -/
lemma foldl_add_eq {ρ ι τ : Type} [DecidableEq ι] {id : ρ → ι} {add : Table id → τ → Table id} {row : τ → Option ρ}
    (hadd : ∀ records x, add records x = (row x).elim records records.set) (items : List τ) :
    items.foldl add .empty = Table.ofRows (items.filterMap row) := by
  have hfold : ∀ (items : List τ) (records : Table id),
      items.foldl add records = (items.filterMap row).foldl Table.set records := by
    intro items
    induction items with
    | nil => exact fun _ => rfl
    | cons x items ih =>
      intro records
      rw [List.foldl_cons, ih, hadd]
      cases hrow : row x with
      | none => rw [List.filterMap_cons_none hrow]; rfl
      | some r => rw [List.filterMap_cons_some hrow]; rfl
  exact hfold items .empty

lemma holdsLast_ofRows {ρ ι : Type} [DecidableEq ι] {id : ρ → ι} (rows : List ρ) :
    HoldsLast rows (Table.ofRows rows : Table id) := fun i => Table.get_ofRows rows i

section Records
variable {σ φ δ ι : Type} (py : Python σ φ δ)

/-- The valid record in an item. -/
def row (m : RecordModel σ δ ι) (item : δ) : Option m.Row :=
  match py.view item with
  | .dict kvs => (m.validate kvs).toOption
  | _ => none

/-- One turn of the loop: an item that is no dict and one whose validation raises are passed over. -/
def addRecord [DecidableEq ι] (m : RecordModel σ δ ι) (records : Table m.id) (item : δ) : Table m.id :=
  match py.view item with
  | .dict kvs =>
    match m.validate kvs with
    | .ok record => records.set record
    | .error _ => records
  | _ => records

lemma addRecord_eq [DecidableEq ι] (m : RecordModel σ δ ι) (items : List δ) :
    items.foldl (addRecord py m) .empty = Table.ofRows (items.filterMap (row py m)) := by
  refine foldl_add_eq (fun records item => ?_) items
  unfold addRecord row
  cases py.view item with
  | dict kvs =>
    dsimp only
    cases m.validate kvs <;> rfl
  | _ => rfl

lemma holdsLast_addRecord [DecidableEq ι] (m : RecordModel σ δ ι) (items : List δ) :
    HoldsLast (items.filterMap (row py m)) (items.foldl (addRecord py m) .empty) := by
  rw [addRecord_eq]
  exact holdsLast_ofRows _

end Records

/-! ### The registry -/

section Registry
variable {σ φ δ : Type} [DecidableEq σ] (py : Python σ φ δ) (server : RecordModel σ δ σ)

/-- `ServerRegistry._load` behind the reading of the file. -/
def registryOf (raw : Option δ) : Except PyError (Table server.id) :=
  .ok ((listed py raw).foldl (addRecord py server) .empty)

end Registry

/-! ### The workspace -/

section Workspace
variable {σ φ δ : Type} [DecidableEq σ] (py : Python σ φ δ)

/-- `_MODEL_BY_KEY`, and the model of the server roots. -/
structure WorkspaceModels (σ δ : Type) where
  project : RecordModel σ δ σ
  artifact : RecordModel σ δ σ
  placement : RecordModel σ δ σ
  launch_config : RecordModel σ δ σ
  Roots : Type
  validateRoots : Dict σ δ → Except PyError Roots

variable (models : WorkspaceModels σ δ)

structure WorkspaceStore where
  projects : Table models.project.id
  artifacts : Table models.artifact.id
  placements : Table models.placement.id
  launch_configs : Table models.launch_config.id
  server_roots : Table (Prod.fst : σ × models.Roots → σ)

/-- `raw.get(key, [])`, iterated. -/
def itemsOf (raw : Dict σ δ) (key : Text) : Except PyError (List δ) :=
  match Dict.get raw (py.lit key) with
  | none => .ok []
  | some d => iterate py d

/-- `raw.get("server_roots", {}).items()`. -/
def rootItems (raw : Dict σ δ) : Except PyError (Dict σ δ) :=
  match Dict.get raw (py.lit "server_roots".toList) with
  | none => .ok []
  | some d =>
    match py.view d with
    | .dict kvs => .ok kvs
    | _ => .error .attribute

/-- The valid roots in an entry: none under the empty id. -/
def rootRow (kv : σ × δ) : Option (σ × models.Roots) :=
  if kv.1 = py.lit [] then none
  else
    match py.view kv.2 with
    | .dict kvs => ((models.validateRoots kvs).toOption).map fun roots => (kv.1, roots)
    | _ => none

def addRoots (roots : Table (Prod.fst : σ × models.Roots → σ)) (kv : σ × δ) :
    Table (Prod.fst : σ × models.Roots → σ) :=
  if kv.1 = py.lit [] then roots
  else
    match py.view kv.2 with
    | .dict kvs =>
      match models.validateRoots kvs with
      | .ok r => roots.set (kv.1, r)
      | .error _ => roots
    | _ => roots

/-- `WorkspaceRepository._load` behind the reading of the file. -/
def workspaceOf (raw : Option δ) : Except PyError (WorkspaceStore models) :=
  match raw.map py.view with
  | some (.dict kvs) => do
    let projects ← itemsOf py kvs "projects".toList
    let artifacts ← itemsOf py kvs "artifacts".toList
    let placements ← itemsOf py kvs "placements".toList
    let launch_configs ← itemsOf py kvs "launch_configs".toList
    let roots ← rootItems py kvs
    return {
      projects := projects.foldl (addRecord py models.project) .empty
      artifacts := artifacts.foldl (addRecord py models.artifact) .empty
      placements := placements.foldl (addRecord py models.placement) .empty
      launch_configs := launch_configs.foldl (addRecord py models.launch_config) .empty
      server_roots := roots.foldl (addRoots py models) .empty }
  | _ => .ok ⟨.empty, .empty, .empty, .empty, .empty⟩

/-- The items of the list under a key. -/
def listedAt (raw : Option δ) (key : Text) : List δ := listed py (Dict.get (members py raw) (py.lit key))

/-- The workspace has the valid records of the lists in the document, and the valid server roots. -/
structure WorkspaceStore.Holds (raw : Option δ) (w : WorkspaceStore models) : Prop where
  projects : HoldsLast ((listedAt py raw "projects".toList).filterMap (row py models.project)) w.projects
  artifacts : HoldsLast ((listedAt py raw "artifacts".toList).filterMap (row py models.artifact)) w.artifacts
  placements : HoldsLast ((listedAt py raw "placements".toList).filterMap (row py models.placement)) w.placements
  launch_configs :
    HoldsLast ((listedAt py raw "launch_configs".toList).filterMap (row py models.launch_config)) w.launch_configs
  server_roots :
    HoldsLast ((members py (Dict.get (members py raw) (py.lit "server_roots".toList))).filterMap (rootRow py models))
      w.server_roots

/-- What stands under the five keys of the document is no scalar. -/
def Shaped (raw : Option δ) : Prop :=
  (∀ key ∈ ["projects".toList, "artifacts".toList, "placements".toList, "launch_configs".toList],
    ∀ d, Dict.get (members py raw) (py.lit key) = some d → IsIterable py d) ∧
  ∀ d, Dict.get (members py raw) (py.lit "server_roots".toList) = some d → IsDict py d

variable {py models}

lemma itemsOf_of {raw : Option δ} {key : Text}
    (h : ∀ d, Dict.get (members py raw) (py.lit key) = some d → IsIterable py d) :
    itemsOf py (members py raw) key = .ok (listedAt py raw key) := by
  unfold itemsOf listedAt
  cases hget : Dict.get (members py raw) (py.lit key) with
  | none => rfl
  | some d => exact iterate_of (h d hget)

lemma isIterable_of_itemsOf {raw : Option δ} {key : Text} {items : List δ}
    (h : itemsOf py (members py raw) key = .ok items) (d : δ)
    (hd : Dict.get (members py raw) (py.lit key) = some d) : IsIterable py d := by
  rw [itemsOf, hd] at h
  exact isIterable_of h

lemma rootItems_of {raw : Option δ}
    (h : ∀ d, Dict.get (members py raw) (py.lit "server_roots".toList) = some d → IsDict py d) :
    rootItems py (members py raw) =
      .ok (members py (Dict.get (members py raw) (py.lit "server_roots".toList))) := by
  unfold rootItems
  cases hget : Dict.get (members py raw) (py.lit "server_roots".toList) with
  | none => rfl
  | some d =>
    have hd := h d hget
    unfold IsDict at hd
    dsimp only [members]
    rw [Option.map_some]
    cases hview : py.view d with
    | dict kvs => rfl
    | _ => rw [hview] at hd; exact hd.elim

lemma isDict_of_rootItems {raw : Option δ} {items : Dict σ δ} (h : rootItems py (members py raw) = .ok items) (d : δ)
    (hd : Dict.get (members py raw) (py.lit "server_roots".toList) = some d) : IsDict py d := by
  rw [rootItems, hd] at h
  unfold IsDict
  cases hview : py.view d with
  | dict kvs => trivial
  | _ => simp only [hview] at h; cases h

lemma addRoots_eq (entries : Dict σ δ) :
    entries.foldl (addRoots py models) .empty = Table.ofRows (entries.filterMap (rootRow py models)) := by
  refine foldl_add_eq (fun roots kv => ?_) entries
  unfold addRoots rootRow
  split
  · rfl
  · cases py.view kv.2 with
    | dict kvs =>
      dsimp only
      cases models.validateRoots kvs <;> rfl
    | _ => rfl

lemma holdsLast_addRoots (entries : Dict σ δ) :
    HoldsLast (entries.filterMap (rootRow py models)) (entries.foldl (addRoots py models) .empty) := by
  rw [addRoots_eq]
  exact holdsLast_ofRows _

lemma workspaceOf_iff (raw : Option δ) :
    (∃ w, workspaceOf py models raw = .ok w ∧ w.Holds py models raw) ↔ Shaped py raw := by
  by_cases hdict : ∃ kvs, raw.map py.view = some (.dict kvs)
  · obtain ⟨kvs, hview⟩ := hdict
    have hkvs : kvs = members py raw := by rw [members, hview]
    simp only [workspaceOf, hview]
    rw [hkvs]
    constructor
    · rintro ⟨w, hw, -⟩
      obtain ⟨_, hprojects, hw⟩ := Except.ok_of_bind hw
      obtain ⟨_, hartifacts, hw⟩ := Except.ok_of_bind hw
      obtain ⟨_, hplacements, hw⟩ := Except.ok_of_bind hw
      obtain ⟨_, hconfigs, hw⟩ := Except.ok_of_bind hw
      obtain ⟨_, hroots, -⟩ := Except.ok_of_bind hw
      refine ⟨fun key hkey => ?_, isDict_of_rootItems hroots⟩
      simp only [List.mem_cons, List.not_mem_nil, or_false] at hkey
      rcases hkey with rfl | rfl | rfl | rfl
      · exact isIterable_of_itemsOf hprojects
      · exact isIterable_of_itemsOf hartifacts
      · exact isIterable_of_itemsOf hplacements
      · exact isIterable_of_itemsOf hconfigs
    · rintro ⟨hiterable, hroots⟩
      rw [itemsOf_of (hiterable _ (by simp)), itemsOf_of (hiterable _ (by simp)), itemsOf_of (hiterable _ (by simp)),
        itemsOf_of (hiterable _ (by simp)), rootItems_of hroots]
      refine ⟨_, rfl, ?_⟩
      exact
        { projects := holdsLast_addRecord py models.project _
          artifacts := holdsLast_addRecord py models.artifact _
          placements := holdsLast_addRecord py models.placement _
          launch_configs := holdsLast_addRecord py models.launch_config _
          server_roots := holdsLast_addRoots _ }
  · have hnone : members py raw = [] := members_eq_nil fun kvs h => hdict ⟨kvs, h⟩
    have hget : ∀ key, Dict.get (members py raw) (py.lit key) = none := fun key => by rw [hnone]; rfl
    have hempty : workspaceOf py models raw = .ok ⟨.empty, .empty, .empty, .empty, .empty⟩ := by
      unfold workspaceOf
      split
      · rename_i kvs hview
        exact absurd ⟨kvs, hview⟩ hdict
      · rfl
    have hlisted : ∀ key, listedAt py raw key = [] := fun key => by rw [listedAt, hget]; rfl
    refine iff_of_true ⟨_, hempty, ?_⟩ ⟨fun key _ d hd => ?_, fun d hd => ?_⟩
    · have hno : ∀ (m : RecordModel σ δ σ) (key : Text),
          HoldsLast ((listedAt py raw key).filterMap (row py m)) (.empty : Table m.id) := by
        intro m key i
        rw [hlisted]
        rfl
      exact
        { projects := hno _ _
          artifacts := hno _ _
          placements := hno _ _
          launch_configs := hno _ _
          server_roots := fun i => by rw [hget]; rfl }
    · cases (hget key).symm.trans hd
    · cases (hget _).symm.trans hd

end Workspace

/-! ### Trusted host keys -/

/-- `except (KeyError, TypeError, ValueError)`; the decoding errors are `ValueError`s. -/
def PyError.isSkipped : PyError → Bool
  | .key | .type | .value | .unicodeDecode | .jsonDecode => true
  | _ => false

section Trust
variable {σ φ δ : Type} [DecidableEq σ] (py : Python σ φ δ)

/-- `TrustedHostKey`. -/
structure HostKey (σ : Type) where
  host : σ
  port : ℤ
  key_type : σ
  fingerprint : σ

/-- `item[name]`. -/
def subscript (kvs : Dict σ δ) (name : Text) : Except PyError δ :=
  match Dict.get kvs (py.lit name) with
  | some d => .ok d
  | none => .error .key

/-- The conversions of one item, in their order. -/
def hostKey (kvs : Dict σ δ) : Except PyError (HostKey σ) := do
  let host ← subscript py kvs "host".toList
  let port ← subscript py kvs "port".toList
  let port ← int py port
  let key_type ← subscript py kvs "key_type".toList
  let fingerprint ← subscript py kvs "fingerprint".toList
  return {
    host := py.casefold (py.str host)
    port := port
    key_type := py.str key_type
    fingerprint := py.strip (py.str fingerprint) }

/-- The loop: an item that is no dict is passed over, and one whose conversion raises what is caught. -/
def addEntries : List δ → Except PyError (List (HostKey σ))
  | [] => .ok []
  | item :: items =>
    match py.view item with
    | .dict kvs =>
      match hostKey py kvs with
      | .ok entry => (addEntries items).map (entry :: ·)
      | .error e => if e.isSkipped then addEntries items else .error e
    | _ => addEntries items

/-- The items of the root, or of `entries` in a dict. -/
def trustItems (raw : Option δ) : List δ :=
  match raw.map py.view with
  | some (.dict kvs) => listed py (Dict.get kvs (py.lit "entries".toList))
  | _ => listed py raw

/-- `HostKeyTrust._load` behind the reading of the file. -/
def trustOf (raw : Option δ) : Except PyError (List (HostKey σ)) := addEntries py (trustItems py raw)

/-- The valid entry in an item. -/
def entry (item : δ) : Option (HostKey σ) :=
  match py.view item with
  | .dict kvs => (hostKey py kvs).toOption
  | _ => none

/-- The item has a host, and a port that no integer is as large as: `int` raises an `OverflowError`. -/
def EndlessPort (item : δ) : Prop :=
  ∃ kvs host port x, py.view item = .dict kvs ∧ Dict.get kvs (py.lit "host".toList) = some host ∧
    Dict.get kvs (py.lit "port".toList) = some port ∧ py.view port = .float x ∧ py.kind x = .infinite

variable {py}

omit [DecidableEq σ] in
lemma int_error {d : δ} {e : PyError} (h : int py d = .error e) :
    e.isSkipped = true ∨ ∃ x, py.view d = .float x ∧ py.kind x = .infinite := by
  unfold int at h
  split at h
  · cases h
  · cases h
  · rename_i x hview
    split at h
    · cases h
    · cases h; exact .inl rfl
    · rename_i hkind
      exact .inr ⟨x, hview, hkind⟩
  · split at h
    · cases h
    · cases h; exact .inl rfl
  · cases h; exact .inl rfl

lemma subscript_error {kvs : Dict σ δ} {name : Text} {e : PyError} (h : subscript py kvs name = .error e) :
    e = .key := by
  unfold subscript at h
  split at h <;> cases h
  rfl

lemma get_of_subscript {kvs : Dict σ δ} {name : Text} {d : δ} (h : subscript py kvs name = .ok d) :
    Dict.get kvs (py.lit name) = some d := by
  unfold subscript at h
  split at h
  · rename_i hget
    cases h
    exact hget
  · cases h

lemma error_of_bind {ε α β : Type} {x : Except ε α} {f : α → Except ε β} {e : ε} (h : x >>= f = .error e) :
    x = .error e ∨ ∃ a, x = .ok a ∧ f a = .error e := by
  cases x with
  | error e' =>
    cases h
    exact .inl rfl
  | ok a => exact .inr ⟨a, rfl, h⟩

/-- Only a port without end makes the conversions raise what is not caught. -/
lemma endless_of_error {item : δ} {kvs : Dict σ δ} {e : PyError} (hview : py.view item = .dict kvs)
    (h : hostKey py kvs = .error e) (he : e.isSkipped = false) : EndlessPort py item := by
  have hkey : ∀ {name : Text}, subscript py kvs name ≠ .error e := by
    intro name hsub
    rw [subscript_error hsub] at he
    cases he
  rcases error_of_bind h with h | ⟨host, hhost, h⟩
  · exact absurd h hkey
  rcases error_of_bind h with h | ⟨port, hport, h⟩
  · exact absurd h hkey
  rcases error_of_bind h with h | ⟨n, -, h⟩
  · rcases int_error h with hskipped | ⟨x, hfloat, hkind⟩
    · cases hskipped.symm.trans he
    · exact ⟨kvs, host, port, x, hview, get_of_subscript hhost, get_of_subscript hport, hfloat, hkind⟩
  rcases error_of_bind h with h | ⟨_, -, h⟩
  · exact absurd h hkey
  rcases error_of_bind h with h | ⟨_, -, h⟩
  · exact absurd h hkey
  cases h

lemma hostKey_of_endless {item : δ} (h : EndlessPort py item) :
    ∃ kvs, py.view item = .dict kvs ∧ hostKey py kvs = .error .overflow := by
  obtain ⟨kvs, host, port, x, hview, hhost, hport, hfloat, hkind⟩ := h
  have hsubhost : subscript py kvs "host".toList = .ok host := by rw [subscript, hhost]
  have hsubport : subscript py kvs "port".toList = .ok port := by rw [subscript, hport]
  have hint : int py port = .error .overflow := by simp only [int, hfloat, hkind]
  refine ⟨kvs, hview, ?_⟩
  rw [hostKey, hsubhost]
  show (subscript py kvs "port".toList >>= _) = _
  rw [hsubport]
  show (int py port >>= _) = _
  rw [hint]
  rfl

lemma addEntries_of {items : List δ} (h : ∀ item ∈ items, ¬EndlessPort py item) :
    addEntries py items = .ok (items.filterMap (entry py)) := by
  induction items with
  | nil => rfl
  | cons item items ih =>
    have hrest := ih fun x hx => h x (List.mem_cons_of_mem _ hx)
    rw [addEntries, hrest, List.filterMap_cons]
    cases hview : py.view item with
    | dict kvs =>
      simp only [entry, hview]
      cases hkey : hostKey py kvs with
      | ok e => rfl
      | error e =>
        cases hskipped : e.isSkipped with
        | true =>
          dsimp only
          rw [if_pos hskipped]
          rfl
        | false => exact absurd (endless_of_error hview hkey hskipped) (h item List.mem_cons_self)
    | _ => simp only [entry, hview]

lemma not_endless_of_addEntries {items : List δ} {es : List (HostKey σ)} (h : addEntries py items = .ok es) :
    ∀ item ∈ items, ¬EndlessPort py item := by
  induction items generalizing es with
  | nil => exact fun _ hx => absurd hx List.not_mem_nil
  | cons item items ih =>
    rw [addEntries] at h
    have hrest : ∃ es, addEntries py items = .ok es := by
      cases hadd : addEntries py items with
      | ok es => exact ⟨es, rfl⟩
      | error e =>
        rw [hadd] at h
        split at h
        · split at h
          · cases h
          · split at h <;> cases h
        · cases h
    obtain ⟨es', hes'⟩ := hrest
    intro x hx hendless
    rcases List.mem_cons.1 hx with rfl | hx
    · obtain ⟨kvs, hview, hkey⟩ := hostKey_of_endless hendless
      simp only [hview, hkey] at h
      cases h
    · exact ih hes' x hx hendless

lemma trustOf_iff (raw : Option δ) :
    (∃ es, trustOf py raw = .ok es ∧ es = (trustItems py raw).filterMap (entry py)) ↔
      ∀ item ∈ trustItems py raw, ¬EndlessPort py item := by
  constructor
  · rintro ⟨es, h, -⟩
    exact not_endless_of_addEntries h
  · intro h
    exact ⟨_, addEntries_of h, rfl⟩

end Trust

/-! ### Configured pairs -/

section Pairs
variable {σ φ δ ι : Type} [DecidableEq ι] (py : Python σ φ δ) (pair : RecordModel σ δ ι)

/-- `DirectAuthMetadata._load` behind the reading of the file: every valid record is appended. -/
def pairsOf (raw : Option δ) : Except PyError (List pair.Row) := .ok ((listed py raw).filterMap (row py pair))

/-- Of each pair there is its last row and no other. -/
def HoldsOne (rows records : List pair.Row) : Prop :=
  ∀ i, records.filter (fun r => pair.id r = i) = (rows.filter fun r => pair.id r = i).getLast?.toList

variable {py pair}

lemma eq_getLast_iff {ρ : Type} (l : List ρ) : l = l.getLast?.toList ↔ l.length ≤ 1 := by
  match l with
  | [] => simp
  | [a] => simp
  | a :: b :: l =>
    refine iff_of_false (fun h => ?_) (by simp)
    have hlen : (a :: b :: l).length = (a :: b :: l).getLast?.toList.length := congrArg List.length h
    have hone : (a :: b :: l).getLast?.toList.length ≤ 1 := by cases (a :: b :: l).getLast? <;> simp
    simp only [List.length_cons] at hlen
    omega

lemma holdsOne_iff (rows : List pair.Row) : HoldsOne pair rows rows ↔ (rows.map pair.id).Nodup := by
  rw [List.nodup_iff_count_le_one]
  refine forall_congr' fun i => ?_
  rw [eq_getLast_iff, List.count_eq_countP, List.countP_map, List.countP_eq_length_filter]
  simp only [Function.comp_def, beq_eq_decide]

end Pairs

section Reading
variable {σ φ δ : Type} {py : Python σ φ δ} {c : Content}

/-- A file is read exactly when nothing is raised, and then it is read as its document. -/
lemma load_of_reads (h : Reads py c) : JsonFileStore.load py c = .ok (document py c) := by
  cases c with
  | missing => rfl
  | unreadable => rfl
  | bytes b =>
    obtain ⟨text, htext, herror⟩ := h
    simp only [JsonFileStore.load, document, htext, Option.bind_some]
    cases hloads : py.loads text with
    | ok d => rfl
    | error e =>
      rcases herror e hloads with rfl | rfl
      · rfl
      · rfl

lemma reads_of_load {d : Option δ} (h : JsonFileStore.load py c = .ok d) : Reads py c := by
  cases c with
  | missing => trivial
  | unreadable => trivial
  | bytes b =>
    simp only [JsonFileStore.load] at h
    cases htext : PyText.decodeUtf8 b with
    | none => rw [htext] at h; cases h
    | some text =>
      rw [htext] at h
      refine ⟨text, htext, fun e he => ?_⟩
      simp only [he] at h
      cases e with
      | os => exact .inl rfl
      | jsonDecode => exact .inr rfl
      | _ => cases h

/-- A store whose constructor reads the file first is as wanted exactly when the file is read and its document gives
what is wanted. -/
lemma reading_iff {μ : Type} (build : Option δ → Except PyError μ) (Wanted : μ → Prop) :
    (∃ store, JsonFileStore.load py c >>= build = .ok store ∧ Wanted store) ↔
      Reads py c ∧ ∃ store, build (document py c) = .ok store ∧ Wanted store := by
  constructor
  · rintro ⟨store, hstore, hwanted⟩
    have hreads : Reads py c := by
      cases hload : JsonFileStore.load py c with
      | ok d => exact reads_of_load hload
      | error e =>
        rw [hload] at hstore
        cases hstore
    rw [load_of_reads hreads] at hstore
    exact ⟨hreads, store, hstore, hwanted⟩
  · rintro ⟨hreads, store, hstore, hwanted⟩
    refine ⟨store, ?_, hwanted⟩
    rw [load_of_reads hreads]
    exact hstore

end Reading

/-! ### The four stores -/

section Stores
variable {σ φ δ : Type} [DecidableEq σ] (py : Python σ φ δ)

/-- `WorkspaceRepository(store)` -/
def loadWorkspace (models : WorkspaceModels σ δ) (c : Content) : Except PyError (WorkspaceStore models) :=
  JsonFileStore.load py c >>= workspaceOf py models

/-- `ServerRegistry(store)` -/
def loadRegistry (server : RecordModel σ δ σ) (c : Content) : Except PyError (Table server.id) :=
  JsonFileStore.load py c >>= registryOf py server

/-- `HostKeyTrust(path)` -/
def loadTrust (c : Content) : Except PyError (List (HostKey σ)) := JsonFileStore.load py c >>= trustOf py

/-- `DirectAuthMetadata(store)` -/
def loadPairs (pair : RecordModel σ δ (σ × σ)) (c : Content) : Except PyError (List pair.Row) :=
  JsonFileStore.load py c >>= pairsOf py pair

/-- Each of the four stores is loaded, and with exactly the valid records of its file, exactly when the file is read
and the document has nothing under the keys of the workspace that is no collection, no trusted key with a port without
end, and no two valid rows of one pair. -/
theorem loaded_iff (models : WorkspaceModels σ δ) (server : RecordModel σ δ σ) (pair : RecordModel σ δ (σ × σ))
    (c : Content) :
    ((∃ w, loadWorkspace py models c = .ok w ∧ w.Holds py models (document py c)) ↔
      Reads py c ∧ Shaped py (document py c)) ∧
    ((∃ s, loadRegistry py server c = .ok s ∧
        HoldsLast ((listed py (document py c)).filterMap (row py server)) s) ↔ Reads py c) ∧
    ((∃ es, loadTrust py c = .ok es ∧ es = (trustItems py (document py c)).filterMap (entry py)) ↔
      Reads py c ∧ ∀ item ∈ trustItems py (document py c), ¬EndlessPort py item) ∧
    ((∃ rs, loadPairs py pair c = .ok rs ∧
        HoldsOne pair ((listed py (document py c)).filterMap (row py pair)) rs) ↔
      Reads py c ∧ (((listed py (document py c)).filterMap (row py pair)).map pair.id).Nodup) := by
  refine ⟨?_, ?_, ?_, ?_⟩
  · rw [← workspaceOf_iff]
    exact reading_iff _ _
  · refine (reading_iff (registryOf py server) _).trans (and_iff_left ?_)
    exact ⟨_, rfl, holdsLast_addRecord py server _⟩
  · rw [← trustOf_iff]
    exact reading_iff _ _
  · rw [← holdsOne_iff]
    refine (reading_iff (pairsOf py pair) _).trans (and_congr_right fun _ => ?_)
    constructor
    · rintro ⟨_, ⟨⟩, h⟩
      exact h
    · exact fun h => ⟨_, rfl, h⟩

end Stores

/-! ### On the records of the stores -/

section Concrete
open Json (Value Members)

/-- One level of a document without lone surrogates. -/
def viewOf : Value → Shape Text Text Value
  | .null => .null
  | .bool b => .bool b
  | .int n => .int n
  | .float source => .float source
  | .str t => .str t
  | .arr items => .list items
  | .obj kvs => .dict kvs

/-- What is left of Python: `int` of floats and strings, `str` of documents and the case folding. -/
structure Conversions where
  kind : Text → FloatKind
  intOfStr : Text → Option ℤ
  str : Value → Text
  casefold : Text → Text

def pythonOf (conv : Conversions) : Python Text Text Value where
  view := viewOf
  loads t :=
    match Json.loads t with
    | some v => .ok v
    | none => .error .jsonDecode
  lit t := t
  kind := conv.kind
  intOfStr := conv.intOfStr
  str := conv.str
  casefold := conv.casefold
  strip := PyText.strip

/-- `model_validate` raises a `ValidationError`, which is a `ValueError`. -/
def validateOf {α : Type} (read : Members → Option α) (kvs : Members) : Except PyError α :=
  match read kvs with
  | some a => .ok a
  | none => .error .value

open Workspace in
def workspaceModels (lax : Lax) : WorkspaceModels Text Value where
  project := ⟨Project, validateOf (readModel ProjectRecord.names ProjectRecord.fields), fun p => p.val.project_id⟩
  artifact :=
    ⟨Artifact, validateOf (readModel ArtifactRecord.names (ArtifactRecord.fields lax)), fun a => a.val.artifact_id⟩
  placement :=
    ⟨Placement, validateOf (readModel PlacementRecord.names PlacementRecord.fields), fun p => p.val.placement_id⟩
  launch_config :=
    ⟨LaunchConfig, validateOf (readModel LaunchConfigRecord.names (LaunchConfigRecord.fields lax)),
      fun c => c.val.launch_config_id⟩
  Roots := Validated ServerRoots
  validateRoots := validateOf (readModel ServerRoots.names ServerRoots.fields)

open Registry in
def serverModel {φ : Type} [PyFloat φ] (lax : Workspace.Lax) (lax_float : Value → Option φ) :
    RecordModel Text Value Text :=
  ⟨Server φ, validateOf (Workspace.readModel ServerRecord.names (ServerRecord.fields lax lax_float)),
    fun s => s.val.server_id⟩

def fileOf : Option Value → File
  | none => .missing
  | some v => .document v

def WorkspaceStore.repo {lax : Workspace.Lax} (w : WorkspaceStore (workspaceModels lax)) : Workspace.Repo :=
  ⟨w.projects, w.artifacts, w.placements, w.launch_configs, w.server_roots⟩

variable (conv : Conversions) (lax : Workspace.Lax)

lemma toOption_validateOf {α : Type} (read : Members → Option α) (kvs : Members) :
    (validateOf read kvs).toOption = read kvs := by
  unfold validateOf
  cases read kvs <;> rfl

lemma rowsOf_eq {ι : Type} {α : Type} (read : Members → Option α) (id : α → ι) (items : List Value) :
    items.filterMap (row (pythonOf conv) ⟨α, validateOf read, id⟩) = Workspace.rowsOf read items := by
  refine List.filterMap_congr fun item _ => ?_
  cases item with
  | obj kvs => exact toOption_validateOf read kvs
  | _ => rfl

/-- The loader of the registry is the one its saves are read back with. -/
theorem registryOf_load {φ : Type} [Registry.PyFloat φ] (lax_float : Value → Option φ) (raw : Option Value) :
    (registryOf (pythonOf conv) (serverModel lax lax_float) raw).toOption =
      Registry.load lax lax_float (fileOf raw) := by
  rw [registryOf, addRecord_eq]
  refine (congrArg (fun rows => some (Table.ofRows rows)) (rowsOf_eq conv _ _ _)).trans ?_
  cases raw with
  | none => rfl
  | some v => cases v <;> rfl

lemma itemsOf_eq (kvs : Members) (key : Text) :
    (itemsOf (pythonOf conv) kvs key).toOption = Workspace.itemsOf kvs key := by
  have hget : Dict.get kvs ((pythonOf conv).lit key) = Json.member kvs key := rfl
  unfold itemsOf Workspace.itemsOf
  rw [hget]
  cases Json.member kvs key with
  | none => rfl
  | some v => cases v <;> rfl

lemma rootItems_eq (kvs : Members) : (rootItems (pythonOf conv) kvs).toOption = Workspace.rootItems kvs := by
  have hget : Dict.get kvs ((pythonOf conv).lit "server_roots".toList) = Json.member kvs "server_roots".toList := rfl
  unfold rootItems Workspace.rootItems
  rw [hget]
  cases Json.member kvs "server_roots".toList with
  | none => rfl
  | some v => cases v <;> rfl

lemma rootRow_eq (kv : Text × Value) :
    rootRow (pythonOf conv) (workspaceModels lax) kv = Workspace.readRoots kv := by
  obtain ⟨server_id, v⟩ := kv
  cases server_id with
  | nil => rfl
  | cons c server_id =>
    cases v with
    | obj kvs => exact congrArg (Option.map fun roots => (c :: server_id, roots)) (toOption_validateOf _ kvs)
    | _ => rfl

/-- The loader of the workspace is the one its saves are read back with. -/
theorem workspaceOf_load (raw : Option Value) :
    ((workspaceOf (pythonOf conv) (workspaceModels lax) raw).toOption).map WorkspaceStore.repo =
      Workspace.Repo.load lax (fileOf raw) := by
  cases raw with
  | none => rfl
  | some v =>
    cases v with
    | obj kvs =>
      have hrow : ∀ {α : Type} (read : Members → Option α) (id : α → Text) (items : List Value),
          items.foldl (addRecord (pythonOf conv) ⟨α, validateOf read, id⟩) .empty =
            Table.ofRows (Workspace.rowsOf read items) := by
        intro α read id items
        rw [addRecord_eq, rowsOf_eq]
      have hroots : ∀ entries : Members, entries.foldl (addRoots (pythonOf conv) (workspaceModels lax)) .empty =
          Table.ofRows (entries.filterMap Workspace.readRoots) := by
        intro entries
        rw [addRoots_eq, funext (rootRow_eq conv lax)]
        rfl
      simp only [fileOf, Workspace.Repo.load, ← itemsOf_eq conv, ← rootItems_eq conv]
      show Option.map _ (Except.toOption (itemsOf (pythonOf conv) kvs _ >>= _)) = _
      cases itemsOf (pythonOf conv) kvs "projects".toList with
      | error e => rfl
      | ok projects =>
      cases itemsOf (pythonOf conv) kvs "artifacts".toList with
      | error e => rfl
      | ok artifacts =>
      cases itemsOf (pythonOf conv) kvs "placements".toList with
      | error e => rfl
      | ok placements =>
      cases itemsOf (pythonOf conv) kvs "launch_configs".toList with
      | error e => rfl
      | ok launch_configs =>
      cases rootItems (pythonOf conv) kvs with
      | error e => rfl
      | ok roots =>
      refine congrArg some ((Workspace.Repo.mk.injEq ..).mpr ⟨?_, ?_, ?_, ?_, ?_⟩)
      · exact hrow _ _ projects
      · exact hrow _ _ artifacts
      · exact hrow _ _ placements
      · exact hrow _ _ launch_configs
      · exact hroots roots
    | _ => rfl

def pairModel : RecordModel Text Value (Text × Text) :=
  ⟨PairRow, validateOf PairRow.read, fun r => DirectAuth.PairMetadata.key conv.casefold r.toPairMetadata⟩

/-- The loader of the pairs is the one their saves are read back with. -/
theorem pairsOf_load (raw : Option Value) :
    (pairsOf (pythonOf conv) (pairModel conv) raw).toOption = Persistence.loadPairs (fileOf raw) := by
  refine (congrArg some (rowsOf_eq conv _ _ _)).trans ?_
  cases raw with
  | none => rfl
  | some v => cases v <;> rfl

end Concrete

/-! ### A null in the place of a list -/

/-- Nothing is converted, and ASCII texts are folded as they are. -/
def plain : Conversions := ⟨fun _ => .nan, fun _ => none, fun _ => [], fun t => t⟩

def nullProjects : Text := '\x7b' :: "\"projects\": null".toList ++ ['\x7d']

/-- A workspace file that is a JSON object with null as its projects keeps the repository from being constructed. -/
theorem null_projects_not_loaded :
    ¬∃ w, loadWorkspace (pythonOf plain) (workspaceModels strict) (.bytes (PyText.encodeUtf8 nullProjects)) = .ok w ∧
      w.Holds (pythonOf plain) (workspaceModels strict)
        (document (pythonOf plain) (.bytes (PyText.encodeUtf8 nullProjects))) := by
  rintro ⟨w, hw, -⟩
  have hloads : Json.loads nullProjects = some (.obj [("projects".toList, .null)]) := by rfl
  have hload : JsonFileStore.load (pythonOf plain) (.bytes (PyText.encodeUtf8 nullProjects)) =
      .ok (some (.obj [("projects".toList, .null)])) := by
    simp only [JsonFileStore.load, PyText.decodeUtf8_encodeUtf8, pythonOf, hloads]
  rw [loadWorkspace, hload] at hw
  cases hw

end SshGpuConsole.Persistence.Loading
