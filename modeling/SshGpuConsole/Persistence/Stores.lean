import SshGpuConsole.DirectAuth.Service
import SshGpuConsole.Servers.Registry
import SshGpuConsole.Ssh.HostKeys

/-!
# The four stores

`HostKeyTrust` (`ssh/known_hosts.py`) and `DirectAuthMetadata` (`direct_auth/metadata.py`) as stores beside the
workspace and the server registry, and when memory equals disk for the four of them.
-/

namespace SshGpuConsole.Persistence
open Shell (Text)
open PyText
open Json (Value Members asStr asInt needed)
open Workspace (Lax readModel rowsOf rowsOf_dump)
open Ssh (TrustedHostKey HostKeyTrust)
open DirectAuth (PairMetadata pairKey)

/-! ### Trusted host keys -/

section Trust
variable (casefold : Text → Text)

/-- Python's `str` of a JSON value; of a value that is no text, it is up to the reader. -/
def strOf (other : Value → Text) : Value → Text
  | .str t => t
  | v => other v

def TrustedHostKey.dump (e : TrustedHostKey) : Members :=
  [("host".toList, .str e.host), ("port".toList, .int e.port), ("key_type".toList, .str e.key_type),
    ("fingerprint".toList, .str e.fingerprint)]

/-- An item of the file; other members than the four are left aside. -/
def TrustedHostKey.read (str : Value → Text) (lax : Lax) (kvs : Members) : Option TrustedHostKey := do
  let host ← Json.member kvs "host".toList
  let port ← needed kvs "port".toList (asInt lax.int)
  let key_type ← Json.member kvs "key_type".toList
  let fingerprint ← Json.member kvs "fingerprint".toList
  return {
    host := casefold (strOf str host)
    port := port
    key_type := strOf str key_type
    fingerprint := strip (strOf str fingerprint) }

/-- `_load`. -/
def loadTrust (str : Value → Text) (lax : Lax) : File → Option HostKeyTrust
  | .document (.arr items) => some ⟨rowsOf (TrustedHostKey.read casefold str lax) items⟩
  | .document (.obj kvs) =>
    match Json.member kvs "entries".toList with
    | some (.arr items) => some ⟨rowsOf (TrustedHostKey.read casefold str lax) items⟩
    | _ => some ⟨[]⟩
  | _ => some ⟨[]⟩

/-- `HostKeyTrust` as a store; its operation is `add`, which returns at once for an entry that is there. -/
def trustStore (str : Value → Text) (lax : Lax) : Store HostKeyTrust TrustedHostKey Empty where
  change entry trust :=
    if HostKeyTrust.normalized casefold entry ∈ trust.entries then .ok none
    else .ok (some (trust.add casefold entry))
  dump trust :=
    .obj [("version".toList, .int 1),
      ("entries".toList, .arr (trust.entries.map fun e => .obj (TrustedHostKey.dump e)))]
  load := loadTrust casefold str lax

/-- The entry is as `add` normalizes it. -/
def IsNormalized (e : TrustedHostKey) : Prop := casefold e.host = e.host ∧ strip e.fingerprint = e.fingerprint

variable {casefold}

lemma isNormalized_read {str : Value → Text} {lax : Lax} (hfold : ∀ t, casefold (casefold t) = casefold t)
    {kvs : Members} {e : TrustedHostKey} (h : TrustedHostKey.read casefold str lax kvs = some e) :
    IsNormalized casefold e := by
  simp only [TrustedHostKey.read, Option.bind_eq_bind, Option.bind_eq_some_iff, Option.pure_def,
    Option.some.injEq] at h
  obtain ⟨host, -, port, -, key_type, -, fingerprint, -, rfl⟩ := h
  exact ⟨hfold _, strip_strip _⟩

lemma read_dump (str : Value → Text) (lax : Lax) {e : TrustedHostKey} (h : IsNormalized casefold e) :
    TrustedHostKey.read casefold str lax (TrustedHostKey.dump e) = some e := by
  have hread : TrustedHostKey.read casefold str lax (TrustedHostKey.dump e) =
      some { host := casefold e.host, port := e.port, key_type := e.key_type, fingerprint := strip e.fingerprint } := rfl
  rw [hread, h.1, h.2]

lemma rowsOf_entries (str : Value → Text) (lax : Lax) {entries : List TrustedHostKey}
    (h : ∀ e ∈ entries, IsNormalized casefold e) :
    rowsOf (TrustedHostKey.read casefold str lax) (entries.map fun e => .obj (TrustedHostKey.dump e)) = entries := by
  rw [rowsOf, List.filterMap_map]
  refine (List.filterMap_congr fun e he => ?_).trans List.filterMap_some
  exact read_dump str lax (h e he)

lemma mem_rowsOf {ρ : Type} {read : Members → Option ρ} {items : List Value} {r : ρ} (h : r ∈ rowsOf read items) :
    ∃ kvs, read kvs = some r := by
  obtain ⟨item, -, hr⟩ := List.mem_filterMap.1 h
  split at hr
  · exact ⟨_, hr⟩
  · cases hr

theorem trustStore_lawful (hfold : ∀ t, casefold (casefold t) = casefold t) (str : Value → Text) (lax : Lax) :
    (trustStore casefold str lax).Lawful (fun trust => ∀ e ∈ trust.entries, IsNormalized casefold e)
      (fun _ => True) where
  sound_load := by
    intro f trust h e he
    have hrows : ∃ items, e ∈ rowsOf (TrustedHostKey.read casefold str lax) items := by
      unfold trustStore loadTrust at h
      dsimp only at h
      split at h
      · cases h
        exact ⟨_, he⟩
      · split at h
        · cases h
          exact ⟨_, he⟩
        · cases h
          exact absurd he List.not_mem_nil
      · cases h
        exact absurd he List.not_mem_nil
    obtain ⟨items, hitem⟩ := hrows
    obtain ⟨kvs, hkvs⟩ := mem_rowsOf hitem
    exact isNormalized_read hfold hkvs
  sound_change := by
    intro entry trust trust' hs _ h e he
    simp only [trustStore] at h
    split_ifs at h
    · cases h
    · cases h
      rcases HostKeyTrust.mem_add.1 he with he | rfl
      · exact hs e he
      · exact ⟨hfold _, strip_strip _⟩
  load_dump := by
    intro trust hs
    have hload : (trustStore casefold str lax).load (.document ((trustStore casefold str lax).dump trust)) =
        some ⟨rowsOf (TrustedHostKey.read casefold str lax)
          (trust.entries.map fun e => .obj (TrustedHostKey.dump e))⟩ := rfl
    rw [hload, rowsOf_entries str lax hs]
  unstorable _ h _ := absurd trivial h

end Trust

/-! ### Configured pairs -/

/-- `DirectAuthPairMetadata`. -/
structure PairRow extends PairMetadata where
  created_at : Text
  deriving DecidableEq, Repr

section Pairs
variable (casefold : Text → Text)

inductive PairOp where
  | put (record : PairRow)
  | remove (source_server_id target_server_id : Text)
  | removeServer (server_id : Text)

/-- The rows of the other pairs. -/
def otherPairs (rows : List PairRow) (key : Text × Text) : List PairRow :=
  rows.filter fun r => PairMetadata.key casefold r.toPairMetadata ≠ key

/-- The rows that mention the server neither as source nor as target. -/
def withoutServer (rows : List PairRow) (server_id : Text) : List PairRow :=
  rows.filter fun r => casefold r.source_server_id ≠ casefold server_id && casefold r.target_server_id ≠ casefold server_id

/-- The rows that remain, to be saved when one went. -/
def ifFewer (rows remaining : List PairRow) : Except Empty (Option (List PairRow)) :=
  .ok (if remaining.length < rows.length then some remaining else none)

def PairOp.change : PairOp → List PairRow → Except Empty (Option (List PairRow))
  | .put record, rows => .ok (some (otherPairs casefold rows (PairMetadata.key casefold record.toPairMetadata) ++ [record]))
  | .remove source target, rows => ifFewer rows (otherPairs casefold rows (pairKey casefold source target))
  | .removeServer server_id, rows => ifFewer rows (withoutServer casefold rows server_id)

def PairRow.dump (r : PairRow) : Members :=
  [("source_server_id".toList, .str r.source_server_id), ("target_server_id".toList, .str r.target_server_id),
    ("key_id".toList, .str r.key_id), ("remote_private_key_path".toList, .str r.remote_private_key_path),
    ("remote_public_key_path".toList, .str r.remote_public_key_path),
    ("remote_known_hosts_path".toList, .str r.remote_known_hosts_path),
    ("public_key_fingerprint".toList, .str r.public_key_fingerprint), ("created_at".toList, .str r.created_at)]

def PairRow.names : List Text :=
  ["source_server_id".toList, "target_server_id".toList, "key_id".toList, "remote_private_key_path".toList,
    "remote_public_key_path".toList, "remote_known_hosts_path".toList, "public_key_fingerprint".toList,
    "created_at".toList]

def PairRow.fields (kvs : Members) : Option PairRow := do
  let source_server_id ← needed kvs "source_server_id".toList asStr
  let target_server_id ← needed kvs "target_server_id".toList asStr
  let key_id ← needed kvs "key_id".toList asStr
  let remote_private_key_path ← needed kvs "remote_private_key_path".toList asStr
  let remote_public_key_path ← needed kvs "remote_public_key_path".toList asStr
  let remote_known_hosts_path ← needed kvs "remote_known_hosts_path".toList asStr
  let public_key_fingerprint ← needed kvs "public_key_fingerprint".toList asStr
  let created_at ← needed kvs "created_at".toList asStr
  return { source_server_id, target_server_id, key_id, remote_private_key_path, remote_public_key_path,
           remote_known_hosts_path, public_key_fingerprint, created_at }

/-- `model_validate`: the fields have no bounds. -/
def PairRow.read (kvs : Members) : Option PairRow := if Json.onlyNamed kvs PairRow.names then PairRow.fields kvs else none

/-- `DirectAuthMetadata._load`. -/
def loadPairs : File → Option (List PairRow)
  | .document (.arr items) => some (rowsOf PairRow.read items)
  | _ => some []

/-- `DirectAuthMetadata` as a store. -/
def pairStore : Store (List PairRow) PairOp Empty where
  change := PairOp.change casefold
  dump rows := .arr (rows.map fun r => .obj r.dump)
  load := loadPairs

theorem pairStore_lawful : (pairStore casefold).Lawful (fun _ => True) (fun _ => True) where
  sound_load _ := trivial
  sound_change _ _ _ := trivial
  load_dump := by
    intro rows _
    have hread : ∀ r : PairRow, PairRow.read r.dump = some r := fun _ => rfl
    exact congrArg some (rowsOf_dump hread rows)
  unstorable _ h _ := absurd trivial h

end Pairs

/-! ### The four of them -/

/-- Behind every run from a fresh instance whose operations all meet the condition, an operation is faithful
exactly when it meets the condition as well. -/
def Store.MemoryEqualsDisk {μ ω ε : Type} (st : Store μ ω ε) (Storable : ω → Prop) : Prop :=
  ∀ disk m, st.load disk.target = some m → ∀ ps, st.AllKept Storable ⟨m, disk⟩ ps →
    ∀ p, st.Faithful p (st.after ⟨m, disk⟩ ps) ↔ st.Kept Storable p (st.after ⟨m, disk⟩ ps)

lemma Store.Lawful.memoryEqualsDisk {μ ω ε : Type} {st : Store μ ω ε} {Sound : μ → Prop} {Storable : ω → Prop}
    (h : st.Lawful Sound Storable) : st.MemoryEqualsDisk Storable := by
  intro disk m hm ps hk p
  have hsynced : st.Synced ⟨m, disk⟩ := hm
  exact Store.faithful_after h (h.sound_load hm) hsynced hk p

/-- In each of the four stores an operation that returns leaves memory and file alike and one that raises leaves
both as they were, exactly when its save succeeds or it writes nothing new. -/
theorem memory_equals_disk (φ : Type) [Registry.PyFloat φ] (casefold : Text → Text)
    (hfold : ∀ t, casefold (casefold t) = casefold t) (lax : Lax) (lax_float : Value → Option φ) (str : Value → Text) :
    (Workspace.workspaceStore lax).MemoryEqualsDisk Workspace.Mutation.Storable ∧
      (Registry.registryStore casefold lax lax_float).MemoryEqualsDisk (fun _ => True) ∧
      (trustStore casefold str lax).MemoryEqualsDisk (fun _ => True) ∧
      (pairStore casefold).MemoryEqualsDisk (fun _ => True) :=
  ⟨(Workspace.workspaceStore_lawful lax).memoryEqualsDisk,
    (Registry.registryStore_lawful casefold lax lax_float).memoryEqualsDisk,
    (trustStore_lawful hfold str lax).memoryEqualsDisk, (pairStore_lawful casefold).memoryEqualsDisk⟩

/-! ### A save that fails -/

/-- Two floats, `1.0` and `2.0`. -/
instance : Registry.PyFloat Bool where
  repr x := if x then "1.0".toList else "2.0".toList
  parse t := if t = "1.0".toList then some true else if t = "2.0".toList then some false else none
  parse_repr x := by cases x <;> rfl
  isInterval _ := true

/-- No value is converted. -/
def strict : Lax := ⟨fun _ => none, fun _ => none⟩

/-- Nothing is stored yet. -/
def fresh : Disk := ⟨.missing, .missing⟩

def gateway : TrustedHostKey := ⟨"gateway".toList, 22, "ssh-ed25519".toList, "SHA256:abc".toList⟩

/-- A first consent is saved. -/
theorem memory_equals_disk_consent :
    (trustStore (fun t => t) (fun _ => []) strict).Faithful ⟨gateway, fun _ => none⟩ ⟨⟨[]⟩, fresh⟩ :=
  ((memory_equals_disk Bool (fun t => t) (fun _ => rfl) strict (fun _ => none) fun _ => []).2.2.1 fresh ⟨[]⟩ rfl []
    trivial ⟨gateway, fun _ => none⟩).2 fun _ _ => ⟨trivial, .inl rfl⟩

/-- An artifact that is inserted when the disk is full. -/
def images : Workspace.Artifact :=
  ⟨{ artifact_id := "a1".toList, kind := .dataset, name := "images".toList }, rfl⟩

/-- The write of the temporary file fails, at the third operation of the save. -/
def diskFull : ℕ → Option FileError := fun n => if n = 2 then some .os else none

theorem memory_differs_from_disk :
    ¬(Workspace.workspaceStore strict).Faithful ⟨.insertArtifact images, diskFull⟩ ⟨.empty, fresh⟩ := by
  intro h
  have herror : ((Workspace.workspaceStore strict).perform ⟨.insertArtifact images, diskFull⟩ ⟨.empty, fresh⟩).1 =
      .error (.inr .os) := rfl
  have hmemory := (h.2 _ herror).1
  exact absurd (congrArg (fun s : Workspace.Repo => s.artifacts.rows.length) hmemory) (by decide +kernel)

end SshGpuConsole.Persistence
