import SshGpuConsole.Lib.Json
import SshGpuConsole.Lib.PyText
import SshGpuConsole.Ssh.FileTransfer

/-!
# The local relay

`transfer/strategies/local_relay.py` on a root that is a single file: the bytes go to a staged file next to
the target, a sidecar says what the staged file is a copy of, and the staged file is renamed over the
target at the end. A later run resumes onto a staged file whose sidecar describes the current source.
-/

namespace SshGpuConsole.LocalRelay
open Shell (Text)
open Effect PosixPath PyText Ssh

/-- `partial_name`. -/
def partialName (filename : Text) : Text := '.' :: filename ++ ".sgc-partial".toList

/-- `meta_name`. -/
def metaName (filename : Text) : Text := '.' :: filename ++ ".sgc-meta".toList

/-- The directory of the target. -/
def targetDirectory (target_path : Text) : Text :=
  if dirname target_path = [] then ".".toList else dirname target_path

/-- The staged file of a target. -/
def partialPath (target_path : Text) : Text :=
  targetDirectory target_path ++ '/' :: partialName (basename target_path)

/-- The sidecar of a target. -/
def metaPath (target_path : Text) : Text :=
  targetDirectory target_path ++ '/' :: metaName (basename target_path)

/-- `_META_MAX_BYTES`. -/
def metaMaxBytes : Nat := 64 * 1024

/-- The fields of `TransferJob` the relay reads. -/
structure Job where
  job_id : Text
  artifact_id : Text
  source_path : Text
  target_path : Text
  deriving DecidableEq, Repr

/-- The fields of `TransferJob` the relay writes; rates and estimates are left out. -/
structure Counters where
  current_path : Option Text := none
  files_total : Option Nat := none
  files_done : Nat := 0
  files_skipped : Nat := 0
  bytes_total : Option Nat := none
  bytes_done : Nat := 0
  bytes_skipped : Nat := 0
  resumed_bytes : Nat := 0
  deriving DecidableEq, Repr

/-- What the relay does with its job: it asks whether another task cancelled it, and it counts. -/
inductive JobOp where
  | isCancelled
  | update (f : Counters → Counters)

@[reducible] def JobOp.Ans : JobOp → Type
  | .isCancelled => Bool
  | .update _ => Unit

/-- The job as an environment: a cancellation may be seen at any check. -/
def jobs : Sem JobOp JobOp.Ans Exn Counters Choice where
  act
    | .isCancelled, c, t => (.ok c.fails.isSome, t)
    | .update f, _, t => (.ok (), f t)

/-- The environment of the relay. -/
def relay : Sem (SideOp ⊕ JobOp) (Sum.elim SideOp.Ans JobOp.Ans) Exn (Servers × Counters) Choice :=
  sftp.sum jobs

abbrev Relay (α : Type) := Prog (SideOp ⊕ JobOp) (Sum.elim SideOp.Ans JobOp.Ans) Exn α

instance : MonadLift Sftp Relay := ⟨Prog.liftL⟩

/-- Call one operation of the job. -/
def onJob (o : JobOp) : Relay o.Ans := Prog.perform (Sum.inr o : SideOp ⊕ JobOp)

/-- `is_cancelled(job)`. -/
def isCancelled : Relay Bool := onJob .isCancelled

def update (f : Counters → Counters) : Relay Unit := onJob (.update f)

/-! ### The sidecar -/

/-- The text of the sidecar: what a staged file is a copy of. -/
def metaText (artifact_id source_path target_path : Text) (source_size source_mtime : Nat) : Text :=
  Json.dumps
    [("artifact_id".toList, .str artifact_id), ("source_path".toList, .str source_path),
      ("target_path".toList, .str target_path), ("source_size_b".toList, .nat source_size),
      ("source_mtime_s".toList, .nat source_mtime)]

/-- `_write_meta`. -/
def writeMeta (job : Job) (meta_path source_path target_path : Text) (source_size source_mtime : Nat) :
    Sftp Unit := do
  let payload := encodeUtf8 (metaText job.artifact_id source_path target_path source_size source_mtime)
  let writer ← openWriter .target meta_path
  Prog.handle
    (do
      let writer ← writer.write payload
      writer.close)
    fun e => do
      writer.closeQuiet
      throw e

/-- The loop of `_read_meta`; a chunk that is not the last has a byte, so `metaMaxBytes` rounds do. -/
def readChunks : Nat → Handle → Bytes → Sftp Bytes
  | 0, _, received => pure received
  | n + 1, reader, received =>
    if received.length < metaMaxBytes then do
      let (chunk, reader) ← reader.read 4096
      if chunk = [] then pure received else readChunks n reader (received ++ chunk)
    else pure received

/-- `_read_meta`: what is missing or corrupt counts as absent. -/
def readMeta (meta_path : Text) : Sftp (Option (List (Text × Json.Value))) :=
  Prog.handle
    (do
      let reader ← openReader .target meta_path
      let data ← Prog.andFinally (readChunks metaMaxBytes reader []) reader.closeQuiet
      match (decodeUtf8 data).bind Json.loads with
      | some (.obj kvs) => pure (some kvs)
      | _ => pure none)
    fun e => if e.isException then pure none else throw e

/-- `meta[key] == text`. -/
def hasText (kvs : List (Text × Json.Value)) (key text : Text) : Bool :=
  match (kvs.find? (·.1 = key)).map Prod.snd with
  | some (.str t) => t = text
  | _ => false

/-- `meta[key] == n`; a Boolean equals the number it is. -/
def hasNat (kvs : List (Text × Json.Value)) (key : Text) (n : Nat) : Bool :=
  match (kvs.find? (·.1 = key)).map Prod.snd with
  | some (.int m) => m = n
  | some (.bool b) => b.toNat = n
  | _ => false

/-- `_META_KEYS`. -/
def metaKeys : List Text :=
  ["artifact_id", "source_path", "target_path", "source_size_b", "source_mtime_s"].map String.toList

/-- `_meta_matches`. -/
def metaMatches (kvs : Option (List (Text × Json.Value))) (artifact_id source_path target_path : Text)
    (source_size source_mtime : Nat) : Bool :=
  match kvs with
  | none => false
  | some kvs =>
    metaKeys.all (fun k => kvs.any (·.1 = k)) && kvs.all (fun kv => metaKeys.contains kv.1) &&
      hasText kvs "artifact_id".toList artifact_id && hasText kvs "source_path".toList source_path &&
      hasText kvs "target_path".toList target_path && hasNat kvs "source_size_b".toList source_size &&
      hasNat kvs "source_mtime_s".toList source_mtime

/-- `_resume_offset`. -/
def resumeOffset (job : Job) (partial_path meta_path source_path target_path : Text)
    (source_size source_mtime : Nat) : Sftp Nat := do
  let partial_stat ← lstat .target partial_path
  if !partial_stat.exists_ || partial_stat.is_dir || partial_stat.size_b ≤ 0 then pure 0
  else
    let kvs ← readMeta meta_path
    if !metaMatches kvs job.artifact_id source_path target_path source_size source_mtime then pure 0
    else if partial_stat.size_b > source_size then pure 0
    else pure partial_stat.size_b

/-! ### The copy -/

/-- `transfer_chunk_size_b`, with the bounds of the settings. -/
structure ChunkSize where
  bytes : Nat
  min : 65536 ≤ bytes
  max : bytes ≤ 64 * 1048576

/-- The copy loop, for at most so many rounds; the handles are those behind the last chunk. -/
def copyLoop (chunk_size : ChunkSize) : Nat → Handle → Handle → Relay Unit
  | 0, _, _ => pure ()
  | n + 1, reader, writer => do
    if ← isCancelled then throw .cancelRequested
    let (chunk, reader) ← (reader.read chunk_size.bytes : Sftp _)
    if chunk = [] then pure ()
    else
      let writer ← (writer.write chunk : Sftp _)
      update fun t => { t with bytes_done := t.bytes_done + chunk.length }
      copyLoop chunk_size n reader writer

/-- `_relay_file`. Every round of the loop but the last copies a byte, so it has a round for each byte and
one more. -/
def relayFile (job : Job) (source_path target_path : Text) (chunk_size : ChunkSize) : Relay Unit := do
  update fun t => { t with current_path := some source_path }
  mkdir .target (targetDirectory target_path)
  let partial_path := partialPath target_path
  let meta_path := metaPath target_path
  let source_stat ← (stat .source source_path : Sftp _)
  let source_size := source_stat.size_b
  let source_mtime := source_stat.mtime_s
  let resume_from ←
    (resumeOffset job partial_path meta_path source_path target_path source_size source_mtime : Sftp _)
  if resume_from > 0 then
    update fun t =>
      { t with resumed_bytes := t.resumed_bytes + resume_from, bytes_done := t.bytes_done + resume_from }
  else
    writeMeta job meta_path source_path target_path source_size source_mtime
  let reader ← (openReader .source source_path resume_from : Sftp _)
  let writer ← (openWriter .target partial_path resume_from : Sftp _)
  Prog.handle
    (do
      copyLoop chunk_size (source_size + 1) reader writer
      writer.close
      reader.close)
    fun e => do
      reader.closeQuiet
      writer.closeQuiet
      throw e
  rename .target partial_path target_path
  Prog.liftL (Prog.suppress Exn.isException (remove .target meta_path))
  if source_mtime > 0 then
    Prog.liftL (Prog.suppress Exn.isException (setMtime .target target_path source_mtime))

/-- `_is_up_to_date`. -/
def isUpToDate (source_stat target_stat : FileStat) : Bool :=
  target_stat.exists_ && !target_stat.is_dir && !target_stat.is_symlink &&
    target_stat.size_b = source_stat.size_b && source_stat.mtime_s > 0 &&
    target_stat.mtime_s = source_stat.mtime_s

/-- `relay_transfer`; `relayTree` is what it does with a root that is a directory. -/
def relayTransfer (relayTree : Job → ChunkSize → Relay Unit) (job : Job) (chunk_size : ChunkSize) :
    Relay Unit := do
  let source_stat ← (stat .source job.source_path : Sftp _)
  if !source_stat.exists_ then throw .fileNotFound
  if !source_stat.is_dir then
    let target_stat ← (lstat .target job.target_path : Sftp _)
    if isUpToDate source_stat target_stat then
      update fun t =>
        { t with
          files_total := some 1, files_done := 1, files_skipped := 1, bytes_total := some source_stat.size_b,
          bytes_done := source_stat.size_b, bytes_skipped := source_stat.size_b, current_path := none }
    else
      update fun t => { t with files_total := some 1, bytes_total := some source_stat.size_b }
      relayFile job job.source_path job.target_path chunk_size
      update fun t => { t with files_done := 1, current_path := none }
  else relayTree job chunk_size

/-! ### The scratch paths are apart -/

lemma basename_partialPath (t : Text) : basename (partialPath t) = partialName (basename t) := by
  refine basename_append _ fun h => ?_
  rcases List.mem_append.1 (show '/' ∈ ('.' :: basename t) ++ ".sgc-partial".toList from h) with h | h
  · exact slash_notMem_basename t ((List.mem_cons.1 h).resolve_left (by decide))
  · exact absurd h (by decide)

lemma basename_metaPath (t : Text) : basename (metaPath t) = metaName (basename t) := by
  refine basename_append _ fun h => ?_
  rcases List.mem_append.1 (show '/' ∈ ('.' :: basename t) ++ ".sgc-meta".toList from h) with h | h
  · exact slash_notMem_basename t ((List.mem_cons.1 h).resolve_left (by decide))
  · exact absurd h (by decide)

lemma length_partialName (t : Text) : (partialName t).length = t.length + 13 := by
  simp [partialName]

lemma length_metaName (t : Text) : (metaName t).length = t.length + 10 := by
  simp [metaName]

lemma partialPath_ne_target (t : Text) : partialPath t ≠ t := by
  intro h
  have hlen := congrArg (fun p => (basename p).length) h
  simp only [basename_partialPath, length_partialName] at hlen
  omega

lemma metaPath_ne_target (t : Text) : metaPath t ≠ t := by
  intro h
  have hlen := congrArg (fun p => (basename p).length) h
  simp only [basename_metaPath, length_metaName] at hlen
  omega

lemma metaPath_ne_partialPath (t : Text) : metaPath t ≠ partialPath t := by
  intro h
  have hlen := congrArg (fun p => (basename p).length) h
  simp only [basename_metaPath, basename_partialPath, length_metaName, length_partialName] at hlen
  omega

end SshGpuConsole.LocalRelay
