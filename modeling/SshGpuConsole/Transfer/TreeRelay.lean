import SshGpuConsole.Transfer.ResumeRuns
import SshGpuConsole.Transfer.TreeWalks

/-!
# The relay of a directory

`relay_transfer` (`transfer/strategies/local_relay.py`) on a root that is a directory, as a program: the walk that counts
(`_count_tree`), the walk that copies (`_relay_dir`), and what both tell the job. Every call may fail, also with an
effect, and the job may be cancelled at every check.
-/

namespace SshGpuConsole.LocalRelay
open Shell (Text)
open Effect PosixPath Ssh TreeWalks

/-- What the walks ask of the source, and the warnings of the job. -/
inductive WalkOp where
  | listdir (dir : Text)
  | lstat (path : Text)
  /-- `job.warnings.append`, up to `_WARNINGS_MAX` of them -/
  | warn (text : Text)
  deriving DecidableEq, Repr

@[reducible] def WalkOp.Ans : WalkOp → Type
  | .listdir _ => List Text
  | .lstat _ => FileStat
  | .warn _ => Unit

/-- The source tree as an environment, with the warnings of the job. -/
def walks (tree : SourceTree) : Sem WalkOp WalkOp.Ans Exn (List Text) Choice where
  act
    | .listdir dir, c, warnings =>
      (match c.fails, tree.listdir dir with
        | some e, _ => .error e
        | none, none => .error .sftp
        | none, some names => .ok names, warnings)
    | .lstat path, c, warnings =>
      (match c.fails with
        | some e => .error e
        | none => .ok (tree.lstat path), warnings)
    | .warn text, _, warnings => (.ok (), if warnings.length < warningsMax then warnings ++ [text] else warnings)

/-- The environment of a relay of a directory. -/
def relayOf (tree : SourceTree) : Sem ((SideOp ⊕ JobOp) ⊕ WalkOp) (Sum.elim (Sum.elim SideOp.Ans JobOp.Ans) WalkOp.Ans)
    Exn ((Servers × Counters) × List Text) Choice :=
  relay.sum (walks tree)

abbrev Walk (α : Type) := Prog ((SideOp ⊕ JobOp) ⊕ WalkOp) (Sum.elim (Sum.elim SideOp.Ans JobOp.Ans) WalkOp.Ans) Exn α

instance : MonadLift Relay Walk := ⟨Prog.liftL⟩

/-- Call one operation of the walk. -/
def onWalk (o : WalkOp) : Walk o.Ans := Prog.perform (Sum.inr o : (SideOp ⊕ JobOp) ⊕ WalkOp)

section
variable (job : Job) (chunk_size : ChunkSize) (excludes : List Text)

/-! ### The walk that counts -/

/-- The loop of `_count_tree` over the names of a directory. -/
def countEntries (current : Text) : List Text → List Text → ℕ × ℕ → Walk (List Text × ℕ × ℕ)
  | [], stack, totals => pure (stack, totals)
  | name :: names, stack, (files, bytes_total) =>
    if !kept excludes name then countEntries current names stack (files, bytes_total)
    else do
      let stat ← onWalk (.lstat (child current name))
      if !stat.exists_ then countEntries current names stack (files, bytes_total)
      else if stat.is_dir then countEntries current names (child current name :: stack) (files, bytes_total)
      else if !stat.is_symlink then countEntries current names stack (files + 1, bytes_total + stat.size_b)
      else countEntries current names stack (files, bytes_total)

/-- `_count_tree`, from a stack on and for at most so many directories. -/
def countTree : ℕ → List Text → ℕ × ℕ → Walk (Option (ℕ × ℕ))
  | _, [], totals => pure (some totals)
  | 0, _ :: _, _ => pure none
  | n + 1, current :: stack, totals => do
    if ← (isCancelled : Relay _) then throw .cancelRequested
    let names ← onWalk (.listdir current)
    let walk ← countEntries excludes current names stack totals
    countTree n walk.1 walk.2

/-! ### The walk that copies -/

/-- A file of the tree: it is copied, unless the target has it. -/
def relayChild (source_child target_child : Text) (child_stat : FileStat) : Relay Unit := do
  let target_stat ← (lstat .target target_child : Sftp _)
  if isUpToDate child_stat target_stat then
    update fun t =>
      { t with
        files_done := t.files_done + 1, files_skipped := t.files_skipped + 1,
        bytes_done := t.bytes_done + child_stat.size_b, bytes_skipped := t.bytes_skipped + child_stat.size_b }
  else
    relayFile job source_child target_child chunk_size
    update fun t => { t with files_done := t.files_done + 1 }

/-- The loop of `_relay_dir` over the names of a directory; not when a directory is too deep. -/
def relayEntries (descend : Text → Text → Walk Bool) (source_dir target_dir : Text) : List Text → Walk Bool
  | [] => pure true
  | name :: names =>
    if !kept excludes name then relayEntries descend source_dir target_dir names
    else do
      if ← (isCancelled : Relay _) then throw .cancelRequested
      let child_stat ← onWalk (.lstat (child source_dir name))
      if !child_stat.exists_ then relayEntries descend source_dir target_dir names
      else if child_stat.is_symlink then do
        onWalk (.warn ("skipped symlink: ".toList ++ child source_dir name))
        relayEntries descend source_dir target_dir names
      else if child_stat.is_dir then do
        if ← descend (child source_dir name) (child target_dir name) then relayEntries descend source_dir target_dir names
        else pure false
      else do
        (relayChild job chunk_size (child source_dir name) (child target_dir name) child_stat : Relay _)
        relayEntries descend source_dir target_dir names

/-- `_relay_dir`, in a tree that is at most so deep. -/
def relayDirectory : ℕ → Text → Text → Walk Bool
  | 0, _, _ => pure false
  | n + 1, source_dir, target_dir => do
    (mkdir .target target_dir : Sftp _)
    let names ← onWalk (.listdir source_dir)
    relayEntries job chunk_size excludes (relayDirectory n) source_dir target_dir names

/-- `relay_transfer` of a directory, in a tree of at most so many directories and so deep; whether it was. -/
def relayTree (dirs depth : ℕ) : Walk Bool := do
  (mkdir .target job.target_path : Sftp _)
  match ← countTree excludes dirs [job.source_path] (0, 0) with
  | none => pure false
  | some (files_total, bytes_total) => do
    (update fun t => { t with files_total := some files_total, bytes_total := some bytes_total } : Relay _)
    if ← relayDirectory job chunk_size excludes depth job.source_path job.target_path then do
      (update fun t => { t with current_path := none } : Relay _)
      pure true
    else pure false

end
end SshGpuConsole.LocalRelay
