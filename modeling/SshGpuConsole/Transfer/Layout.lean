import SshGpuConsole.Lib.LexicalPath
import SshGpuConsole.Transfer.Batch
import SshGpuConsole.Transfer.Planner

/-!
# Where a direct job puts a directory

The direct strategy of `transfer/service.py` from `_run_rsync` to the recorded placement, and where the files of a
directory source come to lie: rsync puts them below a directory of the source's name unless its source ends with a
slash, the relay puts them below the target itself.
-/

namespace SshGpuConsole.Layout
open Shell (Text)
open Batch (TransferState)
open Planner PosixPath PyText Workspace

/-- The fields of `TransferJob` that the direct strategy reads. -/
structure Job where
  source_path : Text
  target_path : Text
  excludes : TransferExcludes

/-- What came of the directory probe. -/
inductive Probe where
  | ran (exit_code : ℤ) (stdout : Text)
  /-- A timeout, or any other exception. -/
  | raised
  deriving DecidableEq, Repr

/-- `source_is_dir`; the exit code is not looked at. -/
def Probe.sourceIsDir : Probe → Bool
  | .ran _ stdout => strip stdout = "DIR".toList
  | .raised => false

/-- How the rsync command ended. -/
inductive CommandEnd where
  | exited (code : ℤ)
  /-- The user's cancel won the race. -/
  | cancelled
  /-- A timeout, or a lost connection. -/
  | raised
  deriving DecidableEq, Repr

/-- What a direct job meets on its way. -/
structure Run where
  /-- The job is cancelled before it runs. -/
  cancelled : Bool
  /-- The plan chose the dedicated key. -/
  sgc_key : Bool
  /-- `_dedicated_key_options` -/
  options : Option DedicatedKeyOptions
  host : Text
  username : Option Text
  port : Option ℤ
  probe : Probe
  ended : CommandEnd
  /-- The job is still in the registry behind the command. -/
  found : Bool
  deriving DecidableEq, Repr

/-- What stops a direct job. -/
inductive Stop where
  | cancelRequested
  /-- "direct transfer key is no longer configured" -/
  | keyGone
  /-- "rsync exited with code {exit_code}" -/
  | exited (code : ℤ)
  | raised
  deriving DecidableEq, Repr

/-- The command of a run. -/
def command (job : Job) (run : Run) : Text :=
  buildRsyncCommand job.source_path (targetRsyncSpec run.host run.username job.target_path) run.port
    job.excludes.patterns (if run.sgc_key then run.options else none) run.probe.sourceIsDir

/-- `_run_rsync`: the command that ended with the exit code 0. -/
def runRsync (job : Job) (run : Run) : Except Stop Text := do
  if run.cancelled then throw .cancelRequested
  if run.sgc_key && run.options.isNone then throw .keyGone
  match run.ended with
  | .exited code => if code ≠ 0 then throw (.exited code) else return command job run
  | .cancelled => throw .cancelRequested
  | .raised => throw .raised

/-- What the worker leaves: the state it gave the job last, and the path of the placement it recorded. -/
structure Outcome where
  state : TransferState
  placement : Option Text
  deriving DecidableEq, Repr

/-- The worker of a direct job from the permits on; `_verify` accepts what rsync did. -/
def execute (job : Job) (run : Run) : Outcome :=
  match runRsync job run with
  | .error .cancelRequested => ⟨.cancelled, none⟩
  | .error _ => ⟨.failed, none⟩
  | .ok _ => if run.found then ⟨.completed, some job.target_path⟩ else ⟨.running, none⟩

/-! ### Where the files lie -/

/-- The directory that rsync copies the content of a directory source into. -/
def rsyncRoot (source_spec target_path : Text) : Text :=
  if endsWith source_spec '/' then target_path else child target_path (basename source_spec)

/-- Where the command of a run puts a file of the source. -/
def copied (job : Job) (run : Run) (names : List Text) : Text :=
  below (rsyncRoot (sourceSpec job.source_path run.probe.sourceIsDir) job.target_path) names

/-- Where `relay_transfer` puts it. -/
def relayed (job : Job) (names : List Text) : Text := below job.target_path names

/-- Every file lies where the relay puts it. -/
def SameLayout (job : Job) (run : Run) : Prop :=
  ∀ names, names ≠ [] → (∀ name ∈ names, Name name) → denotes (copied job run names) = denotes (relayed job names)

variable {job : Job} {run : Run}

/-- With inert patterns, rsync gets the source and the target of the run as its operands. -/
lemma command_argv (h : ∀ p ∈ job.excludes.patterns, ShellInert p) (cwd : List Text) :
    ∃ options, Shell.argv cwd (command job run) = some (options ++
      [sourceSpec job.source_path run.probe.sourceIsDir, remoteSpec run.host run.username job.target_path]) := by
  have hargv := argv_of_inert job.source_path run.host run.username job.target_path run.port job.excludes
    (if run.sgc_key then run.options else none) run.probe.sourceIsDir h cwd
  refine ⟨rsyncFlags ++ [sshOpts run.port (if run.sgc_key then run.options else none)] ++
    job.excludes.patterns.map excludeArg ++ ["--".toList], ?_⟩
  rw [List.append_assoc]
  exact hargv

/-- Files of one name in two directories are apart unless the directories are one. -/
lemma sameLayout_iff : SameLayout job run ↔
    place (rsyncRoot (sourceSpec job.source_path run.probe.sourceIsDir) job.target_path) = place job.target_path := by
  constructor
  · intro h
    have hfile : ∀ name ∈ [['f']], Name name := by
      intro name hname
      rw [List.mem_singleton.1 hname]
      exact ⟨⟨by decide, by decide, by decide⟩, by decide⟩
    have hdenotes := h [['f']] (List.cons_ne_nil _ _) hfile
    unfold copied relayed at hdenotes
    rw [denotes_below hfile (List.cons_ne_nil _ _), denotes_below hfile (List.cons_ne_nil _ _), List.foldl_cons,
      List.foldl_cons, List.foldl_nil, List.foldl_nil, Directory.enter_name (hfile _ (List.mem_singleton_self _)),
      Directory.enter_name (hfile _ (List.mem_singleton_self _))] at hdenotes
    have hrooted := congrArg Directory.rooted hdenotes
    have hcomps := List.append_cancel_right (congrArg Directory.components hdenotes)
    exact congrArg₂ Directory.mk hrooted hcomps
  · intro h names hne hnames
    unfold copied relayed
    rw [denotes_below hnames hne, denotes_below hnames hne, h]

/-- A source spec that ends with a slash. -/
lemma sourceSpec_slash_iff {source_path : Text} {is_dir : Bool} :
    endsWith (sourceSpec source_path is_dir) '/' = true ↔ endsWith source_path '/' = true ∨ is_dir = true := by
  unfold sourceSpec
  split
  · rename_i hslash
    exact iff_of_true hslash (.inl hslash)
  · rename_i hslash
    split
    · rename_i hdir
      refine iff_of_true ?_ (.inr hdir)
      unfold endsWith
      rw [List.getLast?_append]
      rfl
    · rename_i hdir
      exact iff_of_false hslash (not_or.2 ⟨hslash, hdir⟩)

lemma place_rsyncRoot_iff {source_path target_path : Text} {is_dir : Bool} :
    place (rsyncRoot (sourceSpec source_path is_dir) target_path) = place target_path ↔
      endsWith source_path '/' = true ∨ is_dir = true ∨ (place target_path).Stays (basename source_path) := by
  unfold rsyncRoot
  rw [← or_assoc, ← sourceSpec_slash_iff]
  split
  · rename_i hslash
    exact iff_of_true rfl (.inl hslash)
  · rename_i hslash
    have hspec : sourceSpec source_path is_dir = source_path := by
      rw [sourceSpec_slash_iff, not_or] at hslash
      unfold sourceSpec
      rw [if_neg hslash.1, if_neg hslash.2]
    rw [or_iff_right hslash, hspec, place_child (slash_notMem_basename source_path), Directory.enter_eq_self_iff]

/-! ### Both strategies -/

/-- A job that completes recorded its target, whatever came of the probe. -/
lemma completed_iff : (execute job run).state = .completed ↔
    execute job run = ⟨.completed, some job.target_path⟩ := by
  constructor
  · intro h
    unfold execute at h ⊢
    split at h
    · cases h
    · cases h
    · split at h
      · rename_i hfound
        exact if_pos hfound
      · cases h
  · exact fun h => congrArg Outcome.state h

/-- A run in which nothing but the probe matters. -/
def plainRun (probe : Probe) : Run :=
  { cancelled := false
    sgc_key := false
    options := none
    host := "host-b".toList
    username := none
    port := none
    probe := probe
    ended := .exited 0
    found := true }

lemma plainRun_probe (probe : Probe) : (plainRun probe).probe = probe := rfl

lemma execute_plainRun (job : Job) (probe : Probe) :
    execute job (plainRun probe) = ⟨.completed, some job.target_path⟩ := rfl

/-- A directory, and where it is to lie. -/
def dataSet : Job where
  source_path := "/data/set".toList
  target_path := "/srv/set".toList
  excludes := ⟨[], by decide⟩

end SshGpuConsole.Layout
