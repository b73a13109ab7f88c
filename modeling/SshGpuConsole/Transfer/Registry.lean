import SshGpuConsole.Lib.Dict
import SshGpuConsole.Lib.PosixPath
import SshGpuConsole.Transfer.Batch
import SshGpuConsole.Workspace.Distribution

/-!
# The registry of transfer jobs

`JobRegistry` (`transfer/state.py`): the active jobs, a bounded history, a lock for each target that is written to,
and the tasks of the workers. A job is one object that the containers share: its fields are kept once, under the
number of its creation, and the containers hold numbers.
-/

namespace SshGpuConsole.Transfers
open Shell (Text)
open Batch (TransferState)
open Workspace (TransferStrategy)

/-- `_target_key`: one directory, however its path is written. -/
def targetKey (server_id path : Text) : Text × Text :=
  let trimmed := PosixPath.rstripSlash (PosixPath.normpath path)
  (server_id, if trimmed = [] then ['/'] else trimmed)

/-- The fields of `TransferJob` that the registry and the worker read and write. -/
structure TransferJob where
  source_server_id : Text
  target_server_id : Text
  target_path : Text
  state : TransferState := .queued
  strategy_used : Option TransferStrategy := none
  deriving DecidableEq, Repr

instance : Inhabited TransferJob := ⟨{ source_server_id := [], target_server_id := [], target_path := [] }⟩

def TransferJob.key (job : TransferJob) : Text × Text := targetKey job.target_server_id job.target_path

structure JobRegistry where
  /-- The jobs, under the numbers of their creation. -/
  job : ℕ → TransferJob := fun _ => default
  /-- How many jobs were created. -/
  count : ℕ := 0
  /-- `_active` -/
  active : List ℕ := []
  /-- `_history`, the newest job first. -/
  history : List ℕ := []
  /-- `_target_locks` -/
  target_locks : Dict (Text × Text) ℕ := []
  /-- The keys of `_tasks`. -/
  tasks : List ℕ := []

namespace JobRegistry
variable (r : JobRegistry) (limit : ℕ) (j : ℕ)

/-- `find` finds the job. -/
def find : Bool := r.active.contains j || r.history.contains j

/-- `job.state = state` -/
def setState (state : TransferState) : JobRegistry :=
  { r with job := Function.update r.job j { r.job j with state } }

/-- `_release_target_lock` -/
def releaseTargetLock : JobRegistry :=
  if r.target_locks.get (r.job j).key = some j then { r with target_locks := r.target_locks.pop (r.job j).key } else r

/-- `_archive`; the deque drops what is beyond its `maxlen`. -/
def archive : JobRegistry :=
  { r with active := r.active.filter (· ≠ j), history := (j :: r.history).take limit }

/-- `transition` -/
def transition (state : TransferState) : JobRegistry :=
  if state.terminal then ((r.setState j state).releaseTargetLock j).archive limit j else r.setState j state

/-- `fail` -/
def fail : JobRegistry := r.transition limit j .failed

/-- The states in which a job can be cancelled. -/
def cancellable : TransferState → Bool
  | .queued | .planning | .running | .verifying => true
  | _ => false

/-- `create`, of a job whose target is not locked; its task is bound at once. -/
def create (job : TransferJob) : JobRegistry :=
  { r with
    job := Function.update r.job r.count job
    count := r.count + 1
    active := r.active ++ [r.count]
    target_locks := r.target_locks.set job.key r.count
    tasks := r.tasks ++ [r.count] }

/-- `clear_history` -/
def clearHistory : JobRegistry :=
  { r with history := r.history.filter fun j => !(r.job j).state.terminal }

/-- The loop of `cancel_all` over the jobs still to come, and whether it raises: a transition takes its job out of the
table under the iterator, which raises when it is asked for the next job, also behind the last. -/
def cancelLoop : List ℕ → JobRegistry × Bool
  | [] => (r, false)
  | j :: jobs => if cancellable (r.job j).state then (r.transition limit j .cancelled, true) else cancelLoop jobs

/-- `cancel_all` -/
def cancelAll : JobRegistry × Bool := r.cancelLoop limit r.active

/-- `list_jobs` -/
def listJobs : List ℕ := r.active ++ r.history

/-- `target_lock_holder` -/
def targetLockHolder (server_id path : Text) : Option ℕ := r.target_locks.get (targetKey server_id path)

end JobRegistry

/-- A job can be cancelled as long as it is not at its end. -/
lemma cancellable_eq (state : TransferState) : JobRegistry.cancellable state = !state.terminal := by
  cases state <;> rfl

end SshGpuConsole.Transfers
