import SshGpuConsole.Lib.Runs
import SshGpuConsole.Transfer.Registry

/-!
# The transfer service

`TransferService` (`transfer/service.py`): the workers of its jobs on one event loop, with the semaphores they hold
permits of. A worker runs from one await to the next; what it awaits is a permit, or an answer of the environment: a
plan, a probe, the copy, the command, the verification. The loop resumes the workers in the order in which what they
await came in. Between any two steps of a worker, jobs may be created and cancelled, the history cleared, and the
service stopped.
-/

namespace SshGpuConsole.Transfers
open Shell (Text)
open Batch (TransferState)
open Workspace (TransferStrategy)

/-- The bounds of the settings. -/
structure Settings where
  max_transfers_global : ℕ
  max_transfers_per_server : ℕ
  transfer_job_history : ℕ
  global_bounds : 1 ≤ max_transfers_global ∧ max_transfers_global ≤ 16
  per_server_bounds : 1 ≤ max_transfers_per_server ∧ max_transfers_per_server ≤ 8
  history_bounds : 10 ≤ transfer_job_history ∧ transfer_job_history ≤ 1000

/-- What a worker takes a permit of. -/
inductive Permit where
  /-- `_global_slot` -/
  | overall
  /-- `source_slot` -/
  | source
  /-- `target_slot` -/
  | target
  deriving DecidableEq, Repr

instance : Fintype Permit := ⟨{.overall, .source, .target}, fun p => by cases p <;> decide⟩

/-- What has a semaphore. -/
inductive Resource where
  | service
  | server (server_id : Text)
  deriving DecidableEq, Repr

/-- What a worker may be stopped by. -/
inductive Failure where
  | conflict
  /-- `CancelRequested` -/
  | cancelRequested
  /-- Any other `Exception`. -/
  | error
  /-- `asyncio.CancelledError` -/
  | cancelled
  deriving DecidableEq, Repr

/-- What the code between two awaits may raise. -/
inductive Fault where
  | conflict
  | error
  deriving DecidableEq, Repr

def Fault.failure : Fault → Failure
  | .conflict => .conflict
  | .error => .error

/-- How a stretch of a worker ends. -/
abbrev Ending := Option Failure

/-- Where a worker is suspended. -/
inductive Phase where
  /-- The task has not run. -/
  | start
  /-- In `acquire` of a semaphore. -/
  | slot (permit : Permit)
  /-- In `plan_transfer`. -/
  | planning
  /-- In the probe of `_preflight_space`. -/
  | preflight
  /-- In `_run_rsync`, before the command. -/
  | preparing
  /-- In `_run_rsync`, at the command. -/
  | command
  /-- In `_relay_sessions`. -/
  | sessions
  /-- In `relay_transfer`. -/
  | copying
  /-- In the `finally` behind the copy or the command. -/
  | closing (ending : Ending)
  /-- In `quick_verify`. -/
  | verifying
  /-- The task is done. -/
  | finished
  deriving DecidableEq, Repr

/-- What a worker is resumed with. -/
inductive Answer where
  /-- The task starts, or the permit is there, or the call is done. -/
  | done
  /-- The plan: its strategy, and whether its space has to be probed for. -/
  | plan (strategy : Option TransferStrategy) (probes : Bool)
  /-- The target exists, or the transfer is verified. -/
  | yes
  | no
  | raised (failure : Failure)
  deriving DecidableEq, Repr

/-- The task of a job. -/
structure Worker where
  phase : Phase := .start
  held : Permit → Bool := fun _ => false
  /-- `task.cancel()` was called, and the task has not been told. -/
  interrupted : Bool := false

/-- `asyncio.Semaphore` -/
structure Semaphore where
  value : ℕ
  waiters : List ℕ := []

structure Service where
  jobs : JobRegistry := {}
  worker : ℕ → Worker := fun _ => {}
  semaphore : Resource → Semaphore
  /-- `_cancel_events`, and whether they are set. -/
  cancel_events : Dict ℕ Bool := []
  /-- The workers the loop is about to resume. -/
  ready : List (ℕ × Answer) := []
  stopped : Bool := false
  /-- The jobs whose target placement was recorded. -/
  placements : List ℕ := []

inductive Event where
  /-- `create` of a job that passes its checks; a retry is one as well. -/
  | create (source_server_id target_server_id target_path : Text)
  | cancel (job_id : ℕ)
  | clearHistory
  | stop
  /-- What a worker awaits of the environment comes in. -/
  | complete (job_id : ℕ) (answer : Answer)
  /-- The loop resumes the next worker; the fault is what the code up to its next await raises, if it does. -/
  | run (fault : Option Fault)

/-- How many permits there are. -/
def Settings.capacity (settings : Settings) : Resource → ℕ
  | .service => settings.max_transfers_global
  | .server _ => settings.max_transfers_per_server

/-- The service before any job; the slots of a server are there as if they had been made. -/
def Service.init (settings : Settings) : Service where
  semaphore resource := { value := settings.capacity resource }

namespace Service
variable (settings : Settings) (σ : Service) (j : ℕ)

/-- What a permit of a job is of. -/
def resource (p : Permit) : Resource :=
  match p with
  | .overall => .service
  | .source => .server (σ.jobs.job j).source_server_id
  | .target => .server (σ.jobs.job j).target_server_id

def setWorker (w : Worker) : Service := { σ with worker := Function.update σ.worker j w }

def setPhase (phase : Phase) : Service := σ.setWorker j { σ.worker j with phase }

def setSemaphore (resource : Resource) (s : Semaphore) : Service :=
  { σ with semaphore := Function.update σ.semaphore resource s }

/-! ### Semaphores -/

/-- The worker waits for the resource, and its future is pending. -/
def pending (resource : Resource) : Bool :=
  match (σ.worker j).phase with
  | .slot p => σ.resource j p = resource && !(σ.worker j).held p && !(σ.worker j).interrupted
  | _ => false

/-- The future of a waiter was cancelled. -/
def gone : Bool :=
  match (σ.worker j).phase with
  | .slot p => !(σ.worker j).held p && (σ.worker j).interrupted
  | _ => true

/-- `locked` -/
def locked (resource : Resource) : Bool :=
  (σ.semaphore resource).value = 0 || (σ.semaphore resource).waiters.any fun k => !σ.gone k

/-- A permit goes to the worker. -/
def take (p : Permit) : Service :=
  let resource := σ.resource j p
  (σ.setSemaphore resource { σ.semaphore resource with value := (σ.semaphore resource).value - 1 }).setWorker j
    { σ.worker j with held := Function.update (σ.worker j).held p true }

/-- The permit that a worker waits for. -/
def awaited : Option Permit :=
  match (σ.worker j).phase with
  | .slot p => some p
  | _ => none

/-- `_wake_up_next`, of a semaphore that has a permit. -/
def wakeNext (resource : Resource) : Service :=
  if (σ.semaphore resource).value = 0 then σ
  else
    match (σ.semaphore resource).waiters.find? fun k => σ.pending k resource with
    | none => σ
    | some k =>
      match σ.awaited k with
      | none => σ
      | some p => { σ.take k p with ready := σ.ready ++ [(k, .done)] }

/-- Wake as many as there are permits for. -/
def wakeAll (resource : Resource) : ℕ → Service → Service
  | 0, σ => σ
  | n + 1, σ => wakeAll resource n (σ.wakeNext resource)

/-- A permit goes back. -/
def giveBack (p : Permit) : Service :=
  let resource := σ.resource j p
  (σ.setSemaphore resource { σ.semaphore resource with value := (σ.semaphore resource).value + 1 }).setWorker j
    { σ.worker j with held := Function.update (σ.worker j).held p false }

/-- `release` -/
def release (p : Permit) : Service := (σ.giveBack j p).wakeNext (σ.resource j p)

/-- The worker joins the waiters of a semaphore. -/
def park (p : Permit) : Service :=
  let resource := σ.resource j p
  (σ.setSemaphore resource { σ.semaphore resource with waiters := (σ.semaphore resource).waiters ++ [j] }).setPhase j
    (.slot p)

/-- The worker leaves the waiters of a semaphore. -/
def unpark (p : Permit) : Service :=
  let resource := σ.resource j p
  σ.setSemaphore resource { σ.semaphore resource with waiters := (σ.semaphore resource).waiters.erase j }

/-- The end of `acquire`: newcomers that had to wait behind others are woken. -/
def wakeWaiters (resource : Resource) : Service := wakeAll resource (σ.semaphore resource).waiters.length σ

/-! ### The worker -/

/-- `_jobs.transition` -/
def transition (state : TransferState) : Service :=
  { σ with jobs := σ.jobs.transition settings.transfer_job_history j state }

/-- The task is done, behind its `finally`. -/
def finish : Service := { σ with cancel_events := σ.cancel_events.pop j }.setPhase j .finished

/-- `_run_job` behind `_plan_and_run`. -/
def leave (ending : Ending) : Service :=
  let σ := σ.release j .overall
  let σ := match ending with
    | none => σ
    | some .cancelled => σ.transition settings j .cancelled
    | some .conflict => σ.transition settings j .failed
    | some _ => if (σ.jobs.job j).state = TransferState.cancelled then σ else σ.transition settings j .failed
  σ.finish j

/-- The end of `_plan_and_run`: a verified job is completed, and its placement recorded. -/
def complete : Service :=
  leave settings { σ.transition settings j .completed with placements := σ.placements ++ [j] } j none

/-- Behind `_verify`. -/
def verified (ok : Bool) : Service :=
  if ok then σ.complete settings j else leave settings (σ.transition settings j .failed) j none

/-- Behind the copy or the command: the slots are released, and what was copied is verified. -/
def leaveSlots (ending : Ending) : Service :=
  match ending with
  | some .cancelRequested =>
    let σ := if (σ.jobs.job j).state = TransferState.cancelled then σ else σ.transition settings j .cancelled
    leave settings ((σ.release j .target).release j .source) j none
  | some failure => leave settings ((σ.release j .target).release j .source) j (some failure)
  | none =>
    let σ := (σ.release j .target).release j .source
    if !σ.jobs.find j then σ.leave settings j none
    else
      let σ := σ.transition settings j .verifying
      -- what rsync copied is not verified again
      if (σ.jobs.job j).strategy_used = some .directRsync then σ.complete settings j else σ.setPhase j .verifying

/-- Behind both slots. -/
def inSlots (fault : Option Fault) : Service :=
  if !σ.jobs.find j then leave settings ((σ.release j .target).release j .source) j none
  else if (σ.jobs.job j).strategy_used = some .directRsync then
    if (σ.jobs.job j).state = TransferState.cancelled then σ.leaveSlots settings j (some .cancelRequested)
    else
      let σ := σ.transition settings j .running
      match fault with
      | some fault => σ.leaveSlots settings j (some fault.failure)
      | none => σ.setPhase j .preparing
  else (σ.transition settings j .running).setPhase j .sessions

/-- `async with target_slot` -/
def tryTarget (fault : Option Fault) : Service :=
  if σ.locked (σ.resource j .target) then σ.park j .target else (σ.take j .target).inSlots settings j fault

/-- `async with source_slot` -/
def trySource (fault : Option Fault) : Service :=
  if σ.locked (σ.resource j .source) then σ.park j .source else (σ.take j .source).tryTarget settings j fault

/-- Behind `plan_transfer`. -/
def planned (strategy : Option TransferStrategy) (probes : Bool) (fault : Option Fault) : Service :=
  if !σ.jobs.find j then σ.leave settings j none
  else
    match strategy with
    | none => leave settings (σ.transition settings j .failed) j none
    | some strategy =>
      let job := { σ.jobs.job j with strategy_used := some strategy }
      let σ := { σ with jobs := { σ.jobs with job := Function.update σ.jobs.job j job } }
      if probes then σ.setPhase j .preflight else σ.trySource settings j fault

/-- `_plan_and_run` up to its first await. -/
def planAndRun (fault : Option Fault) : Service :=
  if !σ.jobs.find j then σ.leave settings j none
  else
    let σ := σ.transition settings j .planning
    match fault with
    | some fault => σ.leave settings j (some fault.failure)
    | none => σ.setPhase j .planning

/-- `_run_job` up to its first await. -/
def runJob (fault : Option Fault) : Service :=
  if σ.locked (σ.resource j .overall) then σ.park j .overall else (σ.take j .overall).planAndRun settings j fault

/-- Behind `acquire`: with the permit. -/
def passSlot (p : Permit) (fault : Option Fault) : Service :=
  let resource := σ.resource j p
  let σ := (σ.unpark j p).wakeWaiters resource
  match p with
  | .overall => σ.planAndRun settings j fault
  | .source => σ.tryTarget settings j fault
  | .target => σ.inSlots settings j fault

/-- Cancelled in `acquire`: a permit that came first goes back. -/
def abandonSlot (p : Permit) : Service :=
  let resource := σ.resource j p
  let σ := σ.unpark j p
  let σ := (if (σ.worker j).held p then σ.giveBack j p else σ).wakeWaiters resource
  match p with
  -- `async with` of the service's semaphore was not entered
  | .overall => (σ.transition settings j .cancelled).finish j
  | .source => σ.leave settings j (some .cancelled)
  | .target => (σ.release j .source).leave settings j (some .cancelled)

/-- A worker is resumed. -/
def resume (answer : Answer) (fault : Option Fault) : Service :=
  match (σ.worker j).phase, answer with
  -- a task that is cancelled before it has run does not run
  | .start, .raised _ => σ.setPhase j .finished
  | .start, _ => σ.runJob settings j fault
  | .slot p, .raised _ => σ.abandonSlot settings j p
  | .slot p, _ => σ.passSlot settings j p fault
  | .planning, .plan strategy probes => σ.planned settings j strategy probes fault
  | .planning, .raised failure => σ.leave settings j (some failure)
  | .preflight, .no => leave settings (σ.transition settings j .failed) j none
  | .preflight, .raised .cancelled => σ.leave settings j (some .cancelled)
  | .preflight, _ => σ.trySource settings j fault
  | .preparing, .done => σ.setPhase j .command
  | .preparing, .raised failure => σ.leaveSlots settings j (some failure)
  | .command, .done => σ.leaveSlots settings j none
  | .command, .raised .cancelled => σ.setPhase j (.closing (some .cancelled))
  | .command, .raised failure => σ.leaveSlots settings j (some failure)
  | .sessions, .done => σ.setPhase j .copying
  | .sessions, .raised failure => σ.leaveSlots settings j (some failure)
  | .copying, .done => σ.setPhase j (.closing none)
  | .copying, .raised failure => σ.setPhase j (.closing (some failure))
  | .closing ending, .done => σ.leaveSlots settings j ending
  | .closing _, .raised failure => σ.leaveSlots settings j (some failure)
  | .verifying, .yes => σ.verified settings j true
  | .verifying, .no => σ.verified settings j false
  | .verifying, .raised failure => σ.leave settings j (some failure)
  | _, _ => σ

/-! ### Events -/

/-- What the environment may answer to a worker that awaits it. -/
def admits (answer : Answer) : Bool :=
  match (σ.worker j).phase, answer with
  | .planning, .plan _ _ | .planning, .raised .conflict | .planning, .raised .error => true
  | .preflight, .yes | .preflight, .no | .preflight, .raised .error => true
  | .preparing, .done | .preparing, .raised .conflict | .preparing, .raised .error => true
  | .command, .done | .command, .raised .conflict | .command, .raised .error => true
  -- the command races the cancel event, and the copy looks at the state of its job
  | .command, .raised .cancelRequested => σ.cancel_events.get j = some true
  | .sessions, .done | .sessions, .raised .error => true
  | .copying, .done | .copying, .raised .error => true
  | .copying, .raised .cancelRequested => (σ.jobs.job j).state = TransferState.cancelled
  | .closing _, .done => true
  | .verifying, .yes | .verifying, .no => true
  | _, _ => false

/-- `task.cancel()`: the task is told where it is suspended, unless it is resumed anyway. -/
def interrupt : Service :=
  if (σ.worker j).phase = .finished ∨ (σ.worker j).interrupted = true then σ
  else
    let waiting := !(σ.ready.map Prod.fst).contains j
    let σ := σ.setWorker j { σ.worker j with interrupted := true }
    if waiting then { σ with ready := σ.ready ++ [(j, .raised .cancelled)] } else σ

/-- `stop`, up to where it waits for the tasks, and whether it raises before. -/
def stop : Service × Bool :=
  let (jobs, raises) := σ.jobs.cancelAll settings.transfer_job_history
  let σ := { σ with stopped := true, jobs }
  if raises then (σ, true)
  else (σ.jobs.tasks.foldl interrupt { σ with cancel_events := σ.cancel_events.map fun e => (e.1, true) }, false)

/-- `create` -/
def create (source_server_id target_server_id target_path : Text) : Service :=
  let job : TransferJob := { source_server_id, target_server_id, target_path }
  if σ.stopped then σ
  else if source_server_id = target_server_id then σ
  else if (σ.jobs.target_locks.get job.key).isSome then σ
  else
    { σ with
      jobs := σ.jobs.create job
      worker := Function.update σ.worker σ.jobs.count {}
      cancel_events := σ.cancel_events.set σ.jobs.count false
      ready := σ.ready ++ [(σ.jobs.count, .done)] }

/-- `cancel` -/
def cancel : Service :=
  if !σ.jobs.find j then σ
  else if !JobRegistry.cancellable (σ.jobs.job j).state then σ
  else
    let σ := σ.transition settings j .cancelled
    if (σ.cancel_events.get j).isSome then { σ with cancel_events := σ.cancel_events.set j true } else σ

/-- The loop resumes the next worker; one that is interrupted is told that it is. -/
def run (fault : Option Fault) : Service :=
  match σ.ready with
  | [] => σ
  | (j, answer) :: ready =>
    let σ := { σ with ready }
    if (σ.worker j).interrupted then
      (σ.setWorker j { σ.worker j with interrupted := false }).resume settings j (.raised .cancelled) fault
    else σ.resume settings j answer fault

def step : Event → Service
  | .create source_server_id target_server_id target_path => σ.create source_server_id target_server_id target_path
  | .cancel job_id => σ.cancel settings job_id
  | .clearHistory => { σ with jobs := σ.jobs.clearHistory }
  | .stop => (σ.stop settings).1
  | .complete job_id answer =>
    if σ.admits job_id answer && !(σ.ready.map Prod.fst).contains job_id then
      { σ with ready := σ.ready ++ [(job_id, answer)] }
    else σ
  | .run fault => σ.run settings fault

end Service
end SshGpuConsole.Transfers
