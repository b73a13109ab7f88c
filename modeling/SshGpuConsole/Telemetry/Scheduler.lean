import SshGpuConsole.Lib.Dict
import SshGpuConsole.Lib.Runs
import SshGpuConsole.Servers.Registry

/-!
# The telemetry scheduler

`Scheduler` (`telemetry/scheduler.py`): one worker task for each enabled server, `set_demand`, and `reconcile`, which
starts and cancels workers. A worker runs from one await to the next; it awaits the executor factory, a batch of
collectors, its timed wait, and at the end the close of its executor. What a batch brings goes to the telemetry state,
which no timing depends on. The clock does not move while a worker runs.
-/

namespace SshGpuConsole.Scheduling
open Shell (Text)
open Registry (ServerRecord)

inductive Group where
  | fleetprocs
  | static
  | fast
  | medium
  | process
  | slow
  deriving DecidableEq, Repr

/-- `GROUPS` -/
def groups : List Group := [.fleetprocs, .static, .fast, .medium, .process, .slow]

/-- The settings that the scheduler reads. -/
structure Settings where
  reconnect_backoff_min_s : ℚ := 2
  reconnect_backoff_max_s : ℚ := 60
  fleet_interval_active : ℚ := 15
  fleet_interval_idle : ℚ := 45
  fast_interval : ℚ := 5 / 2
  medium_interval : ℚ := 5
  slow_interval : ℚ := 30
  process_interval : ℚ := 15 / 2
  static_interval : ℚ := 600
  idle_grace_s : ℚ := 20

abbrev Record := ServerRecord ℚ

/-- `_identity` -/
def identity (record : Record) : Text × Option Text × Option ℤ := (record.ssh_host, record.username, record.port)

/-- The locals of one iteration of a worker. -/
structure Round where
  interactive : Bool
  detail : Bool
  due : List Group
  deriving DecidableEq, Repr

/-- Where a worker is suspended. -/
inductive Phase where
  /-- The task has not run. -/
  | start
  /-- In the executor factory. -/
  | factory
  /-- In `_collect`. -/
  | collecting
  /-- In the timed wait. -/
  | waiting
  /-- In the `finally`, in `executor.close`. -/
  | closing
  /-- The task is done. -/
  | done
  deriving DecidableEq, Repr

/-- Why a task was cancelled. -/
inductive Cause where
  /-- Its server has another cadence, and nothing else changed in any server. -/
  | cadence
  | other
  deriving DecidableEq, Repr

structure Worker where
  record : Record
  phase : Phase := .start
  /-- `wakeup` is set. -/
  wakeup : Bool := false
  /-- `-1` before the first iteration. -/
  observed_demand : Option ℕ := none
  next_due : Group → ℚ := fun _ => 0
  consecutive_failures : ℕ := 0
  /-- It has its executor. -/
  executor : Bool := false
  round : Round := ⟨false, false, []⟩
  /-- How many iterations it began. -/
  iterations : ℕ := 0
  cancelled : Option Cause := none
  /-- It was ended by an exception. -/
  crashed : Bool := false

structure Scheduler where
  records : Dict Text Record := []
  /-- `_workers`, by the number of the task. -/
  workers : Dict Text ℕ := []
  /-- `_wakeups`, by the number of the worker whose event it is. -/
  wakeups : Dict Text ℕ := []
  detail_servers : List Text := []
  active_clients : ℕ := 0
  last_client_seen : ℚ := 0
  demand_revision : ℕ := 0
  /-- The tasks, under the numbers of their creation. -/
  worker : ℕ → Worker
  count : ℕ := 0
  /-- The calls of `close_server` that executors made, by the workers that made them and why they were cancelled. -/
  closes : List (ℕ × Option Cause) := []

/-- What a worker is resumed with. -/
inductive Answer where
  /-- The task starts, or the executor is there, or the batch is through, or the executor is closed. -/
  | done
  /-- The factory raised, or the batch failed in transport. -/
  | failed
  /-- The event of the worker is set. -/
  | woken
  | timeout
  deriving DecidableEq, Repr

inductive Event where
  | setDemand (active_clients : ℤ) (detail_servers : List Text) (now : ℚ≥0)
  | reconcile (records : List Record)
  /-- A worker is resumed; the jitter is what `random.uniform(0.0, 0.5)` draws. -/
  | run (worker : ℕ) (answer : Answer) (now : ℚ≥0) (jitter : ℚ)

/-! ### Timing -/

/-- `x * 2 ** k` of a float and an integer: the integer is made a float first, which raises `OverflowError` from
`2 ** 1024` on. -/
def timesPower (x : ℚ) (k : ℕ) : Option ℚ := if k < 1024 then some (x * 2 ^ k) else none

/-- `_backoff_delay`, or the `OverflowError`. -/
def backoffDelay (settings : Settings) (failures : ℕ) (jitter : ℚ) : Option ℚ := do
  let scaled ← timesPower settings.reconnect_backoff_min_s (failures - 1)
  return min settings.reconnect_backoff_max_s scaled + jitter

/-- `max(0.05, x)` -/
def atLeast (x : ℚ) : ℚ := max (1 / 20) x

/-- `_interval` -/
def interval (settings : Settings) (group : Group) (interactive detail : Bool) (record : Record) : ℚ :=
  match group with
  | .fleetprocs => if interactive then atLeast settings.fleet_interval_active else atLeast settings.fleet_interval_idle
  | .static => atLeast settings.static_interval
  | .medium => atLeast settings.medium_interval
  | .process => atLeast settings.process_interval
  | .slow => atLeast settings.slow_interval
  | .fast =>
    if detail && interactive then
      match record.sample_interval_s with
      | some override => max (1 / 2) (min 600 override)
      | none => atLeast settings.fast_interval
    else if interactive then atLeast settings.fleet_interval_active
    else atLeast settings.fleet_interval_idle

/-- `_enabled` -/
def enabled (group : Group) (detail interactive : Bool) : Bool :=
  match group with
  | .fast | .fleetprocs | .static => true
  | .medium | .process | .slow => detail && interactive

namespace Scheduler
variable (settings : Settings) (σ : Scheduler) (w : ℕ) (now : ℚ≥0)

/-- `mode() == "interactive"` -/
def interactive : Bool :=
  0 < σ.active_clients || (σ.last_client_seen ≠ 0 && (now : ℚ) - σ.last_client_seen < settings.idle_grace_s)

def setWorker (new : Worker) : Scheduler := { σ with worker := Function.update σ.worker w new }

def server : Text := (σ.worker w).record.server_id

/-! ### The worker -/

/-- The worker takes its event out of the table, if it is the one that is there. -/
def forget : Scheduler :=
  if σ.wakeups.get (σ.server w) = some w then { σ with wakeups := σ.wakeups.pop (σ.server w) } else σ

/-- The worker closes its executor. -/
def close (crashed : Bool) : Scheduler :=
  { σ with
    worker := Function.update σ.worker w { σ.worker w with phase := .closing, crashed }
    closes := σ.closes ++ [(w, (σ.worker w).cancelled)] }

/-- The `finally` of the worker. -/
def finish (crashed : Bool) : Scheduler :=
  let σ := σ.forget w
  if (σ.worker w).executor then σ.close w crashed else σ.setWorker w { σ.worker w with phase := .done, crashed }

/-- The top of the loop: what is due. -/
def beginRound : Worker :=
  let worker := σ.worker w
  let interactive := σ.interactive settings now
  let detail := σ.detail_servers.contains (σ.server w)
  let stale := worker.observed_demand ≠ some σ.demand_revision
  let next_due : Group → ℚ := fun group =>
    if stale ∧ (group = .fast ∨ (interactive && detail) = true ∧ (group = .medium ∨ group = .process)) then 0
    else worker.next_due group
  { worker with
    observed_demand := some σ.demand_revision
    next_due
    round := ⟨interactive, detail, groups.filter fun group => enabled group detail interactive && next_due group ≤ now⟩
    iterations := worker.iterations + 1 }

/-- What is not sampled now is due when it is. -/
def idle (worker : Worker) : Worker :=
  { worker with next_due := fun group =>
      if enabled group worker.round.detail worker.round.interactive then worker.next_due group else now }

/-- One iteration, up to its first await. Where nothing is due the demand was just looked at, and the check behind
`wakeup.clear()` passes. -/
def iterate : Scheduler :=
  let worker := σ.beginRound settings w now
  if worker.round.due = [] then σ.setWorker w { idle now worker with wakeup := false, phase := .waiting }
  else σ.setWorker w { worker with phase := if worker.executor then .collecting else .factory }

/-- The end of an iteration, behind an await: the event is cleared, and then the revision is checked. -/
def endRound : Scheduler :=
  let σ := σ.setWorker w { σ.worker w with wakeup := false }
  if (σ.worker w).observed_demand ≠ some σ.demand_revision then σ.iterate settings w now
  else σ.setWorker w { σ.worker w with phase := .waiting }

/-- The factory raised: nothing is due until the backoff is over. -/
def factoryFailed (jitter : ℚ) : Scheduler :=
  let failures := (σ.worker w).consecutive_failures + 1
  let σ := σ.setWorker w { σ.worker w with consecutive_failures := failures }
  match backoffDelay settings failures jitter with
  | none => σ.finish w true
  | some delay =>
    endRound settings (σ.setWorker w (idle now { σ.worker w with next_due := fun _ => now + delay })) w now

/-- When what was due is due again. -/
def rescheduled : Worker :=
  let worker := σ.worker w
  { worker with next_due := fun group =>
      if worker.round.due.contains group then
        now + interval settings group worker.round.interactive worker.round.detail worker.record
      else worker.next_due group }

/-- Behind `_collect`. -/
def collected (failed : Bool) (jitter : ℚ) : Scheduler :=
  if failed then
    let failures := (σ.worker w).consecutive_failures + 1
    let σ := σ.setWorker w { σ.worker w with consecutive_failures := failures }
    match backoffDelay settings failures jitter with
    | none => σ.finish w true
    | some delay =>
      let worker := σ.rescheduled settings w now
      -- a retry time of zero does not count
      let retry_at := now + delay
      endRound settings (σ.setWorker w { worker with
        next_due := fun group => if retry_at = 0 then worker.next_due group else max (worker.next_due group) retry_at })
        w now
  else
    endRound settings (σ.setWorker w { σ.rescheduled settings w now with consecutive_failures := 0 }) w now

/-- A worker is resumed. One that is cancelled is told so. -/
def resume (answer : Answer) (jitter : ℚ) : Scheduler :=
  let worker := σ.worker w
  match worker.phase, worker.cancelled, answer with
  | .start, some _, _ => σ.setWorker w { worker with phase := .done }
  | .start, none, .done => iterate settings { σ with wakeups := σ.wakeups.set (σ.server w) w } w now
  | .factory, some _, _ | .collecting, some _, _ | .waiting, some _, _ => σ.finish w worker.crashed
  | .factory, none, .done => σ.setWorker w { worker with executor := true, phase := .collecting }
  | .factory, none, .failed => σ.factoryFailed settings w now jitter
  | .collecting, none, .done => σ.collected settings w now false jitter
  | .collecting, none, .failed => σ.collected settings w now true jitter
  | .waiting, none, .woken => if worker.wakeup then σ.iterate settings w now else σ
  | .waiting, none, .timeout => σ.iterate settings w now
  | .closing, _, _ => σ.setWorker w { worker with phase := .done }
  | _, _, _ => σ

/-! ### Demand and reconciliation -/

/-- `set_demand` -/
def setDemand (active_clients : ℤ) (detail_servers : List Text) : Scheduler :=
  let next_clients := active_clients.toNat
  let same := detail_servers.all σ.detail_servers.contains && σ.detail_servers.all detail_servers.contains
  let changed := next_clients ≠ σ.active_clients || !same
  let σ := { σ with
    active_clients := next_clients
    last_client_seen := if 0 < next_clients then now else σ.last_client_seen
    detail_servers }
  if changed then
    { σ with
      demand_revision := σ.demand_revision + 1
      worker := fun w =>
        if (σ.wakeups.map Prod.snd).contains w then { σ.worker w with wakeup := true } else σ.worker w }
  else σ

/-- `task.cancel()` -/
def cancel (cause : Cause) : Scheduler :=
  if (σ.worker w).phase = .done ∨ (σ.worker w).cancelled.isSome then σ
  else σ.setWorker w { σ.worker w with cancelled := some cause }

/-- The task of a server that is not done. -/
def task (server_id : Text) : Option ℕ :=
  match σ.workers.get server_id with
  | some w => if (σ.worker w).phase = .done then none else some w
  | none => none

/-- The task of a server is cancelled and forgotten. -/
def retire (server_id : Text) (cause : Cause) : Scheduler :=
  let σ := match σ.task server_id with
    | some w => σ.cancel w cause
    | none => σ
  { σ with workers := σ.workers.pop server_id }

/-- `create_task` -/
def spawn (record : Record) : Scheduler :=
  { σ with
    worker := Function.update σ.worker σ.count { record }
    workers := σ.workers.set record.server_id σ.count
    count := σ.count + 1 }

/-- One enabled server of `reconcile`. -/
def reconcileServer (cause : Cause) (record : Record) : Scheduler :=
  let server_id := record.server_id
  let previous := σ.records.get server_id
  -- the worker captured the record at its start
  let σ := if previous.any (·.sample_interval_s ≠ record.sample_interval_s) && (σ.task server_id).isSome
    then σ.retire server_id cause else σ
  -- the id now points at a different host
  let σ := if previous.any fun p => identity p ≠ identity record then σ.retire server_id .other else σ
  let σ := if (σ.task server_id).isNone then σ.spawn record else σ
  { σ with records := σ.records.set server_id record }

/-- One server with a worker that is not enabled. -/
def dropServer (server_id : Text) : Scheduler :=
  let σ := σ.retire server_id .other
  { σ with records := σ.records.pop server_id }

end Scheduler

/-- The enabled servers of some records, the last of an id. -/
def enabledServers (records : List Record) : Dict Text Record :=
  Dict.ofItems ((records.filter (·.enabled)).map fun record => (record.server_id, record))

namespace Scheduler
variable (settings : Settings) (σ : Scheduler)

/-- Nothing changes but the cadence of servers. -/
def onlyCadence (records : List Record) : Bool :=
  let enabled := enabledServers records
  (enabled.all fun x => (σ.records.get x.1).any fun previous =>
    { previous with sample_interval_s := x.2.sample_interval_s } = x.2) &&
    σ.records.all fun x => (enabled.get x.1).isSome

/-- `reconcile` -/
def reconcile (cause : Cause) (records : List Record) : Scheduler :=
  let enabled := enabledServers records
  let σ := enabled.foldl (fun σ x => σ.reconcileServer cause x.2) σ
  (σ.workers.map Prod.fst).foldl
    (fun σ server_id => if (enabled.map Prod.fst).contains server_id then σ else σ.dropServer server_id) σ

/-- The cause that a reconciliation is for the tasks whose cadence it changes. -/
def cause (records : List Record) : Cause := if σ.onlyCadence records then .cadence else .other

/-- The scheduler before anything. -/
def init : Scheduler := { worker := fun _ => { record := { server_id := [], display_name := [], ssh_host := [] } } }

def step : Event → Scheduler
  | .setDemand active_clients detail_servers now => σ.setDemand now active_clients detail_servers
  | .reconcile records => σ.reconcile (σ.cause records) records
  | .run w answer now jitter => if w < σ.count then σ.resume settings w now answer jitter else σ

/-! ### What a worker changes -/

variable {settings σ} {σ' σ'' : Scheduler} {w : ℕ} {now : ℚ≥0}

/-- Only this worker ran: what it changes of the others is nothing, and of itself neither its record nor whether it is
cancelled. -/
structure Ran (w : ℕ) (σ σ' : Scheduler) : Prop where
  others : ∀ k, k ≠ w → σ'.worker k = σ.worker k
  record : (σ'.worker w).record = (σ.worker w).record
  cancelled : (σ'.worker w).cancelled = (σ.worker w).cancelled
  records : σ'.records = σ.records
  workers : σ'.workers = σ.workers
  detail : σ'.detail_servers = σ.detail_servers
  clients : σ'.active_clients = σ.active_clients
  last_seen : σ'.last_client_seen = σ.last_client_seen
  revision : σ'.demand_revision = σ.demand_revision
  count : σ'.count = σ.count

lemma Ran.refl (w : ℕ) (σ : Scheduler) : Ran w σ σ := ⟨fun _ _ => rfl, rfl, rfl, rfl, rfl, rfl, rfl, rfl, rfl, rfl⟩

lemma Ran.trans (h : Ran w σ σ') (h' : Ran w σ' σ'') : Ran w σ σ'' where
  others k hk := (h'.others k hk).trans (h.others k hk)
  record := h'.record.trans h.record
  cancelled := h'.cancelled.trans h.cancelled
  records := h'.records.trans h.records
  workers := h'.workers.trans h.workers
  detail := h'.detail.trans h.detail
  clients := h'.clients.trans h.clients
  last_seen := h'.last_seen.trans h.last_seen
  revision := h'.revision.trans h.revision
  count := h'.count.trans h.count

@[simp] lemma worker_setWorker_self (σ : Scheduler) (w : ℕ) (new : Worker) : (σ.setWorker w new).worker w = new :=
  Function.update_self ..

lemma worker_setWorker_of_ne (σ : Scheduler) {w k : ℕ} (h : k ≠ w) (new : Worker) :
    (σ.setWorker w new).worker k = σ.worker k :=
  Function.update_of_ne h _ _

lemma ran_setWorker {new : Worker} (hrecord : new.record = (σ.worker w).record)
    (hcancelled : new.cancelled = (σ.worker w).cancelled) : Ran w σ (σ.setWorker w new) where
  others _ hk := worker_setWorker_of_ne σ hk new
  record := by rw [worker_setWorker_self, hrecord]
  cancelled := by rw [worker_setWorker_self, hcancelled]
  records := rfl
  workers := rfl
  detail := rfl
  clients := rfl
  last_seen := rfl
  revision := rfl
  count := rfl

lemma ran_wakeups (w : ℕ) (σ : Scheduler) (wakeups : Dict Text ℕ) : Ran w σ { σ with wakeups } :=
  ⟨fun _ _ => rfl, rfl, rfl, rfl, rfl, rfl, rfl, rfl, rfl, rfl⟩

lemma ran_forget (w : ℕ) (σ : Scheduler) : Ran w σ (σ.forget w) := by
  unfold forget
  split
  · exact ran_wakeups w σ _
  · exact .refl w σ

@[simp] lemma worker_close_self (σ : Scheduler) (w : ℕ) (crashed : Bool) :
    (σ.close w crashed).worker w = { σ.worker w with phase := .closing, crashed } := Function.update_self ..

lemma ran_close (w : ℕ) (σ : Scheduler) (crashed : Bool) : Ran w σ (σ.close w crashed) where
  others _ hk := Function.update_of_ne hk _ _
  record := by rw [worker_close_self]
  cancelled := by rw [worker_close_self]
  records := rfl
  workers := rfl
  detail := rfl
  clients := rfl
  last_seen := rfl
  revision := rfl
  count := rfl

lemma ran_finish (crashed : Bool) : Ran w σ (σ.finish w crashed) := by
  unfold finish
  dsimp only
  split
  · exact (ran_forget w σ).trans (ran_close w _ crashed)
  · exact (ran_forget w σ).trans (ran_setWorker rfl rfl)

lemma ran_iterate : Ran w σ (σ.iterate settings w now) := by
  unfold iterate
  dsimp only
  split
  · exact ran_setWorker rfl rfl
  · exact ran_setWorker rfl rfl

lemma ran_endRound : Ran w σ (σ.endRound settings w now) := by
  have hclear : Ran w σ (σ.setWorker w { σ.worker w with wakeup := false }) := ran_setWorker rfl rfl
  unfold endRound
  dsimp only
  split
  · exact hclear.trans ran_iterate
  · exact hclear.trans (ran_setWorker rfl rfl)

lemma ran_factoryFailed (jitter : ℚ) : Ran w σ (σ.factoryFailed settings w now jitter) := by
  have hcount : Ran w σ (σ.setWorker w { σ.worker w with
      consecutive_failures := (σ.worker w).consecutive_failures + 1 }) := ran_setWorker rfl rfl
  unfold factoryFailed
  dsimp only
  split
  · exact hcount.trans (ran_finish true)
  · refine .trans ?_ ran_endRound
    exact hcount.trans (ran_setWorker rfl rfl)

lemma ran_collected (failed : Bool) (jitter : ℚ) : Ran w σ (σ.collected settings w now failed jitter) := by
  have hcount : Ran w σ (σ.setWorker w { σ.worker w with
      consecutive_failures := (σ.worker w).consecutive_failures + 1 }) := ran_setWorker rfl rfl
  unfold collected
  split
  · dsimp only
    split
    · exact hcount.trans (ran_finish true)
    · refine .trans ?_ ran_endRound
      exact hcount.trans (ran_setWorker rfl rfl)
  · refine .trans ?_ ran_endRound
    exact ran_setWorker rfl rfl

/-- A worker that is resumed changes itself. -/
lemma ran_resume (answer : Answer) (jitter : ℚ) : Ran w σ (σ.resume settings w now answer jitter) := by
  unfold resume
  dsimp only
  split
  · exact ran_setWorker rfl rfl
  · exact (ran_wakeups w σ _).trans ran_iterate
  · exact ran_finish _
  · exact ran_finish _
  · exact ran_finish _
  · exact ran_setWorker rfl rfl
  · exact ran_factoryFailed jitter
  · exact ran_collected false jitter
  · exact ran_collected true jitter
  · split
    · exact ran_iterate
    · exact .refl w σ
  · exact ran_iterate
  · exact ran_setWorker rfl rfl
  · exact .refl w σ

lemma step_run (answer : Answer) (jitter : ℚ) (hw : w < σ.count) :
    σ.step settings (.run w answer now jitter) = σ.resume settings w now answer jitter := if_pos hw

/-! ### What a reconciliation changes in a worker -/

/-- A task that was there, or a new one, and it may be cancelled now. -/
def Reconciled (worker worker' : Worker) : Prop :=
  ∃ base : Worker, (base = worker ∨ ∃ record, base = { record }) ∧
    (worker' = base ∨ base.cancelled = none ∧ ∃ cause, worker' = { base with cancelled := some cause })

lemma Reconciled.refl (worker : Worker) : Reconciled worker worker := ⟨worker, .inl rfl, .inl rfl⟩

lemma Reconciled.trans {a b c : Worker} (h : Reconciled a b) (h' : Reconciled b c) : Reconciled a c := by
  obtain ⟨base, hbase, hb⟩ := h
  obtain ⟨base', hbase', hc⟩ := h'
  cases hbase' with
  | inr hnew => exact ⟨base', .inr hnew, hc⟩
  | inl hsame =>
    subst hsame
    cases hb with
    | inl hb =>
      subst hb
      exact ⟨base', hbase, hc⟩
    | inr hb =>
      -- it is cancelled once
      obtain ⟨hnone, cause, rfl⟩ := hb
      refine ⟨base, hbase, .inr ⟨hnone, cause, ?_⟩⟩
      cases hc with
      | inl hc => exact hc
      | inr hc => cases hc.1

lemma reconciled_cancel (cause : Cause) (k : ℕ) : Reconciled (σ.worker k) ((σ.cancel w cause).worker k) := by
  unfold cancel
  split
  · exact .refl _
  · rename_i hrunning
    by_cases hk : k = w
    · subst hk
      have hnone : (σ.worker k).cancelled = none := by
        cases h : (σ.worker k).cancelled with
        | none => rfl
        | some c => exact absurd (.inr (by rw [h]; rfl)) hrunning
      rw [worker_setWorker_self]
      exact ⟨_, .inl rfl, .inr ⟨hnone, cause, rfl⟩⟩
    · rw [worker_setWorker_of_ne σ hk]
      exact .refl _

lemma reconciled_retire (server_id : Text) (cause : Cause) (k : ℕ) :
    Reconciled (σ.worker k) ((σ.retire server_id cause).worker k) := by
  unfold retire
  dsimp only
  split
  · exact reconciled_cancel cause k
  · exact .refl _

lemma reconciled_spawn (record : Record) (k : ℕ) : Reconciled (σ.worker k) ((σ.spawn record).worker k) := by
  by_cases hk : k = σ.count
  · subst hk
    exact ⟨{ record }, .inr ⟨record, rfl⟩, .inl (Function.update_self ..)⟩
  · exact ⟨_, .inl rfl, .inl (Function.update_of_ne hk _ _)⟩

lemma reconciled_reconcileServer (cause : Cause) (record : Record) (k : ℕ) :
    Reconciled (σ.worker k) ((σ.reconcileServer cause record).worker k) := by
  have hretire : ∀ (b : Bool) (cause : Cause) (σ : Scheduler), Reconciled (σ.worker k)
      ((if b then σ.retire record.server_id cause else σ).worker k) := by
    intro b cause σ
    cases b with
    | true => exact reconciled_retire _ cause k
    | false => exact .refl _
  have hspawn : ∀ (b : Bool) (σ : Scheduler), Reconciled (σ.worker k)
      ((if b then σ.spawn record else σ).worker k) := by
    intro b σ
    cases b with
    | true => exact reconciled_spawn record k
    | false => exact .refl _
  exact ((hretire _ cause σ).trans (hretire _ .other _)).trans (hspawn _ _)

lemma reconciled_dropServer (server_id : Text) (k : ℕ) : Reconciled (σ.worker k) ((σ.dropServer server_id).worker k) :=
  reconciled_retire server_id .other k

/-- What the calls for one server do to a worker, all of them do. -/
lemma reconciled_foldl {α : Type} {f : Scheduler → α → Scheduler} {k : ℕ}
    (hf : ∀ σ x, Reconciled (σ.worker k) ((f σ x).worker k)) (xs : List α) :
    Reconciled (σ.worker k) ((xs.foldl f σ).worker k) := by
  induction xs generalizing σ with
  | nil => exact .refl _
  | cons x xs ih => exact (hf σ x).trans ih

lemma reconciled_reconcile (cause : Cause) (records : List Record) (k : ℕ) :
    Reconciled (σ.worker k) ((σ.reconcile cause records).worker k) := by
  have hstarted : Reconciled (σ.worker k)
      (((enabledServers records).foldl (fun σ x => σ.reconcileServer cause x.2) σ).worker k) :=
    reconciled_foldl (fun σ (x : Text × Record) => reconciled_reconcileServer cause x.2 k) _
  refine hstarted.trans (reconciled_foldl (fun σ server_id => ?_) _)
  split
  · exact .refl _
  · exact reconciled_dropServer server_id k

/-- A change of the demand sets events. -/
lemma worker_setDemand (σ : Scheduler) (now : ℚ≥0) (active_clients : ℤ) (detail_servers : List Text) (k : ℕ) :
    ∃ wakeup, (σ.setDemand now active_clients detail_servers).worker k = { σ.worker k with wakeup } := by
  unfold setDemand
  dsimp only
  split
  · dsimp only
    split
    · exact ⟨true, rfl⟩
    · exact ⟨(σ.worker k).wakeup, rfl⟩
  · exact ⟨(σ.worker k).wakeup, rfl⟩

end Scheduler
end SshGpuConsole.Scheduling
