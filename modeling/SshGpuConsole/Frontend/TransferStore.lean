import SshGpuConsole.Lib.Runs
import SshGpuConsole.Frontend.SyncPlan
import SshGpuConsole.Transfer.Batch

/-!
# The polling store

The Transfer Center store (`transferStore.ts`): the listings of jobs and batches, asked for by the user, after the
user's actions and by the ticks of one interval timer, and answered in any order. Whatever is answered last is what
the store shows, and the timer is set or cleared when something is answered. Once everything is answered the store
has converged exactly when the listings that came last are those asked for last, and the timer was looked at again
after it was stopped (`converges_iff`).
-/

namespace SshGpuConsole.Frontend
open Shell (Text)
open Batch (TransferState TransferBatchState)

/-! ### The store -/

/-- What the store reads of a job. -/
structure TransferJob where
  job_id : Text
  state : TransferState
  deriving DecidableEq, Repr

/-- What the store reads of a batch. -/
structure TransferBatch where
  batch_id : Text
  state : TransferBatchState
  deriving DecidableEq, Repr

def ACTIVE_TRANSFER_STATES : List TransferState := [.queued, .planning, .running, .verifying]

def isActiveTransferState (state : TransferState) : Bool := ACTIVE_TRANSFER_STATES.contains state

def isActiveBatchState (state : TransferBatchState) : Bool := state = .queued || state = .running

/-- One of them is active. -/
def anyActive (jobs : List TransferJob) (batches : List TransferBatch) : Bool :=
  (jobs.any fun job => isActiveTransferState job.state) || batches.any fun batch => isActiveBatchState batch.state

/-- `TransferStateShape`, with the variable `timer` of `createTransferStore`. -/
structure TransferStore where
  jobs : List TransferJob := []
  loading : Bool := false
  error : Option Text := none
  polling : Bool := false
  batches : List TransferBatch := []
  batchesLoading : Bool := false
  batchesError : Option Text := none
  timer : Option ℕ := none
  deriving DecidableEq, Repr

/-! ### The requests of one listing -/

/-- The calls of `listJobs`, or of `listBatches`, numbered as they were made, and what was listed. -/
structure Lane (α : Type) where
  calls : ℕ := 0
  pending : List ℕ := []
  arrived : List (ℕ × List α) := []
  deriving DecidableEq, Repr

namespace Lane
variable {α : Type} (lane : Lane α)

def issue : Lane α := { lane with calls := lane.calls + 1, pending := lane.calls :: lane.pending }

def listed (call : ℕ) (rows : List α) : Lane α :=
  { lane with pending := lane.pending.filter (· ≠ call), arrived := lane.arrived ++ [(call, rows)] }

def failed (call : ℕ) : Lane α := { lane with pending := lane.pending.filter (· ≠ call) }

/-- The listing that arrived last. -/
def last : List α := lane.arrived.getLast?.elim [] Prod.snd

/-- The listing of the latest call that has one. -/
def Latest (listing : ℕ × List α) : Prop := listing ∈ lane.arrived ∧ ∀ other ∈ lane.arrived, other.1 ≤ listing.1

@[simp] lemma last_listed (call : ℕ) (rows : List α) : (lane.listed call rows).last = rows := by
  rw [last, listed, List.getLast?_concat]
  rfl

end Lane

/-! ### The store among its requests -/

inductive TransferAction
  | createTransfer
  | cancelJob (jobId : Text)
  | retryJob (jobId : Text)
  | clearHistory
  deriving DecidableEq, Repr

structure TransferWorld where
  store : TransferStore := {}
  /-- The interval timers that are armed. -/
  intervals : List ℕ := []
  /-- The number of interval timers set so far. -/
  intervalsSet : ℕ := 0
  jobsLane : Lane TransferJob := {}
  batchesLane : Lane TransferBatch := {}
  /-- The actions so far. -/
  actions : List TransferAction := []
  /-- The actions that are not answered yet. -/
  acting : List ℕ := []
  /-- The last call was `stopPolling`. -/
  stoppedLast : Bool := false
  /-- Since the last `stopPolling` something was listed, or `syncPolling` called. -/
  looked : Bool := true

inductive TransferEvent
  | loadJobs
  | fetchBatches
  | act (action : TransferAction)
  | syncPolling
  | stopPolling
  | tick (interval : ℕ)
  | jobsListed (call : ℕ) (jobs : List TransferJob)
  | jobsFailed (call : ℕ) (cause : Cause)
  | batchesListed (call : ℕ) (batches : List TransferBatch)
  | batchesFailed (call : ℕ) (cause : Cause)
  | acted (action : ℕ)
  | actionFailed (action : ℕ) (cause : Cause)

namespace TransferWorld
variable (w : TransferWorld)

def clearTimer : TransferWorld :=
  match w.store.timer with
  | some timer => { w with store := { w.store with timer := none }, intervals := w.intervals.filter (· ≠ timer) }
  | none => w

/-- `setInterval`. -/
def armTimer : TransferWorld :=
  { w with
    store := { w.store with timer := some w.intervalsSet }
    intervals := w.intervals ++ [w.intervalsSet]
    intervalsSet := w.intervalsSet + 1 }

def setPolling (polling : Bool) : TransferWorld := { w with store := { w.store with polling } }

/-- `syncPolling`, and that the timer was looked at. -/
def syncPolling : TransferWorld :=
  let w := { w with looked := true }
  if anyActive w.store.jobs w.store.batches && w.store.timer.isNone then w.armTimer.setPolling true
  else if !anyActive w.store.jobs w.store.batches && w.store.timer.isSome then w.clearTimer.setPolling false
  else w

def stopPolling : TransferWorld := { w with looked := false }.clearTimer.setPolling false

/-- `loadJobs`, up to its request. -/
def loadJobs : TransferWorld := { w with store := { w.store with loading := true }, jobsLane := w.jobsLane.issue }

/-- `fetchBatches`, up to its request. -/
def fetchBatches : TransferWorld :=
  { w with store := { w.store with batchesLoading := true }, batchesLane := w.batchesLane.issue }

def tick : TransferWorld :=
  -- a slow response must not stack refreshes
  if w.store.loading || w.store.batchesLoading then w else w.loadJobs.fetchBatches

/-- `loadJobs`, when its request is answered. -/
def jobsListed (call : ℕ) (jobs : List TransferJob) : TransferWorld :=
  { w with
    store := { w.store with jobs, error := none, loading := false }
    jobsLane := w.jobsLane.listed call jobs }.syncPolling

/-- `loadJobs`, when its request fails. -/
def jobsFailed (call : ℕ) (cause : Cause) : TransferWorld :=
  { w with
    store := { w.store with error := some (errorMessage cause), loading := false }
    jobsLane := w.jobsLane.failed call }

/-- `fetchBatches`, when its request is answered. -/
def batchesListed (call : ℕ) (batches : List TransferBatch) : TransferWorld :=
  { w with
    store := { w.store with batches, batchesError := none, batchesLoading := false }
    batchesLane := w.batchesLane.listed call batches }.syncPolling

/-- `fetchBatches`, when its request fails. -/
def batchesFailed (call : ℕ) (cause : Cause) : TransferWorld :=
  { w with
    store := { w.store with batchesError := some (errorMessage cause), batchesLoading := false }
    batchesLane := w.batchesLane.failed call }

/-- Answers that nobody waits for and ticks of a timer that is not armed are no events. -/
def step : TransferEvent → TransferWorld
  | .loadJobs => { w with stoppedLast := false }.loadJobs
  | .fetchBatches => { w with stoppedLast := false }.fetchBatches
  | .act action =>
    { w with stoppedLast := false, actions := w.actions ++ [action], acting := w.actions.length :: w.acting }
  | .syncPolling => { w with stoppedLast := false }.syncPolling
  | .stopPolling => { w with stoppedLast := true }.stopPolling
  | .tick interval => if interval ∈ w.intervals then { w with stoppedLast := false }.tick else w
  | .jobsListed call jobs => if call ∈ w.jobsLane.pending then w.jobsListed call jobs else w
  | .jobsFailed call cause => if call ∈ w.jobsLane.pending then w.jobsFailed call cause else w
  | .batchesListed call batches => if call ∈ w.batchesLane.pending then w.batchesListed call batches else w
  | .batchesFailed call cause => if call ∈ w.batchesLane.pending then w.batchesFailed call cause else w
  -- an action that succeeds loads the jobs again; one that fails only tells its caller
  | .acted action =>
    if action ∈ w.acting then { w with acting := w.acting.filter (· ≠ action) }.loadJobs else w
  | .actionFailed action _ =>
    if action ∈ w.acting then { w with acting := w.acting.filter (· ≠ action) } else w

/-- Every request is answered. -/
def Settled : Prop := w.jobsLane.pending = [] ∧ w.batchesLane.pending = [] ∧ w.acting = []

/-- The store shows what was asked for last, and polls while it shows active work. -/
structure Converged : Prop where
  jobs : ∀ listing, w.jobsLane.Latest listing → w.store.jobs = listing.2
  batches : ∀ listing, w.batchesLane.Latest listing → w.store.batches = listing.2
  polling : w.stoppedLast = false →
    (w.intervals ≠ [] ↔ anyActive w.store.jobs w.store.batches = true)

/-- The listings that arrived last say what those asked for last say, and the timer was looked at after it was
stopped, unless there is nothing to poll for. -/
structure InTurn : Prop where
  jobs : ∀ listing, w.jobsLane.Latest listing → w.jobsLane.last = listing.2
  batches : ∀ listing, w.batchesLane.Latest listing → w.batchesLane.last = listing.2
  looked : w.stoppedLast = true ∨ w.looked = true ∨ anyActive w.jobsLane.last w.batchesLane.last = false

/-! ### What every event keeps -/

structure Inv : Prop where
  jobs : w.store.jobs = w.jobsLane.last
  batches : w.store.batches = w.batchesLane.last
  timer : w.intervals = w.store.timer.toList
  polling : w.store.polling = w.store.timer.isSome
  looked : w.looked = true → w.store.timer.isSome = anyActive w.store.jobs w.store.batches
  stopped : w.looked = false → w.store.timer = none

variable {w} {w' : TransferWorld}

lemma Inv.initial : ({} : TransferWorld).Inv := by
  refine ⟨rfl, rfl, rfl, rfl, fun _ => rfl, fun h => ?_⟩
  cases h

lemma Inv.of_eq (h : w.Inv) (hjobs : w'.store.jobs = w.store.jobs) (hbatches : w'.store.batches = w.store.batches)
    (htimer : w'.store.timer = w.store.timer) (hpolling : w'.store.polling = w.store.polling)
    (hintervals : w'.intervals = w.intervals) (hlastJobs : w'.jobsLane.last = w.jobsLane.last)
    (hlastBatches : w'.batchesLane.last = w.batchesLane.last) (hlooked : w'.looked = w.looked) : w'.Inv := by
  constructor
  · rw [hjobs, hlastJobs]
    exact h.jobs
  · rw [hbatches, hlastBatches]
    exact h.batches
  · rw [hintervals, htimer]
    exact h.timer
  · rw [hpolling, htimer]
    exact h.polling
  · rw [hlooked, htimer, hjobs, hbatches]
    exact h.looked
  · rw [hlooked, htimer]
    exact h.stopped

lemma clearTimer_eq (htimer : w.intervals = w.store.timer.toList) :
    w.clearTimer = { w with store := { w.store with timer := none }, intervals := [] } := by
  rw [clearTimer]
  cases hpending : w.store.timer with
  | none =>
    rw [hpending] at htimer
    have hnil : w.intervals = [] := htimer
    conv_rhs => rw [← hnil, ← hpending]
  | some timer =>
    rw [hpending] at htimer
    have hnil : w.intervals.filter (· ≠ timer) = [] := by
      rw [htimer]
      simp
    rw [← hnil]

/-- `syncPolling` sets the timer right, whatever it was before. -/
lemma inv_syncPolling (hjobs : w.store.jobs = w.jobsLane.last) (hbatches : w.store.batches = w.batchesLane.last)
    (htimer : w.intervals = w.store.timer.toList) (hpolling : w.store.polling = w.store.timer.isSome) :
    w.syncPolling.Inv := by
  rw [syncPolling]
  dsimp only
  split
  · -- there is active work, and no timer
    rename_i harm
    obtain ⟨hactive, hnone⟩ := Bool.and_eq_true_iff.1 harm
    have hintervals : w.intervals = [] := by
      rw [htimer, Option.isNone_iff_eq_none.1 hnone]
      rfl
    refine ⟨hjobs, hbatches, ?_, rfl, fun _ => hactive.symm, fun h => ?_⟩
    · change w.intervals ++ [w.intervalsSet] = [w.intervalsSet]
      rw [hintervals, List.nil_append]
    · cases h
  · rename_i hkeep
    split
    · -- there is a timer, and no active work
      rename_i hclear
      have hidle := (Bool.and_eq_true_iff.1 hclear).1
      have heq : ({ w with looked := true } : TransferWorld).clearTimer =
          { w with store := { w.store with timer := none }, intervals := [], looked := true } := clearTimer_eq htimer
      rw [heq]
      refine ⟨hjobs, hbatches, rfl, rfl, fun _ => ?_, fun h => ?_⟩
      · exact (Bool.not_eq_true' _ ▸ hidle : anyActive w.store.jobs w.store.batches = false).symm
      · cases h
    · rename_i hkeep'
      refine ⟨hjobs, hbatches, htimer, hpolling, fun _ => ?_, fun h => ?_⟩
      · change w.store.timer.isSome = anyActive w.store.jobs w.store.batches
        cases hactive : anyActive w.store.jobs w.store.batches with
        | true =>
          rw [hactive, Bool.true_and, Bool.not_eq_true, Option.isNone_eq_false_iff] at hkeep
          exact hkeep
        | false =>
          rw [hactive, Bool.not_false, Bool.true_and, Bool.not_eq_true] at hkeep'
          exact hkeep'
      · cases h

lemma Inv.stopPolling (h : w.Inv) : w.stopPolling.Inv := by
  have heq : ({ w with looked := false } : TransferWorld).clearTimer =
      { w with store := { w.store with timer := none }, intervals := [], looked := false } := clearTimer_eq h.timer
  rw [TransferWorld.stopPolling, heq]
  refine ⟨h.jobs, h.batches, rfl, rfl, fun hlooked => ?_, fun _ => rfl⟩
  cases hlooked

lemma Inv.loadJobs (h : w.Inv) : w.loadJobs.Inv := h.of_eq rfl rfl rfl rfl rfl rfl rfl rfl

lemma Inv.fetchBatches (h : w.Inv) : w.fetchBatches.Inv := h.of_eq rfl rfl rfl rfl rfl rfl rfl rfl

lemma Inv.tick (h : w.Inv) : w.tick.Inv := by
  rw [TransferWorld.tick]
  split
  · exact h
  · exact h.loadJobs.fetchBatches

lemma Inv.jobsListed (h : w.Inv) (call : ℕ) (jobs : List TransferJob) : (w.jobsListed call jobs).Inv := by
  apply inv_syncPolling
  · exact (Lane.last_listed w.jobsLane call jobs).symm
  · exact h.batches
  · exact h.timer
  · exact h.polling

lemma Inv.batchesListed (h : w.Inv) (call : ℕ) (batches : List TransferBatch) : (w.batchesListed call batches).Inv := by
  apply inv_syncPolling
  · exact h.jobs
  · exact (Lane.last_listed w.batchesLane call batches).symm
  · exact h.timer
  · exact h.polling

lemma Inv.step (h : w.Inv) (e : TransferEvent) : (w.step e).Inv := by
  -- what the last call was is no matter to the invariant
  have hcall : ∀ stoppedLast, ({ w with stoppedLast } : TransferWorld).Inv :=
    fun _ => h.of_eq rfl rfl rfl rfl rfl rfl rfl rfl
  cases e with
  | loadJobs => exact (hcall false).loadJobs
  | fetchBatches => exact (hcall false).fetchBatches
  | act action => exact h.of_eq rfl rfl rfl rfl rfl rfl rfl rfl
  | syncPolling => exact inv_syncPolling h.jobs h.batches h.timer h.polling
  | stopPolling => exact (hcall true).stopPolling
  | tick interval =>
    rw [TransferWorld.step]
    split
    · exact (hcall false).tick
    · exact h
  | jobsListed call jobs =>
    rw [TransferWorld.step]
    split
    · exact h.jobsListed call jobs
    · exact h
  | jobsFailed call cause =>
    rw [TransferWorld.step]
    split
    · exact h.of_eq rfl rfl rfl rfl rfl rfl rfl rfl
    · exact h
  | batchesListed call batches =>
    rw [TransferWorld.step]
    split
    · exact h.batchesListed call batches
    · exact h
  | batchesFailed call cause =>
    rw [TransferWorld.step]
    split
    · exact h.of_eq rfl rfl rfl rfl rfl rfl rfl rfl
    · exact h
  | acted action =>
    rw [TransferWorld.step]
    split
    · apply Inv.loadJobs
      exact h.of_eq rfl rfl rfl rfl rfl rfl rfl rfl
    · exact h
  | actionFailed action cause =>
    rw [TransferWorld.step]
    split
    · exact h.of_eq rfl rfl rfl rfl rfl rfl rfl rfl
    · exact h

/-! ### When the store converges -/

lemma Inv.length_intervals (h : w.Inv) : w.intervals.length ≤ 1 := by
  rw [h.timer]
  cases w.store.timer with
  | none => exact Nat.zero_le 1
  | some timer => exact le_rfl

lemma Inv.armed (h : w.Inv) : w.intervals ≠ [] ↔ w.store.timer.isSome = true := by
  rw [h.timer]
  cases w.store.timer with
  | none => exact iff_of_false (fun hne => hne rfl) Bool.false_ne_true
  | some timer => exact iff_of_true (List.cons_ne_nil _ _) rfl

/-- The timer is right unless it was stopped and not looked at again while there is active work. -/
lemma Inv.polling_iff (h : w.Inv) : (w.intervals ≠ [] ↔ anyActive w.store.jobs w.store.batches = true) ↔
    w.looked = true ∨ anyActive w.store.jobs w.store.batches = false := by
  rw [h.armed]
  cases hlooked : w.looked with
  | true =>
    rw [h.looked hlooked]
    exact iff_of_true Iff.rfl (.inl rfl)
  | false =>
    rw [h.stopped hlooked]
    cases anyActive w.store.jobs w.store.batches with
    | true => exact iff_of_false (fun hiff => Bool.false_ne_true (hiff.2 rfl)) (by simp)
    | false => exact iff_of_true Iff.rfl (.inr rfl)

lemma Inv.converged_iff (h : w.Inv) : w.Converged ↔ w.InTurn := by
  constructor
  · intro hconv
    refine ⟨?_, ?_, ?_⟩
    · rw [← h.jobs]
      exact hconv.jobs
    · rw [← h.batches]
      exact hconv.batches
    · rw [← h.jobs, ← h.batches]
      cases hlast : w.stoppedLast with
      | true => exact .inl rfl
      | false => exact .inr (h.polling_iff.1 (hconv.polling hlast))
  · intro hturn
    refine ⟨?_, ?_, fun hlast => ?_⟩
    · rw [h.jobs]
      exact hturn.jobs
    · rw [h.batches]
      exact hturn.batches
    · rw [h.polling_iff, h.jobs, h.batches]
      exact hturn.looked.resolve_left (by rw [hlast]; exact Bool.false_ne_true)

end TransferWorld

/-- At every moment of a run from the fresh store there is at most one timer, and the store has converged whenever
every request is answered, exactly when at each of those moments the listings came in turn. -/
theorem converges_iff (es : List TransferEvent) :
    Machine.Always TransferWorld.step (fun w => w.intervals.length ≤ 1 ∧ (w.Settled → w.Converged)) {} es ↔
      Machine.Always TransferWorld.step (fun w => w.Settled → w.InTurn) {} es := by
  apply Machine.always_congr TransferWorld.Inv.initial fun _ e h => h.step e
  intro w h
  exact ⟨fun hw hsettled => h.converged_iff.1 (hw.2 hsettled),
    fun hw => ⟨h.length_intervals, fun hsettled => h.converged_iff.2 (hw hsettled)⟩⟩

/-- The answer to the first of two listings comes last: the running job disappears, and the polling stops. -/
theorem older_listing_shown : ¬Machine.Always TransferWorld.step
    (fun w => w.intervals.length ≤ 1 ∧ (w.Settled → w.Converged)) ({} : TransferWorld)
    [.loadJobs, .loadJobs, .jobsListed 1 [⟨['j'], .running⟩], .jobsListed 0 []] := by
  intro h
  have hconv := h.last.2 ⟨rfl, rfl, rfl⟩
  have hjobs := hconv.jobs (1, [⟨['j'], .running⟩]) ⟨List.mem_cons_self, fun other hother => by
    rcases List.mem_cons.1 hother with rfl | hother
    · exact le_rfl
    · rcases List.mem_cons.1 hother with rfl | hother
      · exact Nat.zero_le 1
      · cases hother⟩
  cases hjobs

end SshGpuConsole.Frontend
