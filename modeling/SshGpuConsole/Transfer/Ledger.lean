import SshGpuConsole.Transfer.Deadlock
import SshGpuConsole.Transfer.Locks

/-!
# The table of jobs over whole runs

What the service does to its jobs, without the permits: the registry, the phases of the workers, and the recorded
placements. The worker of a job moves through `Turn`s of this table (`turn_resume`). In every state reached the active
jobs are those that are under way and hold their locks, a job that is listed and has no worker left is at its end, a
placement is recorded exactly for the completed jobs, and what is completed or failed stays so.
-/

namespace SshGpuConsole.Transfers
open Shell (Text)
open Batch (TransferState)
open Workspace (TransferStrategy)

/-- The jobs, how far their workers are, the jobs whose placement was recorded, and whether the service was stopped. -/
structure Ledger where
  jobs : JobRegistry
  phase : ℕ → Phase
  placements : List ℕ
  stopped : Bool

def Service.ledger (σ : Service) : Ledger := ⟨σ.jobs, fun k => (σ.worker k).phase, σ.placements, σ.stopped⟩

namespace Ledger

def transition (L : Ledger) (limit j : ℕ) (state : TransferState) : Ledger := { L with jobs := L.jobs.transition limit j state }

def suspend (L : Ledger) (j : ℕ) (phase : Phase) : Ledger := { L with phase := Function.update L.phase j phase }

def assign (L : Ledger) (j : ℕ) (strategy : TransferStrategy) : Ledger :=
  { L with jobs := { L.jobs with job := Function.update L.jobs.job j { L.jobs.job j with strategy_used := some strategy } } }

def record (L : Ledger) (j : ℕ) : Ledger := { L with placements := L.placements ++ [j] }

/-- What a worker does to the table from one await to the next. -/
inductive Turn (limit j : ℕ) : Ledger → Ledger → Prop
  | suspend {L} (phase : Phase) : phase ≠ .start → phase ≠ .finished → Turn limit j L (L.suspend j phase)
  | goOn {L L'} (state : TransferState) : state.terminal = false → Turn limit j (L.transition limit j state) L' → Turn limit j L L'
  | assign {L L'} (strategy : TransferStrategy) : Turn limit j (L.assign j strategy) L' → Turn limit j L L'
  /-- The job was dropped, or cancelled before. -/
  | quit {L} : L.jobs.find j = false ∨ (L.jobs.job j).state = .cancelled → Turn limit j L (L.suspend j .finished)
  | fail {L} (state : TransferState) : state = .failed ∨ state = .cancelled →
      Turn limit j L ((L.transition limit j state).suspend j .finished)
  | complete {L} : Turn limit j L (((L.transition limit j .completed).record j).suspend j .finished)

end Ledger

namespace Service
variable {settings : Settings} {σ : Service} {j : ℕ}

/-! ### The table of the service -/

lemma ledger_of (σ' : Service) (hjobs : σ'.jobs = σ.jobs) (hphase : ∀ k, (σ'.worker k).phase = (σ.worker k).phase)
    (hplacements : σ'.placements = σ.placements) (hstopped : σ'.stopped = σ.stopped) : σ'.ledger = σ.ledger := by
  unfold ledger
  rw [hjobs, hplacements, hstopped, funext hphase]

@[simp] lemma ledger_take (σ : Service) (j : ℕ) (p : Permit) : (σ.take j p).ledger = σ.ledger :=
  ledger_of _ rfl (phase_take σ j p) rfl rfl

@[simp] lemma ledger_wakeNext (σ : Service) (resource : Resource) : (σ.wakeNext resource).ledger = σ.ledger := by
  rcases wakeNext_cases σ resource with heq | ⟨k, p, -, -, -, -, -, -, heq⟩
  · rw [heq]
  · rw [heq]
    exact ledger_take σ k p

@[simp] lemma ledger_wakeAll (resource : Resource) (n : ℕ) (σ : Service) :
    (Service.wakeAll resource n σ).ledger = σ.ledger := by
  induction n generalizing σ with
  | zero => rfl
  | succ n ih => exact (ih _).trans (ledger_wakeNext σ resource)

@[simp] lemma ledger_wakeWaiters (σ : Service) (resource : Resource) : (σ.wakeWaiters resource).ledger = σ.ledger :=
  ledger_wakeAll resource _ σ

@[simp] lemma ledger_giveBack (σ : Service) (j : ℕ) (p : Permit) : (σ.giveBack j p).ledger = σ.ledger :=
  ledger_of _ rfl (phase_giveBack σ j p) rfl rfl

@[simp] lemma ledger_release (σ : Service) (j : ℕ) (p : Permit) : (σ.release j p).ledger = σ.ledger := by
  unfold Service.release
  rw [ledger_wakeNext, ledger_giveBack]

@[simp] lemma ledger_unpark (σ : Service) (j : ℕ) (p : Permit) : (σ.unpark j p).ledger = σ.ledger :=
  ledger_of _ rfl (fun _ => rfl) rfl rfl

@[simp] lemma ledger_setPhase (σ : Service) (j : ℕ) (phase : Phase) :
    (σ.setPhase j phase).ledger = σ.ledger.suspend j phase := by
  have hphase : (fun k => ((σ.setPhase j phase).worker k).phase) =
      Function.update (fun k => (σ.worker k).phase) j phase := by
    funext k
    rw [worker_setPhase]
    by_cases hk : k = j
    · rw [if_pos hk, hk, Function.update_self]
    · rw [if_neg hk, Function.update_of_ne hk]
  unfold ledger Ledger.suspend
  dsimp only
  rw [hphase]
  rfl

@[simp] lemma ledger_park (σ : Service) (j : ℕ) (p : Permit) : (σ.park j p).ledger = σ.ledger.suspend j (.slot p) :=
  (ledger_setPhase _ j (.slot p)).trans rfl

@[simp] lemma ledger_finish (σ : Service) (j : ℕ) : (σ.finish j).ledger = σ.ledger.suspend j .finished :=
  (ledger_setPhase _ j .finished).trans rfl

@[simp] lemma ledger_transition (σ : Service) (j : ℕ) (state : TransferState) :
    (σ.transition settings j state).ledger = σ.ledger.transition settings.transfer_job_history j state :=
  rfl

/-! ### Turns -/

/-- The turn of a worker, whatever it does to permits. -/
abbrev Turns (settings : Settings) (j : ℕ) (σ σ' : Service) : Prop :=
  Ledger.Turn settings.transfer_job_history j σ.ledger σ'.ledger

lemma ledger_leave_none : (σ.leave settings j none).ledger = σ.ledger.suspend j .finished := by
  show ((σ.release j .overall).finish j).ledger = _
  rw [ledger_finish, ledger_release]

lemma turn_over (h : σ.jobs.find j = false ∨ (σ.jobs.job j).state = .cancelled) :
    Turns settings j σ (σ.leave settings j none) := by
  show Ledger.Turn _ _ _ (Service.ledger _)
  rw [ledger_leave_none]
  exact .quit h

lemma turn_fail {state : TransferState} (h : state = .failed ∨ state = .cancelled) :
    Turns settings j σ (leave settings (σ.transition settings j state) j none) := by
  show Ledger.Turn _ _ _ (Service.ledger _)
  rw [ledger_leave_none]
  exact .fail state h

lemma turn_complete : Turns settings j σ (σ.complete settings j) := by
  show Ledger.Turn _ _ _ (Service.ledger _)
  unfold Service.complete
  rw [ledger_leave_none]
  exact .complete

/-- What a worker does up to its end stays a turn when permits were released before. -/
lemma turns_congr {σ₀ σ' : Service} (h : Turns settings j σ₀ σ') (heq : σ₀.ledger = σ.ledger) : Turns settings j σ σ' := by
  unfold Turns at h
  rw [heq] at h
  exact h

lemma turn_failure (failure : Failure) : Turns settings j σ (σ.leave settings j (some failure)) := by
  have hrelease : (σ.release j .overall).ledger = σ.ledger := ledger_release σ j .overall
  have hstate : ((σ.release j .overall).jobs.job j).state = (σ.jobs.job j).state :=
    congrArg (fun L : Ledger => (L.jobs.job j).state) hrelease
  have hfail : ∀ state, state = TransferState.failed ∨ state = .cancelled →
      Turns settings j σ (finish ((σ.release j .overall).transition settings j state) j) := by
    intro state h
    show Ledger.Turn _ _ _ (Service.ledger _)
    rw [ledger_finish, ledger_transition, hrelease]
    exact .fail state h
  have hother : Turns settings j σ (finish (if ((σ.release j .overall).jobs.job j).state = TransferState.cancelled then
      σ.release j .overall else (σ.release j .overall).transition settings j .failed) j) := by
    split
    · rename_i hcancelled
      show Ledger.Turn _ _ _ (Service.ledger _)
      rw [ledger_finish, hrelease]
      exact .quit (.inr (hstate ▸ hcancelled))
    · exact hfail .failed (.inl rfl)
  cases failure with
  | cancelled => exact hfail .cancelled (.inr rfl)
  | conflict => exact hfail .failed (.inl rfl)
  | cancelRequested => exact hother
  | error => exact hother

lemma turn_verified (ok : Bool) : Turns settings j σ (σ.verified settings j ok) := by
  cases ok with
  | false => exact turn_fail (.inl rfl)
  | true => exact turn_complete

lemma ledger_releaseSlots (σ : Service) (j : ℕ) : ((σ.release j .target).release j .source).ledger = σ.ledger := by
  rw [ledger_release, ledger_release]

lemma turn_suspend {phase : Phase} (hstart : phase ≠ .start) (hfinished : phase ≠ .finished) :
    Turns settings j σ (σ.setPhase j phase) := by
  show Ledger.Turn _ _ _ (Service.ledger _)
  rw [ledger_setPhase]
  exact .suspend phase hstart hfinished

lemma turn_park (p : Permit) : Turns settings j σ (σ.park j p) := by
  show Ledger.Turn _ _ _ (Service.ledger _)
  rw [ledger_park]
  exact .suspend (.slot p) Phase.noConfusion Phase.noConfusion

lemma turn_goOn {σ' : Service} (state : TransferState) (hstate : state.terminal = false)
    (h : Turns settings j (σ.transition settings j state) σ') : Turns settings j σ σ' :=
  .goOn state hstate h

lemma turn_leaveSlots (ending : Ending) : Turns settings j σ (σ.leaveSlots settings j ending) := by
  have hslots := ledger_releaseSlots σ j
  have hfail : ∀ failure, Turns settings j σ
      (leave settings ((σ.release j .target).release j .source) j (some failure)) :=
    fun failure => turns_congr (turn_failure failure) hslots
  unfold leaveSlots
  cases ending with
  | none =>
    refine turns_congr ?_ hslots
    dsimp only
    split
    · rename_i hfind
      exact turn_over (.inl (Bool.not_eq_true' _ ▸ hfind))
    · refine turn_goOn .verifying rfl ?_
      split
      · exact turn_complete
      · exact turn_suspend Phase.noConfusion Phase.noConfusion
  | some failure =>
    cases failure with
    | conflict => exact hfail .conflict
    | error => exact hfail .error
    | cancelled => exact hfail .cancelled
    | cancelRequested =>
      dsimp only
      split
      · rename_i hcancelled
        refine turns_congr (turn_over (.inr ?_)) hslots
        exact (congrArg (fun L : Ledger => (L.jobs.job j).state) hslots).trans hcancelled
      · show Ledger.Turn _ _ _ (Service.ledger _)
        rw [ledger_leave_none, ledger_releaseSlots]
        exact .fail .cancelled (.inr rfl)

lemma turn_inSlots (fault : Option Fault) : Turns settings j σ (σ.inSlots settings j fault) := by
  unfold inSlots
  split
  · rename_i hfind
    exact turns_congr (turn_over (.inl ((congrArg (fun L : Ledger => L.jobs.find j) (ledger_releaseSlots σ j)).trans
      (Bool.not_eq_true' _ ▸ hfind)))) (ledger_releaseSlots σ j)
  · split
    · split
      · exact turn_leaveSlots _
      · refine turn_goOn .running rfl ?_
        cases fault with
        | none => exact turn_suspend Phase.noConfusion Phase.noConfusion
        | some fault => exact turn_leaveSlots _
    · exact turn_goOn .running rfl (turn_suspend Phase.noConfusion Phase.noConfusion)

lemma turn_tryTarget (fault : Option Fault) : Turns settings j σ (σ.tryTarget settings j fault) := by
  unfold tryTarget
  split
  · exact turn_park .target
  · exact turns_congr (turn_inSlots fault) (ledger_take σ j .target)

lemma turn_trySource (fault : Option Fault) : Turns settings j σ (σ.trySource settings j fault) := by
  unfold trySource
  split
  · exact turn_park .source
  · exact turns_congr (turn_tryTarget fault) (ledger_take σ j .source)

lemma turn_planned (strategy : Option TransferStrategy) (probes : Bool) (fault : Option Fault) :
    Turns settings j σ (σ.planned settings j strategy probes fault) := by
  unfold planned
  split
  · rename_i hfind
    exact turn_over (.inl (Bool.not_eq_true' _ ▸ hfind))
  · cases strategy with
    | none => exact turn_fail (.inl rfl)
    | some strategy =>
      have hassigned : ∀ σ', Turns settings j (σ.assign j strategy) σ' → Turns settings j σ σ' := fun σ' h =>
        .assign strategy h
      dsimp only
      split
      · exact hassigned _ (turn_suspend Phase.noConfusion Phase.noConfusion)
      · exact hassigned _ (turn_trySource fault)

lemma turn_planAndRun (fault : Option Fault) : Turns settings j σ (σ.planAndRun settings j fault) := by
  unfold planAndRun
  split
  · rename_i hfind
    exact turn_over (.inl (Bool.not_eq_true' _ ▸ hfind))
  · refine turn_goOn .planning rfl ?_
    cases fault with
    | none => exact turn_suspend Phase.noConfusion Phase.noConfusion
    | some fault => exact turn_failure _

lemma turn_runJob (fault : Option Fault) : Turns settings j σ (σ.runJob settings j fault) := by
  unfold runJob
  split
  · exact turn_park .overall
  · exact turns_congr (turn_planAndRun fault) (ledger_take σ j .overall)

lemma turn_passSlot (p : Permit) (fault : Option Fault) : Turns settings j σ (σ.passSlot settings j p fault) := by
  have hrest : ((σ.unpark j p).wakeWaiters (σ.resource j p)).ledger = σ.ledger := by
    rw [ledger_wakeWaiters, ledger_unpark]
  cases p with
  | overall => exact turns_congr (turn_planAndRun fault) hrest
  | source => exact turns_congr (turn_tryTarget fault) hrest
  | target => exact turns_congr (turn_inSlots fault) hrest

lemma turn_abandonSlot (p : Permit) : Turns settings j σ (σ.abandonSlot settings j p) := by
  have hrest : ((if ((σ.unpark j p).worker j).held p then (σ.unpark j p).giveBack j p else σ.unpark j p).wakeWaiters
      (σ.resource j p)).ledger = σ.ledger := by
    rw [ledger_wakeWaiters]
    split
    · rw [ledger_giveBack, ledger_unpark]
    · rw [ledger_unpark]
  cases p with
  | overall =>
    refine turns_congr ?_ hrest
    show Ledger.Turn _ _ _ (Service.ledger (finish _ j))
    rw [ledger_finish]
    exact .fail .cancelled (.inr rfl)
  | source => exact turns_congr (turn_failure .cancelled) hrest
  | target => exact turns_congr (turn_failure .cancelled) ((ledger_release _ j .source).trans hrest)

/-- A worker that is resumed does a turn, but for one that is cancelled before it has run. -/
lemma turn_resume (hlive : (σ.worker j).phase ≠ .finished) {answer : Answer} (fault : Option Fault)
    (hstart : (σ.worker j).phase = .start → ∀ failure, answer ≠ .raised failure) :
    Turns settings j σ (σ.resume settings j answer fault) := by
  have hstay : (σ.worker j).phase ≠ .start → Turns settings j σ σ := by
    intro hs
    have hsame : σ.ledger.suspend j (σ.worker j).phase = σ.ledger := by
      show ({ σ.ledger with phase := Function.update σ.ledger.phase j (σ.ledger.phase j) } : Ledger) = _
      rw [Function.update_eq_self]
    have hturn : Ledger.Turn settings.transfer_job_history j σ.ledger (σ.ledger.suspend j (σ.worker j).phase) :=
      .suspend _ hs hlive
    rw [hsame] at hturn
    exact hturn
  unfold Service.resume
  cases hp : (σ.worker j).phase with
  | finished => exact absurd hp hlive
  | start =>
    cases answer with
    | raised failure => exact absurd rfl (hstart hp failure)
    | done => exact turn_runJob fault
    | plan strategy probes => exact turn_runJob fault
    | yes => exact turn_runJob fault
    | no => exact turn_runJob fault
  | slot p =>
    cases answer with
    | raised failure => exact turn_abandonSlot p
    | done => exact turn_passSlot p fault
    | plan strategy probes => exact turn_passSlot p fault
    | yes => exact turn_passSlot p fault
    | no => exact turn_passSlot p fault
  | planning =>
    cases answer with
    | plan strategy probes => exact turn_planned strategy probes fault
    | raised failure => exact turn_failure _
    | _ => exact hstay (hp ▸ Phase.noConfusion)
  | preflight =>
    cases answer with
    | no => exact turn_fail (.inl rfl)
    | raised failure =>
      cases failure with
      | cancelled => exact turn_failure _
      | conflict => exact turn_trySource fault
      | cancelRequested => exact turn_trySource fault
      | error => exact turn_trySource fault
    | done => exact turn_trySource fault
    | plan strategy probes => exact turn_trySource fault
    | yes => exact turn_trySource fault
  | preparing =>
    cases answer with
    | done => exact turn_suspend Phase.noConfusion Phase.noConfusion
    | raised failure => exact turn_leaveSlots _
    | _ => exact hstay (hp ▸ Phase.noConfusion)
  | command =>
    cases answer with
    | done => exact turn_leaveSlots none
    | raised failure =>
      cases failure with
      | cancelled => exact turn_suspend Phase.noConfusion Phase.noConfusion
      | conflict => exact turn_leaveSlots _
      | cancelRequested => exact turn_leaveSlots _
      | error => exact turn_leaveSlots _
    | _ => exact hstay (hp ▸ Phase.noConfusion)
  | sessions =>
    cases answer with
    | done => exact turn_suspend Phase.noConfusion Phase.noConfusion
    | raised failure => exact turn_leaveSlots _
    | _ => exact hstay (hp ▸ Phase.noConfusion)
  | copying =>
    cases answer with
    | done => exact turn_suspend Phase.noConfusion Phase.noConfusion
    | raised failure => exact turn_suspend Phase.noConfusion Phase.noConfusion
    | _ => exact hstay (hp ▸ Phase.noConfusion)
  | closing ending =>
    cases answer with
    | done => exact turn_leaveSlots _
    | raised failure => exact turn_leaveSlots _
    | _ => exact hstay (hp ▸ Phase.noConfusion)
  | verifying =>
    cases answer with
    | yes => exact turn_verified true
    | no => exact turn_verified false
    | raised failure => exact turn_failure _
    | _ => exact hstay (hp ▸ Phase.noConfusion)

end Service

/-! ### The registry -/

namespace JobRegistry
variable {r : JobRegistry} {limit j k : ℕ} {state : TransferState}

lemma state_setState : ((r.setState j state).job k).state = if k = j then state else (r.job k).state := by
  show (Function.update r.job j _ k).state = _
  split
  · rename_i hk
    rw [hk, Function.update_self]
  · rename_i hk
    rw [Function.update_of_ne hk]

lemma state_transition : ((r.transition limit j state).job k).state = if k = j then state else (r.job k).state := by
  rw [(Service.job_transition r limit j state).1]
  exact state_setState

lemma lists_releaseTargetLock : (r.releaseTargetLock j).active = r.active ∧ (r.releaseTargetLock j).history = r.history := by
  unfold releaseTargetLock
  split
  · exact ⟨rfl, rfl⟩
  · exact ⟨rfl, rfl⟩

lemma lists_goOn (h : state.terminal = false) :
    (r.transition limit j state).active = r.active ∧ (r.transition limit j state).history = r.history := by
  unfold transition
  rw [if_neg (Bool.not_eq_true _ ▸ h)]
  exact ⟨rfl, rfl⟩

lemma lists_end (h : state.terminal = true) : (r.transition limit j state).active = r.active.filter (· ≠ j) ∧
    (r.transition limit j state).history = (j :: r.history).take limit := by
  have hlists := lists_releaseTargetLock (r := r.setState j state) (j := j)
  unfold transition
  rw [if_pos h]
  unfold archive
  dsimp only
  rw [hlists.1, hlists.2]
  exact ⟨rfl, rfl⟩

/-- The job is found when it is listed. -/
lemma find_iff : r.find k = true ↔ k ∈ r.active ∨ k ∈ r.history := by
  unfold find
  rw [Bool.or_eq_true, List.contains_iff_mem, List.contains_iff_mem]

lemma find_transition (hne : k ≠ j) (h : r.find k = false) : (r.transition limit j state).find k = false := by
  rw [Bool.eq_false_iff] at h ⊢
  refine fun hfound => h (find_iff.2 ?_)
  rw [find_iff] at hfound
  cases hstate : state.terminal with
  | false =>
    rw [(lists_goOn hstate).1, (lists_goOn hstate).2] at hfound
    exact hfound
  | true =>
    rw [(lists_end hstate).1, (lists_end hstate).2] at hfound
    rcases hfound with hactive | hhistory
    · exact .inl (List.mem_filter.1 hactive).1
    · exact .inr ((List.mem_cons.1 (List.mem_of_mem_take hhistory)).resolve_left hne)

end JobRegistry

namespace Ledger
variable {limit : ℕ} {L L' : Ledger} {j : ℕ} {exempt : Option ℕ} {state : TransferState}

/-! ### What is kept -/

/-- The jobs are in order, but for one whose worker is running. -/
structure Kept (limit : ℕ) (exempt : Option ℕ) (L : Ledger) : Prop where
  locked : L.jobs.Locked
  nodup : L.jobs.active.Nodup
  apart : ∀ j ∈ L.jobs.active, j ∉ L.jobs.history
  live : ∀ j ∈ L.jobs.active, (L.jobs.job j).state.terminal = false
  bounded : L.jobs.history.length ≤ limit
  born : ∀ j ∈ L.jobs.history, j < L.jobs.count
  unborn : ∀ j, L.jobs.count ≤ j → (L.jobs.job j).state = .queued ∧ L.phase j = .start
  ended : ∀ j, (L.jobs.job j).state = .completed ∨ (L.jobs.job j).state = .failed →
    some j ≠ exempt ∧ L.phase j = .finished
  settled : ∀ j, some j ≠ exempt → L.phase j = .finished →
    (L.jobs.job j).state.terminal = true ∨ L.jobs.find j = false
  starting : ∀ j, some j ≠ exempt → j < L.jobs.count → L.phase j = .start →
    (L.jobs.job j).state = .cancelled ∨ j ∈ L.jobs.active
  placed : ∀ j, j ∈ L.placements ↔ (L.jobs.job j).state = .completed
  placed_nodup : L.placements.Nodup

lemma state_transition {k : ℕ} :
    ((L.transition limit j state).jobs.job k).state = if k = j then state else (L.jobs.job k).state :=
  JobRegistry.state_transition

lemma Kept.not_completed (h : Kept limit (some j) L) : (L.jobs.job j).state ≠ .completed :=
  fun e => (h.ended j (.inl e)).1 rfl

/-- The worker starts to run. -/
lemma Kept.enter (h : Kept limit none L) (hlive : L.phase j ≠ .finished) : Kept limit (some j) L where
  locked := h.locked
  nodup := h.nodup
  apart := h.apart
  live := h.live
  bounded := h.bounded
  born := h.born
  unborn := h.unborn
  ended k hk := by
    have hfinished := (h.ended k hk).2
    exact ⟨fun e => hlive (Option.some.inj e ▸ hfinished), hfinished⟩
  settled k _ := h.settled k (Option.some_ne_none k)
  starting k _ := h.starting k (Option.some_ne_none k)
  placed := h.placed
  placed_nodup := h.placed_nodup

lemma Kept.goOn (h : Kept limit (some j) L) (hj : j < L.jobs.count) (hstate : state.terminal = false) :
    Kept limit (some j) (L.transition limit j state) := by
  have hlists : (L.transition limit j state).jobs.active = L.jobs.active ∧
      (L.transition limit j state).jobs.history = L.jobs.history := JobRegistry.lists_goOn hstate
  have hcount : (L.transition limit j state).jobs.count = L.jobs.count := (Service.job_transition _ _ _ _).2.1
  have hends : state ≠ .completed ∧ state ≠ .failed := by
    constructor
    · rintro rfl
      cases hstate
    · rintro rfl
      cases hstate
  have hfind : ∀ k, (L.transition limit j state).jobs.find k = L.jobs.find k := by
    intro k
    unfold JobRegistry.find
    rw [hlists.1, hlists.2]
  refine ⟨h.locked.transition j state, ?_, ?_, fun k hk => ?_, ?_, ?_, fun k hk => ?_, fun k hk => ?_, fun k hne hk => ?_,
    fun k hne hk hp => ?_, fun k => ?_, h.placed_nodup⟩
  · rw [hlists.1]
    exact h.nodup
  · rw [hlists.1, hlists.2]
    exact h.apart
  · rw [hlists.1] at hk
    rw [state_transition]
    split
    · exact hstate
    · exact h.live k hk
  · rw [hlists.2]
    exact h.bounded
  · rw [hlists.2, hcount]
    exact h.born
  · rw [hcount] at hk
    rw [state_transition, if_neg (fun e : k = j => absurd (e ▸ hj) (Nat.not_lt.2 hk))]
    exact h.unborn k hk
  · rw [state_transition] at hk
    split at hk
    · exact absurd hk (not_or.2 hends)
    · exact h.ended k hk
  · rw [state_transition, if_neg (fun e => hne (congrArg some e)), hfind]
    exact h.settled k hne hk
  · rw [state_transition, if_neg (fun e => hne (congrArg some e)), hlists.1]
    exact h.starting k hne (hcount ▸ hk) hp
  · show k ∈ L.placements ↔ _
    rw [state_transition, h.placed]
    split
    · rename_i hk
      rw [hk]
      exact iff_of_false h.not_completed hends.1
    · exact Iff.rfl

/-- A job and its strategy. -/
lemma job_assign (strategy : TransferStrategy) (k : ℕ) :
    ((L.assign j strategy).jobs.job k).state = (L.jobs.job k).state ∧
      ((L.assign j strategy).jobs.job k).key = (L.jobs.job k).key := by
  unfold assign
  dsimp only
  by_cases hk : k = j
  · rw [hk, Function.update_self]
    exact ⟨rfl, rfl⟩
  · rw [Function.update_of_ne hk]
    exact ⟨rfl, rfl⟩

lemma Kept.assign (h : Kept limit (some j) L) (strategy : TransferStrategy) : Kept limit (some j) (L.assign j strategy) := by
  have hstate : ∀ k, ((L.assign j strategy).jobs.job k).state = (L.jobs.job k).state := fun k => (job_assign strategy k).1
  refine ⟨⟨h.locked.created, fun k hk => ?_, fun key k hk => ?_⟩, h.nodup, h.apart, fun k hk => ?_, h.bounded, h.born,
    fun k hk => ?_, fun k hk => ?_, fun k hne hk => ?_, fun k hne hk hp => ?_, fun k => ?_, h.placed_nodup⟩
  · rw [(job_assign strategy k).2]
    exact h.locked.holds k hk
  · rw [(job_assign strategy k).2]
    exact h.locked.held key k hk
  · rw [hstate]
    exact h.live k hk
  · rw [hstate]
    exact h.unborn k hk
  · rw [hstate] at hk
    exact h.ended k hk
  · rw [hstate]
    exact h.settled k hne hk
  · rw [hstate]
    exact h.starting k hne hk hp
  · rw [hstate]
    exact h.placed k

lemma phase_suspend {phase : Phase} {k : ℕ} : (L.suspend j phase).phase k = if k = j then phase else L.phase k := by
  show Function.update L.phase j phase k = _
  split
  · rename_i hk
    rw [hk, Function.update_self]
  · rename_i hk
    rw [Function.update_of_ne hk]

lemma Kept.suspend (h : Kept limit (some j) L) (hj : j < L.jobs.count) (phase : Phase) :
    Kept limit (some j) (L.suspend j phase) where
  locked := h.locked
  nodup := h.nodup
  apart := h.apart
  live := h.live
  bounded := h.bounded
  born := h.born
  unborn k hk := by
    rw [phase_suspend, if_neg (fun e : k = j => absurd (e ▸ hj) (Nat.not_lt.2 hk))]
    exact h.unborn k hk
  ended k hk := by
    obtain ⟨hne, hphase⟩ := h.ended k hk
    rw [phase_suspend, if_neg (fun e : k = j => hne (congrArg some e))]
    exact ⟨hne, hphase⟩
  settled k hne hk := by
    rw [phase_suspend, if_neg (fun e : k = j => hne (congrArg some e))] at hk
    exact h.settled k hne hk
  starting k hne hk hp := by
    rw [phase_suspend, if_neg (fun e : k = j => hne (congrArg some e))] at hp
    exact h.starting k hne hk hp
  placed := h.placed
  placed_nodup := h.placed_nodup

/-- The worker stops running, at an await or at its end. -/
lemma Kept.settle (h : Kept limit (some j) L) (hstart : L.phase j ≠ .start)
    (hend : L.phase j = .finished → (L.jobs.job j).state.terminal = true ∨ L.jobs.find j = false) : Kept limit none L where
  locked := h.locked
  nodup := h.nodup
  apart := h.apart
  live := h.live
  bounded := h.bounded
  born := h.born
  unborn := h.unborn
  ended k hk := ⟨Option.some_ne_none k, (h.ended k hk).2⟩
  settled k _ hk := by
    by_cases heq : k = j
    · rw [heq] at hk ⊢
      exact hend hk
    · exact h.settled k (fun e => heq (Option.some.inj e)) hk
  starting k _ hk hp := by
    by_cases heq : k = j
    · exact absurd (heq ▸ hp) hstart
    · exact h.starting k (fun e => heq (Option.some.inj e)) hk hp
  placed := h.placed
  placed_nodup := h.placed_nodup

/-- A job is taken out of the active ones into the history. -/
structure Archived (limit j : ℕ) (L L' : Ledger) : Prop where
  active : L'.jobs.active = L.jobs.active.filter (· ≠ j)
  history : L'.jobs.history = (j :: L.jobs.history).take limit
  count : L'.jobs.count = L.jobs.count

lemma archived_transition (hstate : state.terminal = true) : Archived limit j L (L.transition limit j state) :=
  ⟨(JobRegistry.lists_end hstate).1, (JobRegistry.lists_end hstate).2, (Service.job_transition _ _ _ _).2.1⟩

namespace Archived

lemma mem_active (h : Archived limit j L L') {k : ℕ} : k ∈ L'.jobs.active ↔ k ∈ L.jobs.active ∧ k ≠ j := by
  rw [h.active, List.mem_filter, decide_eq_true_iff]

lemma mem_history (h : Archived limit j L L') {k : ℕ} (hk : k ∈ L'.jobs.history) : k = j ∨ k ∈ L.jobs.history := by
  rw [h.history] at hk
  exact List.mem_cons.1 (List.mem_of_mem_take hk)

lemma apart (h : Archived limit j L L') (happart : ∀ j ∈ L.jobs.active, j ∉ L.jobs.history) :
    ∀ k ∈ L'.jobs.active, k ∉ L'.jobs.history := by
  intro k hk hhistory
  obtain ⟨hactive, hne⟩ := h.mem_active.1 hk
  exact happart k hactive ((h.mem_history hhistory).resolve_left hne)

lemma find (h : Archived limit j L L') {k : ℕ} (hne : k ≠ j) (hk : L.jobs.find k = false) : L'.jobs.find k = false := by
  rw [Bool.eq_false_iff] at hk ⊢
  refine fun hfound => hk (JobRegistry.find_iff.2 ?_)
  exact (JobRegistry.find_iff.1 hfound).imp (fun hactive => (h.mem_active.1 hactive).1)
    fun hhistory => (h.mem_history hhistory).resolve_left hne

end Archived

/-- A job that was not completed comes to its end: it is cancelled, or its worker is done. -/
lemma Kept.close (h : Kept limit exempt L) (hexempt : ∀ k, k ≠ j → some k ≠ exempt) (hj : j < L.jobs.count)
    (hopen : (L.jobs.job j).state ≠ .completed) (hstate : state.terminal = true)
    (hphase : state = .cancelled ∨ L.phase j = .finished) {placements : List ℕ}
    (hplacements : placements = if state = .completed then L.placements ++ [j] else L.placements) :
    Kept limit none { L.transition limit j state with placements } := by
  have harchived : Archived limit j L (L.transition limit j state) := archived_transition hstate
  have hstates : ∀ k, ((L.transition limit j state).jobs.job k).state = if k = j then state else (L.jobs.job k).state :=
    fun k => state_transition
  have hnew : j ∉ L.placements := fun hmem => hopen ((h.placed j).1 hmem)
  refine ⟨h.locked.transition j state, ?_, harchived.apart h.apart, fun k hk => ?_, ?_, fun k hk => ?_, fun k hk => ?_,
    fun k hk => ?_, fun k _ hk => ?_, fun k _ hk hp => ?_, fun k => ?_, ?_⟩
  · show (L.transition limit j state).jobs.active.Nodup
    rw [harchived.active]
    exact h.nodup.filter _
  · obtain ⟨hactive, hne⟩ := harchived.mem_active.1 hk
    show ((L.transition limit j state).jobs.job k).state.terminal = false
    rw [hstates, if_neg hne]
    exact h.live k hactive
  · show (L.transition limit j state).jobs.history.length ≤ limit
    rw [harchived.history]
    exact List.length_take_le _ _
  · show k < (L.transition limit j state).jobs.count
    rw [harchived.count]
    rcases harchived.mem_history hk with rfl | hhistory
    · exact hj
    · exact h.born k hhistory
  · have hborn : L.jobs.count ≤ k := harchived.count ▸ hk
    show ((L.transition limit j state).jobs.job k).state = _ ∧ L.phase k = _
    rw [hstates, if_neg fun e : k = j => absurd (e ▸ hj) (Nat.not_lt.2 hborn)]
    exact h.unborn k hborn
  · have hk : ((L.transition limit j state).jobs.job k).state = .completed ∨
        ((L.transition limit j state).jobs.job k).state = .failed := hk
    rw [hstates] at hk
    refine ⟨Option.some_ne_none k, ?_⟩
    split at hk
    · rename_i heq
      rw [heq]
      refine hphase.resolve_left fun hcancelled => ?_
      rw [hcancelled] at hk
      exact hk.elim TransferState.noConfusion TransferState.noConfusion
    · exact (h.ended k hk).2
  · show ((L.transition limit j state).jobs.job k).state.terminal = true ∨ (L.transition limit j state).jobs.find k = false
    rw [hstates]
    split
    · exact .inl hstate
    · rename_i hne
      exact (h.settled k (hexempt k hne) hk).imp id (harchived.find hne)
  · show ((L.transition limit j state).jobs.job k).state = _ ∨ k ∈ (L.transition limit j state).jobs.active
    have hstart : L.phase k = .start := hp
    rw [hstates]
    split
    · rename_i heq
      refine .inl (hphase.resolve_right fun hfinished => ?_)
      rw [heq, hfinished] at hstart
      cases hstart
    · rename_i hne
      exact (h.starting k (hexempt k hne) (harchived.count ▸ hk) hp).imp id
        fun hactive => harchived.mem_active.2 ⟨hactive, hne⟩
  · show k ∈ placements ↔ ((L.transition limit j state).jobs.job k).state = .completed
    rw [hstates, hplacements]
    by_cases heq : k = j
    · rw [if_pos heq, heq]
      by_cases hcompleted : state = .completed
      · rw [if_pos hcompleted]
        exact iff_of_true (List.mem_append_right _ (List.mem_singleton_self j)) hcompleted
      · rw [if_neg hcompleted]
        exact iff_of_false hnew hcompleted
    · rw [if_neg heq, ← h.placed]
      split
      · rw [List.mem_append, List.mem_singleton, or_iff_left heq]
      · exact Iff.rfl
  · show placements.Nodup
    rw [hplacements]
    split
    · exact List.nodup_append.2 ⟨h.placed_nodup, List.nodup_singleton j, fun a ha b hb e =>
        hnew (List.mem_singleton.1 hb ▸ e ▸ ha)⟩
    · exact h.placed_nodup

lemma Kept.turn (h : Kept limit (some j) L) (hj : j < L.jobs.count) (ht : Turn limit j L L') : Kept limit none L' := by
  have hphase : ∀ (L : Ledger) phase, (L.suspend j phase).phase j = phase := fun L phase =>
    phase_suspend.trans (if_pos rfl)
  have hend : ∀ {L : Ledger}, Kept limit (some j) L → j < L.jobs.count →
      ∀ state placements, state.terminal = true →
      placements = (if state = TransferState.completed then L.placements ++ [j] else L.placements) →
      Kept limit none ({ L.transition limit j state with placements }.suspend j .finished) := by
    intro L h hj state placements hstate hplacements
    exact (h.suspend hj .finished).close (fun k hne e => hne (Option.some.inj e)) hj h.not_completed hstate
      (.inr (hphase L .finished)) hplacements
  induction ht with
  | suspend phase hstart hfinished =>
    refine (h.suspend hj phase).settle ?_ fun e => ?_
    · rw [hphase]
      exact hstart
    · rw [hphase] at e
      exact absurd e hfinished
  | goOn state hstate _ ih =>
    refine ih (h.goOn hj hstate) ?_
    show _ < (JobRegistry.transition _ _ _ _).count
    rw [(Service.job_transition _ _ _ _).2.1]
    exact hj
  | assign strategy _ ih => exact ih (h.assign strategy) hj
  | quit hover =>
    refine (h.suspend hj .finished).settle ?_ fun _ => hover.symm.imp (fun hcancelled => ?_) id
    · rw [hphase]
      exact Phase.noConfusion
    · exact (congrArg TransferState.terminal hcancelled).trans rfl
  | fail state hstate =>
    rcases hstate with rfl | rfl
    · exact hend h hj .failed _ rfl rfl
    · exact hend h hj .cancelled _ rfl rfl
  | complete => exact hend h hj .completed _ rfl rfl

/-- What a turn leaves as it is. -/
structure Turn.Leaves (j : ℕ) (L L' : Ledger) : Prop where
  stopped : L'.stopped = L.stopped
  count : L'.jobs.count = L.jobs.count
  active : ∀ k ∈ L'.jobs.active, k ∈ L.jobs.active
  state : ∀ k, k ≠ j → (L'.jobs.job k).state = (L.jobs.job k).state
  phase : ∀ k, k ≠ j → L'.phase k = L.phase k

lemma leaves_transition : Turn.Leaves j L (L.transition limit j state) where
  stopped := rfl
  count := (Service.job_transition _ _ _ _).2.1
  active k hk := by
    cases hstate : state.terminal with
    | false => exact (JobRegistry.lists_goOn hstate).1 ▸ hk
    | true => exact ((archived_transition hstate).mem_active.1 hk).1
  state k hne := state_transition.trans (if_neg hne)
  phase _ _ := rfl

lemma leaves_suspend {phase : Phase} : Turn.Leaves j L (L.suspend j phase) :=
  ⟨rfl, rfl, fun _ hk => hk, fun _ _ => rfl, fun _ hne => phase_suspend.trans (if_neg hne)⟩

lemma Turn.Leaves.trans {L'' : Ledger} (h : Turn.Leaves j L L') (h' : Turn.Leaves j L' L'') : Turn.Leaves j L L'' :=
  ⟨h'.stopped.trans h.stopped, h'.count.trans h.count, fun k hk => h.active k (h'.active k hk),
    fun k hne => (h'.state k hne).trans (h.state k hne), fun k hne => (h'.phase k hne).trans (h.phase k hne)⟩

lemma Turn.leaves (ht : Turn limit j L L') : Turn.Leaves j L L' := by
  induction ht with
  | suspend phase _ _ => exact leaves_suspend
  | goOn state _ _ ih => exact leaves_transition.trans ih
  | assign strategy _ ih =>
    have hassign : ∀ L : Ledger, Turn.Leaves j L (L.assign j strategy) := fun L =>
      ⟨rfl, rfl, fun _ hk => hk, fun k _ => (job_assign strategy k).1, fun _ _ => rfl⟩
    exact (hassign _).trans ih
  | quit _ => exact leaves_suspend
  | fail state _ => exact leaves_transition.trans leaves_suspend
  | @complete L =>
    have hrecord : Turn.Leaves j (L.transition limit j .completed) ((L.transition limit j .completed).record j) :=
      ⟨rfl, rfl, fun _ hk => hk, fun _ _ => rfl, fun _ _ => rfl⟩
    exact leaves_transition.trans (hrecord.trans leaves_suspend)

/-! ### The calls -/

lemma Kept.listed (h : Kept limit none L) (hfind : L.jobs.find j = true) : j < L.jobs.count :=
  (JobRegistry.find_iff.1 hfind).elim (h.locked.created j) (h.born j)

lemma Kept.cancel (h : Kept limit none L) (hj : j < L.jobs.count) (hopen : (L.jobs.job j).state.terminal = false) :
    Kept limit none (L.transition limit j .cancelled) := by
  have hnot : (L.jobs.job j).state ≠ .completed := by
    intro e
    rw [e] at hopen
    cases hopen
  have hclosed : Kept limit none { L.transition limit j .cancelled with placements := L.placements } :=
    h.close (fun k _ => Option.some_ne_none k) hj hnot rfl (.inl rfl) rfl
  exact hclosed

lemma Kept.clearHistory (h : Kept limit none L) : Kept limit none { L with jobs := L.jobs.clearHistory } where
  locked := ⟨h.locked.created, h.locked.holds, h.locked.held⟩
  nodup := h.nodup
  apart k hk hhistory := h.apart k hk (List.mem_filter.1 hhistory).1
  live := h.live
  bounded := (List.length_filter_le _ _).trans h.bounded
  born k hk := h.born k (List.mem_filter.1 hk).1
  unborn := h.unborn
  ended := h.ended
  settled k hne hk := by
    refine (h.settled k hne hk).imp id fun hfind => ?_
    rw [Bool.eq_false_iff] at hfind ⊢
    refine fun hfound => hfind (JobRegistry.find_iff.2 ?_)
    exact (JobRegistry.find_iff.1 hfound).imp id fun hhistory => (List.mem_filter.1 hhistory).1
  starting := h.starting
  placed := h.placed
  placed_nodup := h.placed_nodup

lemma Kept.create (h : Kept limit none L) {job : TransferJob} (hfree : L.jobs.target_locks.get job.key = none)
    (hqueued : job.state = .queued) : Kept limit none { L with jobs := L.jobs.create job } := by
  have hold : ∀ k, k ≠ L.jobs.count → (L.jobs.create job).job k = L.jobs.job k := fun k hk => Function.update_of_ne hk _ _
  have hnew : (L.jobs.create job).job L.jobs.count = job := Function.update_self ..
  have hborn : ∀ k, k < L.jobs.count → k ≠ L.jobs.count := fun k hk => Nat.ne_of_lt hk
  have hfresh := h.unborn L.jobs.count (Nat.le_refl _)
  have hunlisted : L.jobs.count ∉ L.jobs.active := fun hk => Nat.lt_irrefl _ (h.locked.created _ hk)
  refine ⟨h.locked.create hfree, ?_, fun k hk hhistory => ?_, fun k hk => ?_, h.bounded, fun k hk => ?_, fun k hk => ?_,
    fun k hk => ?_, fun k hne hk => ?_, fun k hne hk hp => ?_, fun k => ?_, h.placed_nodup⟩
  · exact List.nodup_append.2 ⟨h.nodup, List.nodup_singleton _, fun a ha b hb e =>
      hunlisted (List.mem_singleton.1 hb ▸ e ▸ ha)⟩
  · rcases List.mem_append.1 hk with hk | hk
    · exact h.apart k hk hhistory
    · exact hborn k (h.born k hhistory) (List.mem_singleton.1 hk)
  · show ((L.jobs.create job).job k).state.terminal = false
    rcases List.mem_append.1 hk with hk | hk
    · rw [hold k (hborn k (h.locked.created k hk))]
      exact h.live k hk
    · rw [List.mem_singleton.1 hk, hnew, hqueued]
      rfl
  · exact Nat.lt_succ_of_lt (h.born k hk)
  · have hk : L.jobs.count + 1 ≤ k := hk
    show ((L.jobs.create job).job k).state = _ ∧ _
    rw [hold k (by omega)]
    exact h.unborn k (Nat.le_of_succ_le hk)
  · have hk : ((L.jobs.create job).job k).state = .completed ∨ ((L.jobs.create job).job k).state = .failed := hk
    by_cases heq : k = L.jobs.count
    · rw [heq, hnew, hqueued] at hk
      exact hk.elim (fun e => nomatch e) fun e => nomatch e
    · rw [hold k heq] at hk
      exact h.ended k hk
  · show ((L.jobs.create job).job k).state.terminal = true ∨ (L.jobs.create job).find k = false
    have heq : k ≠ L.jobs.count := by
      rintro rfl
      cases hfresh.2.symm.trans hk
    rw [hold k heq]
    refine (h.settled k hne hk).imp id fun hfind => ?_
    rw [Bool.eq_false_iff] at hfind ⊢
    refine fun hfound => hfind (JobRegistry.find_iff.2 ((JobRegistry.find_iff.1 hfound).imp (fun hactive => ?_) id))
    exact (List.mem_append.1 hactive).resolve_right fun hk => heq (List.mem_singleton.1 hk)
  · show ((L.jobs.create job).job k).state = _ ∨ k ∈ L.jobs.active ++ [L.jobs.count]
    by_cases heq : k = L.jobs.count
    · exact .inr (List.mem_append_right _ (List.mem_singleton.2 heq))
    · rw [hold k heq]
      have hk : k < L.jobs.count + 1 := hk
      exact (h.starting k hne (by omega) hp).imp id fun hactive => List.mem_append_left _ hactive
  · show _ ↔ ((L.jobs.create job).job k).state = _
    by_cases heq : k = L.jobs.count
    · rw [heq, hnew, hqueued, h.placed, hfresh.1]
    · rw [hold k heq]
      exact h.placed k

lemma kept_init (settings : Settings) : Kept settings.transfer_job_history none (Service.init settings).ledger where
  locked := ⟨fun _ h => absurd h List.not_mem_nil, fun _ h => absurd h List.not_mem_nil,
    fun _ j h => absurd h (Option.some_ne_none j).symm⟩
  nodup := List.nodup_nil
  apart _ hk := absurd hk List.not_mem_nil
  live _ hk := absurd hk List.not_mem_nil
  bounded := Nat.zero_le _
  born _ hk := absurd hk List.not_mem_nil
  unborn _ _ := ⟨rfl, rfl⟩
  ended _ hk := hk.elim (fun e => nomatch e) fun e => nomatch e
  settled _ _ hk := nomatch hk
  starting _ _ hk := absurd hk (Nat.not_lt_zero _)
  placed _ := iff_of_false List.not_mem_nil fun e => nomatch e
  placed_nodup := List.nodup_nil

end Ledger

/-! ### Who is interrupted -/

namespace Service
variable {settings : Settings} {σ σ' : Service} {j : ℕ} {held : Permit → Bool} {stage : Stage}

/-- Nobody is interrupted, and what the loop is told is that permits are there. -/
structure Tells (σ σ' : Service) : Prop where
  interrupted : ∀ k, (σ'.worker k).interrupted = (σ.worker k).interrupted
  ready : ∃ more, σ'.ready = σ.ready ++ more ∧ ∀ x ∈ more, x.2 = .done

lemma tells_of (hinterrupted : ∀ k, (σ'.worker k).interrupted = (σ.worker k).interrupted) (hready : σ'.ready = σ.ready) :
    Tells σ σ' :=
  ⟨hinterrupted, [], hready.trans (List.append_nil _).symm, fun _ hx => absurd hx List.not_mem_nil⟩

lemma Tells.trans {σ'' : Service} (h : Tells σ σ') (h' : Tells σ' σ'') : Tells σ σ'' := by
  obtain ⟨more, hready, hmore⟩ := h.ready
  obtain ⟨more', hready', hmore'⟩ := h'.ready
  refine ⟨fun k => (h'.interrupted k).trans (h.interrupted k), more ++ more', ?_, fun x hx => ?_⟩
  · rw [hready', hready, List.append_assoc]
  · exact (List.mem_append.1 hx).elim (hmore x) (hmore' x)

lemma tells_wakeNext (σ : Service) (resource : Resource) : Tells σ (σ.wakeNext resource) := by
  rcases wakeNext_cases σ resource with heq | ⟨k, p, -, -, -, -, -, -, heq⟩
  · rw [heq]
    exact tells_of (fun _ => rfl) rfl
  · rw [heq]
    exact ⟨interrupted_take σ k p, [(k, .done)], rfl, fun x hx => congrArg Prod.snd (List.mem_singleton.1 hx)⟩

lemma tells_wakeAll (resource : Resource) (n : ℕ) (σ : Service) : Tells σ (Service.wakeAll resource n σ) := by
  induction n generalizing σ with
  | zero => exact tells_of (fun _ => rfl) rfl
  | succ n ih => exact (tells_wakeNext σ resource).trans (ih _)

lemma tells_setPhase (σ : Service) (j : ℕ) (phase : Phase) : Tells σ (σ.setPhase j phase) := by
  refine tells_of (fun k => ?_) rfl
  rw [worker_setPhase]
  split
  · rename_i hk
    rw [hk]
  · rfl

lemma tells_giveBack (σ : Service) (j : ℕ) (p : Permit) : Tells σ (σ.giveBack j p) :=
  tells_of (fun _ => interrupted_giveBack) rfl

lemma Stretch.tells (h : Stretch settings j stage held σ σ') : Tells σ σ' := by
  have hrest : ∀ (σ : Service) (jobs : JobRegistry) (placements : List ℕ), Tells σ { σ with jobs, placements } :=
    fun σ jobs placements => tells_of (fun _ => rfl) rfl
  induction h with
  | transition state _ ih => exact (hrest _ _ _).trans ih
  | assign strategy _ ih => exact (hrest _ _ _).trans ih
  | record _ ih => exact (hrest _ _ _).trans ih
  | take p _ _ _ ih => exact (tells_of (interrupted_take _ _ p) rfl).trans ih
  | @park stage σ p _ _ =>
    have hqueue : ∀ resource s, Tells σ (σ.setSemaphore resource s) := fun _ _ => tells_of (fun _ => rfl) rfl
    exact (hqueue _ _).trans (tells_setPhase _ _ (.slot p))
  | leave _ ih => exact ih
  | release p _ ih => exact ((tells_giveBack _ _ p).trans (tells_wakeNext _ _)).trans ih
  | suspend phase _ => exact tells_setPhase _ _ phase
  | @finish σ =>
    have hevents : Tells σ { σ with cancel_events := σ.cancel_events.pop j } := tells_of (fun _ => rfl) rfl
    exact hevents.trans (tells_setPhase _ _ .finished)

lemma Resumed.tells {answer : Answer} (h : Resumed settings j answer σ σ') : Tells σ σ' := by
  have hunpark : ∀ p, Tells σ (σ.unpark j p) := fun p => tells_of (fun _ => rfl) rfl
  cases h with
  | off _ => exact tells_setPhase σ j .finished
  | on _ hst => exact hst.tells
  | pass p _ _ _ hst => exact ((hunpark p).trans (tells_wakeAll _ _ _)).trans hst.tells
  | abandon p _ hst =>
    refine (Tells.trans ?_ (tells_wakeAll _ _ _)).trans hst.tells
    split
    · exact (hunpark p).trans (tells_giveBack _ j p)
    · exact hunpark p

/-- Nobody is told to stop. -/
structure Calm (σ : Service) : Prop where
  interrupted : ∀ k, (σ.worker k).interrupted = false
  starting : ∀ x ∈ σ.ready, (σ.worker x.1).phase = .start → ∀ failure, x.2 ≠ .raised failure

/-- The service with its jobs in order; workers are told to stop only when no job is active, and none is added. -/
structure Orderly (settings : Settings) (σ : Service) : Prop where
  sound : Sound settings none σ
  kept : Ledger.Kept settings.transfer_job_history none σ.ledger
  calm : Calm σ ∨ σ.stopped = true ∧ σ.jobs.active = []

/-- What the loop does in one turn, for the worker it resumes. -/
lemma Sound.run_resume (h : Sound settings none σ) (fault : Option Fault) : σ.ready = [] ∧ σ.run settings fault = σ ∨
    ∃ j x rest answer, σ.ready = (j, x) :: rest ∧ j < σ.jobs.count ∧ (σ.worker j).phase ≠ .finished ∧
      j ∉ rest.map Prod.fst ∧ ((σ.worker j).interrupted = false ∧ answer = x ∨
        (σ.worker j).interrupted = true ∧ answer = .raised .cancelled) ∧
      σ.run settings fault = (σ.popped j rest).resume settings j answer fault := by
  cases hr : σ.ready with
  | nil =>
    refine .inl ⟨rfl, ?_⟩
    unfold Service.run
    rw [hr]
  | cons x rest =>
    obtain ⟨j, answer⟩ := x
    obtain ⟨-, hj, hnot⟩ := h.pop hr
    have hlive := (h.ready (j, answer) (hr ▸ List.mem_cons_self)).2.2.1
    unfold Service.run
    rw [hr]
    dsimp only
    cases hi : (σ.worker j).interrupted with
    | true => exact .inr ⟨j, answer, rest, _, rfl, hj, hlive, hnot, .inr ⟨hi, rfl⟩, rfl⟩
    | false =>
      refine .inr ⟨j, answer, rest, answer, rfl, hj, hlive, hnot, .inl ⟨hi, rfl⟩, ?_⟩
      have hw : { σ.worker j with interrupted := false } = σ.worker j := by
        rw [← hi]
      have hsame : σ.popped j rest = { σ with ready := rest } := by
        unfold popped setWorker
        rw [hw, Function.update_eq_self]
      rw [hsame]
      rfl

lemma ledger_popped (rest : List (ℕ × Answer)) : (σ.popped j rest).ledger = σ.ledger :=
  ledger_of _ rfl (phase_popped σ j rest) rfl rfl

/-- A turn of the loop does a turn of the table, or ends a task that was cancelled before it has run. -/
lemma Orderly.run_turn (h : Orderly settings σ) (hj : j < σ.jobs.count) (hlive : (σ.worker j).phase ≠ .finished)
    {x answer : Answer} {rest : List (ℕ × Answer)} (hr : σ.ready = (j, x) :: rest)
    (hanswer : (σ.worker j).interrupted = false ∧ answer = x ∨
      (σ.worker j).interrupted = true ∧ answer = .raised .cancelled) (fault : Option Fault) :
    Ledger.Kept settings.transfer_job_history none ((σ.popped j rest).resume settings j answer fault).ledger ∧
      Ledger.Turn.Leaves j σ.ledger ((σ.popped j rest).resume settings j answer fault).ledger := by
  have hpopped := ledger_popped (σ := σ) (j := j) rest
  have hphase := phase_popped σ j rest j
  have hentered := h.kept.enter hlive
  by_cases hoff : (σ.worker j).phase = .start ∧ ∃ failure, answer = .raised failure
  · obtain ⟨hstart, failure, rfl⟩ := hoff
    have hidle : σ.stopped = true ∧ σ.jobs.active = [] := by
      refine h.calm.resolve_left fun hcalm => ?_
      rcases hanswer with ⟨-, hx⟩ | ⟨hi, -⟩
      · exact hcalm.starting (j, x) (hr ▸ List.mem_cons_self) hstart failure hx.symm
      · exact Bool.false_ne_true ((hcalm.interrupted j).symm.trans hi)
    have hcancelled : (σ.jobs.job j).state = .cancelled := by
      refine (h.kept.starting j (Option.some_ne_none j) hj hstart).resolve_right fun hactive => ?_
      have hactive : j ∈ σ.jobs.active := hactive
      rw [hidle.2] at hactive
      cases hactive
    have hresume : ((σ.popped j rest).resume settings j (.raised failure) fault).ledger = σ.ledger.suspend j .finished := by
      unfold Service.resume
      rw [hphase, hstart]
      exact (ledger_setPhase _ j .finished).trans (congrArg (Ledger.suspend · j .finished) hpopped)
    rw [hresume]
    refine ⟨(hentered.suspend hj .finished).settle ?_ fun _ => .inl ?_, Ledger.leaves_suspend⟩
    · rw [Ledger.phase_suspend, if_pos rfl]
      exact Phase.noConfusion
    · exact (congrArg TransferState.terminal hcancelled).trans rfl
  · have hturn : Turns settings j (σ.popped j rest) ((σ.popped j rest).resume settings j answer fault) := by
      refine turn_resume ?_ fault fun hstart failure e => hoff ⟨?_, failure, e⟩
      · rw [hphase]
        exact hlive
      · rw [← hphase]
        exact hstart
    have hturn := turns_congr hturn hpopped
    exact ⟨hentered.turn hj hturn, hturn.leaves⟩

lemma Orderly.run (h : Orderly settings σ) (fault : Option Fault) : Orderly settings (σ.run settings fault) := by
  rcases h.sound.run_cases fault with ⟨-, heq⟩ | ⟨j, x, rest, told, hr, hj, hnot, -, -, hresumed⟩
  · rw [heq]
    exact h
  rcases h.sound.run_resume fault with ⟨hnil, -⟩ | ⟨j', x', rest', answer, hr', -, hlive, -, hanswer, heq⟩
  · rw [hnil] at hr
    cases hr
  obtain ⟨hx, rfl⟩ := List.cons.inj (hr.symm.trans hr')
  obtain ⟨rfl, rfl⟩ := Prod.mk.inj hx
  obtain ⟨hkept, hleaves⟩ := h.run_turn hj hlive hr hanswer fault
  rw [← heq] at hkept hleaves
  refine ⟨h.sound.run fault, hkept, h.calm.imp (fun hcalm => ⟨fun k => ?_, fun y hy hstart => ?_⟩) fun hidle => ⟨?_, ?_⟩⟩
  · rw [hresumed.tells.interrupted]
    show (Function.update σ.worker j _ k).interrupted = false
    by_cases hk : k = j
    · rw [hk, Function.update_self]
    · rw [Function.update_of_ne hk]
      exact hcalm.interrupted k
  · obtain ⟨more, hready, hmore⟩ := hresumed.tells.ready
    rw [hready] at hy
    rcases List.mem_append.1 hy with hy | hy
    · have hy : y ∈ rest := hy
      have hne : y.1 ≠ j := fun e => hnot (e ▸ List.mem_map_of_mem hy)
      have hphase : (σ.worker y.1).phase = .start := (hleaves.phase y.1 hne).symm.trans hstart
      exact hcalm.starting y (hr ▸ List.mem_cons_of_mem _ hy) hphase
    · intro failure e
      cases (hmore y hy).symm.trans e
  · exact hleaves.stopped.trans hidle.1
  · refine List.eq_nil_iff_forall_not_mem.2 fun k hk => ?_
    have hactive : k ∈ σ.jobs.active := hleaves.active k hk
    rw [hidle.2] at hactive
    cases hactive

lemma cancelAll_eq (r : JobRegistry) (limit : ℕ) (hlive : ∀ j ∈ r.active, (r.job j).state.terminal = false) :
    r.cancelAll limit = match r.active with
      | [] => (r, false)
      | j :: _ => (r.transition limit j .cancelled, true) := by
  unfold JobRegistry.cancelAll
  cases hactive : r.active with
  | nil => rfl
  | cons j rest =>
    have hopen : JobRegistry.cancellable (r.job j).state = true := by
      rw [cancellable_eq, hlive j (hactive ▸ List.mem_cons_self)]
      rfl
    rw [JobRegistry.cancelLoop, if_pos hopen]

lemma ledger_interrupt (σ : Service) (j : ℕ) : (σ.interrupt j).ledger = σ.ledger := by
  have hphase : ∀ k, ((σ.setWorker j { σ.worker j with interrupted := true }).worker k).phase = (σ.worker k).phase := by
    intro k
    rw [worker_setWorker]
    split
    · rename_i hk
      rw [hk]
    · rfl
  unfold Service.interrupt
  split
  · rfl
  · dsimp only
    split
    · exact ledger_of _ rfl hphase rfl rfl
    · exact ledger_of _ rfl hphase rfl rfl

lemma ledger_interruptAll (tasks : List ℕ) (σ : Service) : (tasks.foldl Service.interrupt σ).ledger = σ.ledger := by
  induction tasks generalizing σ with
  | nil => rfl
  | cons j tasks ih => exact (ih _).trans (ledger_interrupt σ j)

/-- `stop` goes through when no job is active; else it raises behind the first, and stops nobody. -/
lemma Orderly.stop_cases (h : Orderly settings σ) :
    σ.jobs.active = [] ∧ (σ.stop settings).2 = false ∧ (σ.stop settings).1 = σ.jobs.tasks.foldl Service.interrupt
        { σ with stopped := true, cancel_events := σ.cancel_events.map fun e => (e.1, true) } ∨
      ∃ j rest, σ.jobs.active = j :: rest ∧
        σ.stop settings = ({ σ.transition settings j .cancelled with stopped := true }, true) := by
  have hall := cancelAll_eq σ.jobs settings.transfer_job_history h.kept.live
  unfold Service.stop
  rw [hall]
  cases hactive : σ.jobs.active with
  | nil => exact .inl ⟨rfl, rfl, rfl⟩
  | cons j rest => exact .inr ⟨j, rest, rfl, rfl⟩

lemma Orderly.stop (h : Orderly settings σ) : Orderly settings (σ.stop settings).1 := by
  refine ⟨h.sound.stop, ?_, ?_⟩
  · rcases h.stop_cases with ⟨-, -, heq⟩ | ⟨j, rest, hactive, heq⟩
    · rw [heq, ledger_interruptAll]
      exact ⟨h.kept.locked, h.kept.nodup, h.kept.apart, h.kept.live, h.kept.bounded, h.kept.born, h.kept.unborn,
        h.kept.ended, h.kept.settled, h.kept.starting, h.kept.placed, h.kept.placed_nodup⟩
    · have hmem : j ∈ σ.jobs.active := hactive ▸ List.mem_cons_self
      have hk := h.kept.cancel (h.kept.locked.created j hmem) (h.kept.live j hmem)
      rw [heq]
      exact ⟨hk.locked, hk.nodup, hk.apart, hk.live, hk.bounded, hk.born, hk.unborn, hk.ended, hk.settled, hk.starting,
        hk.placed, hk.placed_nodup⟩
  · rcases h.stop_cases with ⟨hactive, -, heq⟩ | ⟨j, rest, hactive, heq⟩
    · rw [heq]
      refine .inr ⟨?_, ?_⟩
      · exact congrArg Ledger.stopped (ledger_interruptAll _ _)
      · exact (congrArg (fun L : Ledger => L.jobs.active) (ledger_interruptAll _ _)).trans hactive
    · rw [heq]
      refine h.calm.imp (fun hcalm => ⟨hcalm.interrupted, hcalm.starting⟩) fun hidle => ?_
      rw [hidle.2] at hactive
      cases hactive

lemma Orderly.cancel (h : Orderly settings σ) (j : ℕ) : Orderly settings (σ.cancel settings j) := by
  refine ⟨h.sound.cancel j, ?_, ?_⟩
  · unfold Service.cancel
    split
    · exact h.kept
    · rename_i hfind
      split
      · exact h.kept
      · rename_i hopen
        rw [cancellable_eq, Bool.not_not, Bool.not_eq_true] at hopen
        have hfind : σ.ledger.jobs.find j = true := by
          rw [Bool.not_eq_true', Bool.not_eq_false] at hfind
          exact hfind
        have hk := h.kept.cancel (h.kept.listed hfind) hopen
        dsimp only
        split
        · exact hk
        · exact hk
  · have hkept : (σ.cancel settings j).worker = σ.worker ∧ (σ.cancel settings j).ready = σ.ready ∧
        (σ.cancel settings j).stopped = σ.stopped := by
      unfold Service.cancel
      split
      · exact ⟨rfl, rfl, rfl⟩
      · split
        · exact ⟨rfl, rfl, rfl⟩
        · dsimp only
          split
          · exact ⟨rfl, rfl, rfl⟩
          · exact ⟨rfl, rfl, rfl⟩
    have hactive : ∀ k ∈ (σ.cancel settings j).jobs.active, k ∈ σ.jobs.active := by
      have hleaves : Ledger.Turn.Leaves j σ.ledger (σ.ledger.transition settings.transfer_job_history j .cancelled) :=
        Ledger.leaves_transition
      have htransition := hleaves.active
      unfold Service.cancel
      split
      · exact fun _ hk => hk
      · split
        · exact fun _ hk => hk
        · dsimp only
          split
          · exact htransition
          · exact htransition
    refine h.calm.imp (fun hcalm => ⟨?_, ?_⟩) fun hidle => ⟨hkept.2.2.trans hidle.1, ?_⟩
    · rw [hkept.1]
      exact hcalm.interrupted
    · rw [hkept.1, hkept.2.1]
      exact hcalm.starting
    · refine List.eq_nil_iff_forall_not_mem.2 fun k hk => ?_
      have hk := hactive k hk
      rw [hidle.2] at hk
      cases hk

lemma Orderly.create (h : Orderly settings σ) (source target path : Text) :
    Orderly settings (σ.create source target path) := by
  have hsound := h.sound.create source target path
  unfold Service.create at hsound ⊢
  dsimp only at hsound ⊢
  split
  · exact h
  · rename_i hrunning
    split
    · exact h
    · split
      · exact h
      · rename_i hapart hfree
        rw [if_neg hrunning, if_neg hapart, if_neg hfree] at hsound
        have hcalm := h.calm.resolve_right fun hidle => hrunning hidle.1
        have hfresh := h.kept.unborn σ.jobs.count (Nat.le_refl _)
        have hphase : ∀ k, (Function.update σ.worker σ.jobs.count {} k).phase = (σ.worker k).phase := by
          intro k
          by_cases hk : k = σ.jobs.count
          · rw [hk, Function.update_self]
            exact hfresh.2.symm
          · rw [Function.update_of_ne hk]
        refine ⟨hsound, ?_, .inl ⟨fun k => ?_, fun x hx hstart => ?_⟩⟩
        · unfold ledger
          dsimp only
          rw [funext hphase]
          exact h.kept.create (Option.not_isSome_iff_eq_none.1 hfree) rfl
        · show (Function.update σ.worker σ.jobs.count {} k).interrupted = false
          by_cases hk : k = σ.jobs.count
          · rw [hk, Function.update_self]
          · rw [Function.update_of_ne hk]
            exact hcalm.interrupted k
        · rcases List.mem_append.1 hx with hx | hx
          · exact hcalm.starting x hx ((hphase x.1).symm.trans hstart)
          · rw [List.mem_singleton.1 hx]
            intro failure hfailure
            cases hfailure

lemma Orderly.step (h : Orderly settings σ) (e : Event) : Orderly settings (σ.step settings e) := by
  have hsound := h.sound.step e
  cases e with
  | create source target path => exact h.create source target path
  | cancel j => exact h.cancel j
  | clearHistory => exact ⟨hsound, h.kept.clearHistory, h.calm.imp (fun hcalm => ⟨hcalm.interrupted, hcalm.starting⟩) id⟩
  | stop => exact h.stop
  | complete j answer =>
    refine ⟨hsound, ?_, ?_⟩
    · unfold Service.step
      dsimp only
      split
      · exact h.kept
      · exact h.kept
    · unfold Service.step
      dsimp only
      split
      · rename_i hok
        have hawaits := phase_of_admits (Bool.and_eq_true _ _ ▸ hok).1
        refine h.calm.imp (fun hcalm => ⟨hcalm.interrupted, fun x hx hstart => ?_⟩) id
        rcases List.mem_append.1 hx with hx | hx
        · exact hcalm.starting x hx hstart
        · rw [List.mem_singleton.1 hx] at hstart
          rw [show (σ.worker j).phase = .start from hstart] at hawaits
          cases hawaits
      · exact h.calm
  | run fault => exact h.run fault

lemma orderly_after (settings : Settings) (events : List Event) : Orderly settings (after settings events) := by
  have hinit : Orderly settings (Service.init settings) :=
    ⟨sound_init settings, Ledger.kept_init settings, .inl ⟨fun _ => rfl, fun _ hx => absurd hx List.not_mem_nil⟩⟩
  exact Machine.inv_after hinit fun _ e h => h.step e

/-! ### Whole runs -/

/-- Only a running worker moves a job that is at its end. -/
lemma Orderly.final_step (h : Orderly settings σ) (hend : (σ.jobs.job j).state.terminal = true)
    (hdone : (σ.worker j).phase = .finished) (e : Event) :
    ((σ.step settings e).jobs.job j).state = (σ.jobs.job j).state ∧ ((σ.step settings e).worker j).phase = .finished := by
  have hother : ∀ k, (σ.jobs.job k).state.terminal = false →
      ((σ.transition settings k .cancelled).jobs.job j).state = (σ.jobs.job j).state := by
    intro k hk
    have hne : j ≠ k := by
      rintro rfl
      exact Bool.false_ne_true (hk.symm.trans hend)
    show ((σ.jobs.transition settings.transfer_job_history k .cancelled).job j).state = _
    rw [JobRegistry.state_transition, if_neg hne]
  cases e with
  | create source target path =>
    have hne : j ≠ σ.jobs.count := by
      intro heq
      cases (h.kept.unborn j (Nat.le_of_eq heq.symm)).2.symm.trans hdone
    unfold Service.step Service.create
    dsimp only
    split
    · exact ⟨rfl, hdone⟩
    · split
      · exact ⟨rfl, hdone⟩
      · split
        · exact ⟨rfl, hdone⟩
        · exact ⟨congrArg TransferJob.state (Function.update_of_ne hne _ _),
            (congrArg Worker.phase (Function.update_of_ne hne _ _)).trans hdone⟩
  | cancel k =>
    unfold Service.step Service.cancel
    dsimp only
    split
    · exact ⟨rfl, hdone⟩
    · split
      · exact ⟨rfl, hdone⟩
      · rename_i hopen
        rw [cancellable_eq, Bool.not_not, Bool.not_eq_true] at hopen
        split
        · exact ⟨hother k hopen, hdone⟩
        · exact ⟨hother k hopen, hdone⟩
  | clearHistory => exact ⟨rfl, hdone⟩
  | stop =>
    show ((σ.stop settings).1.ledger.jobs.job j).state = _ ∧ (σ.stop settings).1.ledger.phase j = _
    rcases h.stop_cases with ⟨-, -, heq⟩ | ⟨k, rest, hactive, heq⟩
    · rw [heq, ledger_interruptAll]
      exact ⟨rfl, hdone⟩
    · rw [heq]
      exact ⟨hother k (h.kept.live k (hactive ▸ List.mem_cons_self)), hdone⟩
  | complete k answer =>
    unfold Service.step
    dsimp only
    split
    · exact ⟨rfl, hdone⟩
    · exact ⟨rfl, hdone⟩
  | run fault =>
    show ((σ.run settings fault).jobs.job j).state = _ ∧ ((σ.run settings fault).worker j).phase = _
    rcases h.sound.run_resume fault with ⟨-, heq⟩ | ⟨k, x, rest, answer, hr, hk, hlive, -, hanswer, heq⟩
    · rw [heq]
      exact ⟨rfl, hdone⟩
    · have hleaves := (h.run_turn hk hlive hr hanswer fault).2
      rw [← heq] at hleaves
      have hne : j ≠ k := by
        rintro rfl
        exact hlive hdone
      exact ⟨hleaves.state j hne, (hleaves.phase j hne).trans hdone⟩

/-- A job that is completed or failed, or cancelled with its worker done, stays what it is, whatever comes behind. -/
theorem outcome_final (settings : Settings) (events more : List Event) (j : ℕ)
    (hend : ((after settings events).jobs.job j).state.terminal = true)
    (hdone : ((after settings events).jobs.job j).state = .cancelled →
      ((after settings events).worker j).phase = .finished) :
    ((after settings (events ++ more)).jobs.job j).state = ((after settings events).jobs.job j).state := by
  have h := orderly_after settings events
  have hfinished : ((after settings events).worker j).phase = .finished := by
    cases hstate : ((after settings events).jobs.job j).state with
    | completed => exact (h.kept.ended j (.inl hstate)).2
    | failed => exact (h.kept.ended j (.inr hstate)).2
    | cancelled => exact hdone hstate
    | _ =>
      rw [hstate] at hend
      cases hend
  have hinv : Orderly settings (after settings events) ∧
      ((after settings events).jobs.job j).state = ((after settings events).jobs.job j).state ∧
      ((after settings events).worker j).phase = .finished := ⟨h, rfl, hfinished⟩
  have hrun := @Machine.inv_after _ _ (fun σ e => Service.step settings σ e)
    (fun σ => Orderly settings σ ∧ (σ.jobs.job j).state = ((after settings events).jobs.job j).state ∧
      (σ.worker j).phase = .finished) _ more hinv fun σ e hσ => by
        have hstep := hσ.1.final_step (by rw [hσ.2.1]; exact hend) hσ.2.2 e
        exact ⟨hσ.1.step e, hstep.1.trans hσ.2.1, hstep.2⟩
  unfold after
  rw [Machine.after_append]
  exact hrun.2.1

/-- A job whose plan fails. -/
def planFails : List Event :=
  [.create ['a'] ['b'] ['/', 'x'], .run none, .complete 0 (.raised .error), .run none]

theorem outcome_final_failed : ((after defaults (planFails ++ [.cancel 0, .stop])).jobs.job 0).state =
    ((after defaults planFails).jobs.job 0).state :=
  outcome_final defaults planFails [.cancel 0, .stop] 0 (by decide +kernel) fun _ => by decide +kernel

/-- A job that is cancelled while its worker waits is planned all the same. -/
example : ((after defaults [.create ['a'] ['b'] ['/', 'x'], .cancel 0]).jobs.job 0).state = .cancelled ∧
    ((after defaults [.create ['a'] ['b'] ['/', 'x'], .cancel 0, .run none]).jobs.job 0).state = .planning := by
  decide +kernel

end Service
end SshGpuConsole.Transfers
