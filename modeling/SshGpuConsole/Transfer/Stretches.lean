import SshGpuConsole.Transfer.Service

/-!
# Stretches

What a worker does from one await to the next, as a relation: the executable `resume` only does what it admits
(`stretch_resume`). An invariant of the service is kept by every worker when each of these steps keeps it.
-/

namespace SshGpuConsole.Transfers
open Shell (Text)
open Batch (TransferState)
open Workspace (TransferStrategy)

/-- The permits up to this one, in the order in which a worker takes them. -/
def Permit.upTo : Permit → Permit → Bool
  | .overall, p => p = .overall
  | .source, p => p ≠ .target
  | .target, _ => true

/-- The permits before this one. -/
def Permit.before : Permit → Permit → Bool
  | .overall => fun _ => false
  | .source => Permit.upTo .overall
  | .target => Permit.upTo .source

lemma Permit.before_self (p : Permit) : p.before p = false := by
  cases p <;> rfl

lemma Permit.update_before (p : Permit) : Function.update p.before p true = p.upTo := by
  funext q
  cases p <;> cases q <;> rfl

lemma Permit.update_upTo (p : Permit) : Function.update p.upTo p false = p.before := by
  funext q
  cases p <;> cases q <;> rfl

lemma Permit.upTo_self (p : Permit) : p.upTo p = true := by
  cases p <;> rfl

/-- What a worker suspended here holds, but for the permit that it waits for. -/
def Phase.holds : Phase → Permit → Bool
  | .start | .finished => fun _ => false
  | .slot p => p.before
  | .planning | .preflight | .verifying => Permit.upTo .overall
  | .preparing | .command | .sessions | .copying | .closing _ => Permit.upTo .target

/-- The worker waits for an answer of the environment. -/
def Phase.awaits : Phase → Bool
  | .start | .finished | .slot _ => false
  | _ => true

/-- How far a worker is with its permits. -/
inductive Stage where
  /-- On its way to the permit of the service. -/
  | entering
  /-- On its way to those of the servers. -/
  | taking
  /-- On its way out. -/
  | leaving
  deriving DecidableEq, Repr

/-- The permits that are taken at this stage. -/
def Stage.takes : Stage → Permit → Bool
  | .entering, p => p = .overall
  | .taking, p => p ≠ .overall
  | .leaving, _ => false

/-- The stage of what comes behind an await. -/
def Phase.stage : Phase → Stage
  | .start | .slot .overall => .entering
  | .planning | .preflight | .slot .source | .slot .target => .taking
  | _ => .leaving

namespace Service

/-- `job.strategy_used = strategy` -/
def assign (σ : Service) (j : ℕ) (strategy : TransferStrategy) : Service :=
  { σ with jobs := { σ.jobs with
      job := Function.update σ.jobs.job j { σ.jobs.job j with strategy_used := some strategy } } }

/-- What a worker with these permits does up to its next await. -/
inductive Stretch (settings : Settings) (j : ℕ) : Stage → (Permit → Bool) → Service → Service → Prop
  | transition {stage held σ σ'} (state : TransferState) :
      Stretch settings j stage held (σ.transition settings j state) σ' → Stretch settings j stage held σ σ'
  | assign {stage held σ σ'} (strategy : TransferStrategy) :
      Stretch settings j stage held (σ.assign j strategy) σ' → Stretch settings j stage held σ σ'
  | record {stage held σ σ'} :
      Stretch settings j stage held { σ with placements := σ.placements ++ [j] } σ' →
      Stretch settings j stage held σ σ'
  | take {stage σ σ'} (p : Permit) : stage.takes p = true → σ.locked (σ.resource j p) = false →
      Stretch settings j stage p.upTo (σ.take j p) σ' → Stretch settings j stage p.before σ σ'
  | park {stage σ} (p : Permit) : stage.takes p = true → σ.locked (σ.resource j p) = true →
      Stretch settings j stage p.before σ (σ.park j p)
  | leave {stage held σ σ'} : Stretch settings j .leaving held σ σ' → Stretch settings j stage held σ σ'
  | release {σ σ'} (p : Permit) :
      Stretch settings j .leaving p.before (σ.release j p) σ' → Stretch settings j .leaving p.upTo σ σ'
  | suspend {stage σ} (phase : Phase) : phase.awaits = true →
      Stretch settings j stage phase.holds σ (σ.setPhase j phase)
  | finish {σ} : Stretch settings j .leaving (Permit.before .overall) σ (σ.finish j)

variable {settings : Settings} {σ : Service} {j : ℕ} {stage : Stage}

lemma stretch_leave (ending : Ending) :
    Stretch settings j .leaving (Permit.upTo .overall) σ (σ.leave settings j ending) := by
  refine .release .overall ?_
  cases ending with
  | none => exact .finish
  | some failure =>
    cases failure with
    | cancelled => exact .transition _ .finish
    | conflict => exact .transition _ .finish
    | cancelRequested =>
      show Stretch _ _ _ _ _ (finish (if _ then _ else _) j)
      split
      · exact .finish
      · exact .transition _ .finish
    | error =>
      show Stretch _ _ _ _ _ (finish (if _ then _ else _) j)
      split
      · exact .finish
      · exact .transition _ .finish

lemma stretch_verified (ok : Bool) :
    Stretch settings j .leaving (Permit.upTo .overall) σ (σ.verified settings j ok) := by
  cases ok with
  | false => exact .transition _ (stretch_leave none)
  | true => exact .transition _ (.record (stretch_leave none))

/-- The slots are released. -/
lemma stretch_release {σ' : Service}
    (h : Stretch settings j .leaving (Permit.upTo .overall) ((σ.release j .target).release j .source) σ') :
    Stretch settings j .leaving (Permit.upTo .target) σ σ' :=
  .release .target (.release .source h)

lemma stretch_leaveSlots (ending : Ending) :
    Stretch settings j .leaving (Permit.upTo .target) σ (σ.leaveSlots settings j ending) := by
  have hfail : ∀ failure, Stretch settings j .leaving (Permit.upTo .target) σ
      (leave settings ((σ.release j .target).release j .source) j (some failure)) :=
    fun failure => stretch_release (stretch_leave (some failure))
  unfold leaveSlots
  cases ending with
  | none =>
    refine stretch_release ?_
    dsimp only
    split
    · exact stretch_leave none
    · refine .transition .verifying ?_
      split
      · exact .transition _ (.record (stretch_leave none))
      · exact .suspend .verifying rfl
  | some failure =>
    cases failure with
    | conflict => exact hfail .conflict
    | error => exact hfail .error
    | cancelled => exact hfail .cancelled
    | cancelRequested =>
      dsimp only
      split
      · exact stretch_release (stretch_leave none)
      · exact .transition _ (stretch_release (stretch_leave none))

lemma stretch_inSlots (fault : Option Fault) :
    Stretch settings j stage (Permit.upTo .target) σ (σ.inSlots settings j fault) := by
  unfold inSlots
  split
  · exact .leave (stretch_release (stretch_leave none))
  · split
    · split
      · exact .leave (stretch_leaveSlots _)
      · refine .transition .running ?_
        cases fault with
        | none => exact .suspend .preparing rfl
        | some fault => exact .leave (stretch_leaveSlots _)
    · exact .transition _ (.suspend .sessions rfl)

lemma stretch_tryTarget (fault : Option Fault) :
    Stretch settings j .taking (Permit.upTo .source) σ (σ.tryTarget settings j fault) := by
  unfold tryTarget
  split
  · rename_i hlocked
    exact .park .target rfl hlocked
  · rename_i hopen
    exact .take .target rfl (Bool.not_eq_true _ ▸ hopen) (stretch_inSlots fault)

lemma stretch_trySource (fault : Option Fault) :
    Stretch settings j .taking (Permit.upTo .overall) σ (σ.trySource settings j fault) := by
  unfold trySource
  split
  · rename_i hlocked
    exact .park .source rfl hlocked
  · rename_i hopen
    exact .take .source rfl (Bool.not_eq_true _ ▸ hopen) (stretch_tryTarget fault)

lemma stretch_planned (strategy : Option TransferStrategy) (probes : Bool) (fault : Option Fault) :
    Stretch settings j .taking (Permit.upTo .overall) σ (σ.planned settings j strategy probes fault) := by
  unfold planned
  split
  · exact .leave (stretch_leave none)
  · cases strategy with
    | none => exact .transition _ (.leave (stretch_leave none))
    | some strategy =>
      refine .assign strategy ?_
      show Stretch _ _ _ _ _ (if _ then _ else _)
      split
      · exact .suspend .preflight rfl
      · exact stretch_trySource fault

lemma stretch_planAndRun (fault : Option Fault) :
    Stretch settings j .entering (Permit.upTo .overall) σ (σ.planAndRun settings j fault) := by
  unfold planAndRun
  split
  · exact .leave (stretch_leave none)
  · refine .transition .planning ?_
    cases fault with
    | none => exact .suspend .planning rfl
    | some fault => exact .leave (stretch_leave _)

lemma stretch_runJob (fault : Option Fault) :
    Stretch settings j .entering (Permit.before .overall) σ (σ.runJob settings j fault) := by
  unfold runJob
  split
  · rename_i hlocked
    exact .park .overall rfl hlocked
  · rename_i hopen
    exact .take .overall rfl (Bool.not_eq_true _ ▸ hopen) (stretch_planAndRun fault)

/-- The task starts. -/
lemma stretch_resume_start (hphase : (σ.worker j).phase = .start) {answer : Answer}
    (hanswer : ∀ failure, answer ≠ .raised failure) (fault : Option Fault) :
    Stretch settings j .entering (Permit.before .overall) σ (σ.resume settings j answer fault) := by
  unfold resume
  rw [hphase]
  cases answer with
  | raised failure => exact absurd rfl (hanswer failure)
  | done => exact stretch_runJob fault
  | plan strategy probes => exact stretch_runJob fault
  | yes => exact stretch_runJob fault
  | no => exact stretch_runJob fault

/-- A worker that awaits the environment, as it is resumed. -/
lemma stretch_resume (hphase : (σ.worker j).phase.awaits = true) (answer : Answer) (fault : Option Fault) :
    Stretch settings j (σ.worker j).phase.stage (σ.worker j).phase.holds σ (σ.resume settings j answer fault) := by
  have hstay : Stretch settings j (σ.worker j).phase.stage (σ.worker j).phase.holds σ σ := by
    have hsame : σ.setPhase j (σ.worker j).phase = σ := by
      show ({ σ with worker := Function.update σ.worker j (σ.worker j) } : Service) = σ
      rw [Function.update_eq_self]
    have hstretch : Stretch settings j (σ.worker j).phase.stage (σ.worker j).phase.holds σ
        (σ.setPhase j (σ.worker j).phase) := .suspend (σ.worker j).phase hphase
    rw [hsame] at hstretch
    exact hstretch
  generalize hp : (σ.worker j).phase = phase at *
  unfold resume
  rw [hp]
  cases phase with
  | start => cases hphase
  | slot p => cases hphase
  | finished => cases hphase
  | planning =>
    cases answer with
    | plan strategy probes => exact stretch_planned strategy probes fault
    | raised failure => exact .leave (stretch_leave _)
    | done => exact hstay
    | yes => exact hstay
    | no => exact hstay
  | preflight =>
    cases answer with
    | no => exact .transition _ (.leave (stretch_leave none))
    | raised failure =>
      cases failure with
      | cancelled => exact .leave (stretch_leave _)
      | conflict => exact stretch_trySource fault
      | cancelRequested => exact stretch_trySource fault
      | error => exact stretch_trySource fault
    | done => exact stretch_trySource fault
    | plan strategy probes => exact stretch_trySource fault
    | yes => exact stretch_trySource fault
  | preparing =>
    cases answer with
    | done => exact .suspend .command rfl
    | raised failure => exact stretch_leaveSlots _
    | plan strategy probes => exact hstay
    | yes => exact hstay
    | no => exact hstay
  | command =>
    cases answer with
    | done => exact stretch_leaveSlots none
    | raised failure =>
      cases failure with
      | cancelled => exact .suspend (.closing _) rfl
      | conflict => exact stretch_leaveSlots _
      | cancelRequested => exact stretch_leaveSlots _
      | error => exact stretch_leaveSlots _
    | plan strategy probes => exact hstay
    | yes => exact hstay
    | no => exact hstay
  | sessions =>
    cases answer with
    | done => exact .suspend .copying rfl
    | raised failure => exact stretch_leaveSlots _
    | plan strategy probes => exact hstay
    | yes => exact hstay
    | no => exact hstay
  | copying =>
    cases answer with
    | done => exact .suspend (.closing _) rfl
    | raised failure => exact .suspend (.closing _) rfl
    | plan strategy probes => exact hstay
    | yes => exact hstay
    | no => exact hstay
  | closing ending =>
    cases answer with
    | done => exact stretch_leaveSlots _
    | raised failure => exact stretch_leaveSlots _
    | plan strategy probes => exact hstay
    | yes => exact hstay
    | no => exact hstay
  | verifying =>
    cases answer with
    | yes => exact stretch_verified true
    | no => exact stretch_verified false
    | raised failure => exact stretch_leave _
    | done => exact hstay
    | plan strategy probes => exact hstay

/-! ### Resuming -/

lemma stretch_passSlot_rest {σ : Service} (p : Permit) (fault : Option Fault) :
    Stretch settings j (Phase.slot p).stage p.upTo σ
      (match p with
        | .overall => σ.planAndRun settings j fault
        | .source => σ.tryTarget settings j fault
        | .target => σ.inSlots settings j fault) := by
  cases p with
  | overall => exact stretch_planAndRun fault
  | source => exact stretch_tryTarget fault
  | target => exact stretch_inSlots fault

lemma stretch_abandonSlot_rest {σ : Service} (p : Permit) :
    Stretch settings j .leaving p.before σ
      (match p with
        | .overall => (σ.transition settings j .cancelled).finish j
        | .source => σ.leave settings j (some .cancelled)
        | .target => (σ.release j .source).leave settings j (some .cancelled)) := by
  cases p with
  | overall => exact .transition _ .finish
  | source => exact stretch_leave _
  | target => exact .release .source (stretch_leave _)

/-- How a worker is resumed. -/
inductive Resumed (settings : Settings) (j : ℕ) (answer : Answer) (σ : Service) : Service → Prop
  /-- A task that is cancelled before it has run does not run. -/
  | off : (σ.worker j).phase = .start → Resumed settings j answer σ (σ.setPhase j .finished)
  | on {σ'} : (∀ p, (σ.worker j).phase ≠ .slot p) →
      Stretch settings j (σ.worker j).phase.stage (σ.worker j).phase.holds σ σ' → Resumed settings j answer σ σ'
  /-- With the permit it waited for. -/
  | pass {σ'} (p : Permit) : (∀ failure, answer ≠ .raised failure) → (σ.worker j).phase = .slot p →
      (σ.worker j).held p = true →
      Stretch settings j (Phase.slot p).stage p.upTo ((σ.unpark j p).wakeWaiters (σ.resource j p)) σ' →
      Resumed settings j answer σ σ'
  /-- Cancelled in `acquire`. -/
  | abandon {σ'} (p : Permit) : (σ.worker j).phase = .slot p →
      Stretch settings j .leaving p.before
        (((if (σ.worker j).held p = true then (σ.unpark j p).giveBack j p else σ.unpark j p)).wakeWaiters
          (σ.resource j p)) σ' → Resumed settings j answer σ σ'

lemma resumed_resume (hlive : (σ.worker j).phase ≠ .finished) {answer : Answer}
    (hslot : ∀ p, (σ.worker j).phase = .slot p → (σ.worker j).held p = true ∨ ∃ failure, answer = .raised failure)
    (fault : Option Fault) : Resumed settings j answer σ (σ.resume settings j answer fault) := by
  cases hp : (σ.worker j).phase with
  | slot p =>
    have hpass : (∀ failure, answer ≠ .raised failure) → Resumed settings j answer σ (σ.passSlot settings j p fault) :=
      fun hanswer => .pass p hanswer hp ((hslot p hp).resolve_right fun ⟨failure, e⟩ => hanswer failure e)
        (stretch_passSlot_rest p fault)
    unfold Service.resume
    rw [hp]
    cases answer with
    | raised failure => exact .abandon p hp (stretch_abandonSlot_rest p)
    | done => exact hpass nofun
    | plan strategy probes => exact hpass nofun
    | yes => exact hpass nofun
    | no => exact hpass nofun
  | finished => exact absurd hp hlive
  | start =>
    by_cases hraised : ∃ failure, answer = .raised failure
    · obtain ⟨failure, rfl⟩ := hraised
      unfold Service.resume
      rw [hp]
      exact .off hp
    · refine .on (fun p e => Phase.noConfusion (hp.symm.trans e)) ?_
      rw [hp]
      exact stretch_resume_start hp (fun failure e => hraised ⟨failure, e⟩) fault
  | _ =>
    refine .on (fun p e => Phase.noConfusion (hp.symm.trans e)) (stretch_resume ?_ answer fault)
    rw [hp]
    rfl

end Service
end SshGpuConsole.Transfers
