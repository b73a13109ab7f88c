import SshGpuConsole.Transfer.Ledger

/-!
# Stopping the service

`stop` cancels the active jobs while it iterates over their table, and raises behind the first: it goes through exactly
when no job is active. Then the workers of cancelled jobs that are still under way are told, and each of them ends, but
for the closing of the session that it used.
-/

namespace SshGpuConsole.Transfers
open Shell (Text)
open Batch (TransferState)

/-- The worker is done, or behind a failure at the closing of what it used. -/
def Phase.retired : Phase → Bool
  | .finished | .closing (some _) => true
  | _ => false

namespace Service
variable {settings : Settings} {σ σ' : Service} {j k : ℕ}

/-! ### Who is told -/

/-- A worker that is to be told is about to be resumed. -/
def Heard (σ : Service) : Prop := ∀ k, (σ.worker k).interrupted = true → k ∈ σ.ready.map Prod.fst

lemma interrupted_setWorker (σ : Service) (j : ℕ) (w : Worker) (hne : k ≠ j) :
    ((σ.setWorker j w).worker k).interrupted = (σ.worker k).interrupted := by
  rw [worker_setWorker, if_neg hne]

/-- What `task.cancel()` does to the workers. -/
lemma interrupt_spec (σ : Service) (j : ℕ) : (∀ k, k ≠ j → (σ.interrupt j).worker k = σ.worker k) ∧
    ((σ.worker j).phase = .finished ∨ ((σ.interrupt j).worker j).interrupted = true) ∧
    ((σ.worker j).interrupted = true → ((σ.interrupt j).worker j).interrupted = true) := by
  unfold Service.interrupt
  split
  · rename_i hskip
    exact ⟨fun _ _ => rfl, hskip, id⟩
  · have hself : ((σ.setWorker j { σ.worker j with interrupted := true }).worker j).interrupted = true := by
      rw [worker_setWorker, if_pos rfl]
    have hother : ∀ k, k ≠ j → (σ.setWorker j { σ.worker j with interrupted := true }).worker k = σ.worker k := by
      intro k hk
      rw [worker_setWorker, if_neg hk]
    dsimp only
    split
    · exact ⟨hother, .inr hself, fun _ => hself⟩
    · exact ⟨hother, .inr hself, fun _ => hself⟩

lemma heard_interrupt (h : Heard σ) (j : ℕ) : Heard (σ.interrupt j) := by
  unfold Service.interrupt
  split
  · exact h
  · have hset : ∀ k, ((σ.setWorker j { σ.worker j with interrupted := true }).worker k).interrupted = true →
        k = j ∨ k ∈ σ.ready.map Prod.fst := by
      intro k hk
      by_cases heq : k = j
      · exact .inl heq
      · rw [interrupted_setWorker _ _ _ heq] at hk
        exact .inr (h k hk)
    dsimp only
    split
    · intro k hk
      show k ∈ (σ.ready ++ [(j, Answer.raised .cancelled)]).map Prod.fst
      rw [List.map_append, List.mem_append]
      exact (hset k hk).symm.imp id fun heq => List.mem_singleton.2 heq
    · rename_i hwaiting
      rw [Bool.not_eq_true', Bool.not_eq_false, List.contains_iff_mem] at hwaiting
      intro k hk
      exact (hset k hk).elim (fun heq => heq ▸ hwaiting) id

lemma heard_interruptAll (tasks : List ℕ) (σ : Service) (h : Heard σ) : Heard (tasks.foldl Service.interrupt σ) := by
  induction tasks generalizing σ with
  | nil => exact h
  | cons j tasks ih => exact ih _ (heard_interrupt h j)

/-- Whoever is under way is told. -/
lemma told_interruptAll (tasks : List ℕ) (σ : Service) (hk : k ∈ tasks) :
    (σ.worker k).phase = .finished ∨ ((tasks.foldl Service.interrupt σ).worker k).interrupted = true := by
  have hstays : ∀ (tasks : List ℕ) (σ : Service), (σ.worker k).interrupted = true →
      ((tasks.foldl Service.interrupt σ).worker k).interrupted = true := by
    intro tasks
    induction tasks with
    | nil => exact fun _ h => h
    | cons j tasks ih =>
      intro σ h
      refine ih _ ?_
      by_cases heq : k = j
      · rw [heq] at h ⊢
        exact (interrupt_spec σ j).2.2 h
      · rw [(interrupt_spec σ j).1 k heq]
        exact h
  induction tasks generalizing σ with
  | nil => cases hk
  | cons j tasks ih =>
    by_cases heq : k = j
    · rw [heq] at hstays ⊢
      exact (interrupt_spec σ j).2.1.imp id fun htold => hstays tasks _ htold
    · have hphase : ((σ.interrupt j).worker k).phase = (σ.worker k).phase := by
        rw [(interrupt_spec σ j).1 k heq]
      rw [← hphase]
      exact ih _ ((List.mem_cons.1 hk).resolve_left heq)

lemma interrupted_popped_of_ne {rest : List (ℕ × Answer)} (hne : k ≠ j) :
    ((σ.popped j rest).worker k).interrupted = (σ.worker k).interrupted :=
  congrArg Worker.interrupted (Function.update_of_ne hne _ _)

/-- A turn of the loop tells the worker that it resumes, and nobody else. -/
lemma heard_run (h : Heard σ) {answer x : Answer} {rest : List (ℕ × Answer)} (hr : σ.ready = (j, x) :: rest)
    (hresumed : Resumed settings j answer (σ.popped j rest) σ') : Heard σ' := by
  obtain ⟨more, hready, -⟩ := hresumed.tells.ready
  intro k hk
  rw [hresumed.tells.interrupted] at hk
  have hne : k ≠ j := by
    rintro rfl
    exact Bool.false_ne_true ((interrupted_popped σ k rest).symm.trans hk)
  rw [interrupted_popped_of_ne hne] at hk
  have hmem := h k hk
  rw [hr, List.map_cons, List.mem_cons] at hmem
  rw [hready, List.map_append, List.mem_append]
  exact .inl (hmem.resolve_left hne)

lemma Orderly.heard_stop (ho : Orderly settings σ) (h : Heard σ) : Heard (σ.stop settings).1 := by
  rcases ho.stop_cases with ⟨-, -, heq⟩ | ⟨j, rest, -, heq⟩
  · rw [heq]
    exact heard_interruptAll _ _ h
  · rw [heq]
    exact h

lemma heard_step (ho : Orderly settings σ) (h : Heard σ) (e : Event) : Heard (σ.step settings e) := by
  have hpush : ∀ x : ℕ × Answer, Heard { σ with ready := σ.ready ++ [x] } := by
    intro x k hk
    show k ∈ (σ.ready ++ [x]).map Prod.fst
    rw [List.map_append, List.mem_append]
    exact .inl (h k hk)
  cases e with
  | create source target path =>
    unfold Service.step Service.create
    dsimp only
    split
    · exact h
    · split
      · exact h
      · split
        · exact h
        · intro k hk
          have hk : (Function.update σ.worker σ.jobs.count {} k).interrupted = true := hk
          by_cases heq : k = σ.jobs.count
          · rw [heq, Function.update_self] at hk
            cases hk
          · rw [Function.update_of_ne heq] at hk
            exact hpush _ k hk
  | cancel j =>
    unfold Service.step Service.cancel
    dsimp only
    split
    · exact h
    · split
      · exact h
      · split
        · exact h
        · exact h
  | clearHistory => exact h
  | stop => exact ho.heard_stop h
  | complete j answer =>
    unfold Service.step
    dsimp only
    split
    · exact hpush (j, answer)
    · exact h
  | run fault =>
    show Heard (σ.run settings fault)
    rcases ho.sound.run_cases fault with ⟨-, heq⟩ | ⟨j, x, rest, told, hr, -, -, -, -, hresumed⟩
    · rw [heq]
      exact h
    · exact heard_run h hr hresumed

/-- No task is ever taken out of the table of tasks. -/
lemma tasks_step (hs : Sound settings none σ) (h : σ.jobs.tasks = List.range σ.jobs.count) (e : Event) :
    (σ.step settings e).jobs.tasks = List.range (σ.step settings e).jobs.count := by
  have hsame : (∀ source target path, e ≠ .create source target path) →
      (σ.step settings e).jobs.tasks = List.range (σ.step settings e).jobs.count := by
    intro he
    have hkept := sameServers_step hs e he
    rw [hkept.tasks, hkept.count, h]
  cases e with
  | create source target path =>
    unfold Service.step Service.create
    dsimp only
    split
    · exact h
    · split
      · exact h
      · split
        · exact h
        · show σ.jobs.tasks ++ [σ.jobs.count] = List.range (σ.jobs.count + 1)
          rw [h, List.range_succ]
  | cancel j => exact hsame fun _ _ _ => Event.noConfusion
  | clearHistory => exact hsame fun _ _ _ => Event.noConfusion
  | stop => exact hsame fun _ _ _ => Event.noConfusion
  | complete j answer => exact hsame fun _ _ _ => Event.noConfusion
  | run fault => exact hsame fun _ _ _ => Event.noConfusion

/-! ### How the workers end -/

lemma phase_setPhase (σ : Service) (j : ℕ) (phase : Phase) : ((σ.setPhase j phase).worker j).phase = phase := by
  rw [worker_setPhase, if_pos rfl]

lemma phase_finish (σ : Service) (j : ℕ) : ((σ.finish j).worker j).phase = .finished := phase_setPhase _ j .finished

lemma phase_leave (σ : Service) (j : ℕ) (ending : Ending) : ((σ.leave settings j ending).worker j).phase = .finished :=
  phase_finish _ j

lemma phase_leaveSlots (σ : Service) (j : ℕ) (failure : Failure) :
    ((σ.leaveSlots settings j (some failure)).worker j).phase = .finished := by
  cases failure with
  | cancelRequested =>
    unfold leaveSlots
    dsimp only
    split
    · exact phase_leave _ j none
    · exact phase_leave _ j none
  | cancelled => exact phase_leave ((σ.release j .target).release j .source) j (some .cancelled)
  | conflict => exact phase_leave ((σ.release j .target).release j .source) j (some .conflict)
  | error => exact phase_leave ((σ.release j .target).release j .source) j (some .error)

lemma phase_abandonSlot (σ : Service) (j : ℕ) (p : Permit) : ((σ.abandonSlot settings j p).worker j).phase = .finished := by
  unfold abandonSlot
  dsimp only
  cases p with
  | overall => exact phase_finish _ j
  | source => exact phase_leave _ j _
  | target => exact phase_leave _ j _

/-- A worker that is told ends, wherever it is suspended. -/
lemma retired_told (σ : Service) (j : ℕ) (hlive : (σ.worker j).phase ≠ .finished) (fault : Option Fault) :
    ((σ.resume settings j (.raised .cancelled) fault).worker j).phase.retired = true := by
  have hfinished : ∀ σ' : Service, (σ'.worker j).phase = .finished → (σ'.worker j).phase.retired = true := by
    intro σ' h
    rw [h]
    rfl
  have hclosing : ((σ.setPhase j (.closing (some .cancelled))).worker j).phase.retired = true := by
    rw [phase_setPhase]
    rfl
  unfold Service.resume
  cases hp : (σ.worker j).phase with
  | finished => exact absurd hp hlive
  | start => exact hfinished _ (phase_setPhase σ j .finished)
  | slot p => exact hfinished _ (phase_abandonSlot σ j p)
  | planning => exact hfinished _ (phase_leave σ j _)
  | preflight => exact hfinished _ (phase_leave σ j _)
  | preparing => exact hfinished _ (phase_leaveSlots σ j _)
  | command => exact hclosing
  | sessions => exact hfinished _ (phase_leaveSlots σ j _)
  | copying => exact hclosing
  | closing ending => exact hfinished _ (phase_leaveSlots σ j _)
  | verifying => exact hfinished _ (phase_leave σ j _)

/-- One that closes what it used ends behind that. -/
lemma retired_closing (σ : Service) (j : ℕ) {failure : Failure} (hp : (σ.worker j).phase = .closing (some failure))
    (answer : Answer) (fault : Option Fault) : ((σ.resume settings j answer fault).worker j).phase.retired = true := by
  have hstay : (σ.worker j).phase.retired = true := by
    rw [hp]
    rfl
  have hfinished : ∀ failure, ((σ.leaveSlots settings j (some failure)).worker j).phase.retired = true := by
    intro failure
    rw [phase_leaveSlots]
    rfl
  unfold Service.resume
  rw [hp]
  cases answer with
  | done => exact hfinished failure
  | raised failure => exact hfinished failure
  | plan strategy probes => exact hstay
  | yes => exact hstay
  | no => exact hstay

/-- The service is stopped, and every worker has ended, is about to be told, or closes what it used. -/
structure Stopping (σ : Service) : Prop where
  stopped : σ.stopped = true
  ends : ∀ k, k < σ.jobs.count → (σ.worker k).phase.retired = true ∨ (σ.worker k).interrupted = true

lemma Stopping.congr (h : Stopping σ) (hstopped : σ'.stopped = σ.stopped) (hcount : σ'.jobs.count = σ.jobs.count)
    (hworker : σ'.worker = σ.worker) : Stopping σ' := by
  refine ⟨hstopped.trans h.stopped, fun k hk => ?_⟩
  rw [hworker]
  exact h.ends k (hcount ▸ hk)

lemma Stopping.interruptAll (tasks : List ℕ) (h : Stopping σ) : Stopping (tasks.foldl Service.interrupt σ) := by
  induction tasks generalizing σ with
  | nil => exact h
  | cons j tasks ih =>
    refine ih ⟨?_, fun k hk => ?_⟩
    · exact (congrArg Ledger.stopped (ledger_interrupt σ j)).trans h.stopped
    · rw [jobs_interrupt] at hk
      have hphase : ((σ.interrupt j).worker k).phase = (σ.worker k).phase :=
        congrArg (fun L : Ledger => L.phase k) (ledger_interrupt σ j)
      rw [hphase]
      refine (h.ends k hk).imp id fun htold => ?_
      by_cases heq : k = j
      · rw [heq] at htold ⊢
        exact (interrupt_spec σ j).2.2 htold
      · rw [(interrupt_spec σ j).1 k heq]
        exact htold

lemma Stopping.run (h : Stopping σ) (ho : Orderly settings σ) (fault : Option Fault) : Stopping (σ.run settings fault) := by
  rcases ho.sound.run_cases fault with ⟨-, heq⟩ | ⟨j, x, rest, told, hr, hj, hnot, -, -, hresumed⟩
  · rw [heq]
    exact h
  rcases ho.sound.run_resume fault with ⟨hnil, -⟩ | ⟨j', x', rest', answer, hr', -, hlive, -, hanswer, heq⟩
  · rw [hnil] at hr
    cases hr
  obtain ⟨hx, rfl⟩ := List.cons.inj (hr.symm.trans hr')
  obtain ⟨rfl, rfl⟩ := Prod.mk.inj hx
  have hleaves := (ho.run_turn hj hlive hr hanswer fault).2
  rw [← heq] at hleaves
  refine ⟨hleaves.stopped.trans h.stopped, fun k hk => ?_⟩
  by_cases hkj : k = j
  · rw [hkj, heq]
    have hphase := phase_popped σ j rest j
    rcases hanswer with ⟨hi, -⟩ | ⟨-, rfl⟩
    · have hretired := (h.ends j hj).resolve_right fun hi' => Bool.false_ne_true (hi.symm.trans hi')
      cases hp : (σ.worker j).phase with
      | finished => exact absurd hp hlive
      | closing ending =>
        rw [hp] at hretired hphase
        cases ending with
        | none => exact absurd hretired Bool.false_ne_true
        | some failure => exact .inl (retired_closing _ j hphase answer fault)
      | _ =>
        rw [hp] at hretired
        exact absurd hretired Bool.false_ne_true
    · refine .inl (retired_told _ j ?_ fault)
      rw [hphase]
      exact hlive
  · have hphase : ((σ.run settings fault).worker k).phase = (σ.worker k).phase := hleaves.phase k hkj
    rw [hphase, hresumed.tells.interrupted, interrupted_popped_of_ne hkj]
    exact h.ends k (hleaves.count ▸ hk)

lemma Stopping.step (h : Stopping σ) (ho : Orderly settings σ) (e : Event) : Stopping (σ.step settings e) := by
  cases e with
  | create source target path =>
    unfold Service.step Service.create
    dsimp only
    rw [if_pos h.stopped]
    exact h
  | cancel j =>
    have hcount : ∀ (events : Dict ℕ Bool),
        Stopping { σ.transition settings j .cancelled with cancel_events := events } := fun _ =>
      h.congr rfl (job_transition σ.jobs settings.transfer_job_history j .cancelled).2.1 rfl
    unfold Service.step Service.cancel
    dsimp only
    split
    · exact h
    · split
      · exact h
      · split
        · exact hcount _
        · exact hcount _
  | clearHistory => exact h.congr rfl rfl rfl
  | stop =>
    show Stopping (σ.stop settings).1
    rcases ho.stop_cases with ⟨-, -, heq⟩ | ⟨j, rest, -, heq⟩
    · rw [heq]
      exact Stopping.interruptAll _ (h.congr h.stopped.symm rfl rfl)
    · rw [heq]
      exact h.congr h.stopped.symm (job_transition σ.jobs settings.transfer_job_history j .cancelled).2.1 rfl
  | complete j answer =>
    unfold Service.step
    dsimp only
    split
    · exact h.congr rfl rfl rfl
    · exact h
  | run fault => exact h.run ho fault

/-! ### Whole runs -/

/-- The service with its tables in order. -/
structure Ready (settings : Settings) (σ : Service) : Prop where
  orderly : Orderly settings σ
  heard : Heard σ
  tasks : σ.jobs.tasks = List.range σ.jobs.count

lemma Ready.step (h : Ready settings σ) (e : Event) : Ready settings (σ.step settings e) :=
  ⟨h.orderly.step e, heard_step h.orderly h.heard e, tasks_step h.orderly.sound h.tasks e⟩

lemma ready_after (settings : Settings) (events : List Event) : Ready settings (after settings events) := by
  have hinit : Ready settings (Service.init settings) := ⟨orderly_after settings [], (fun _ hk => nomatch hk), rfl⟩
  exact Machine.inv_after hinit fun _ e h => h.step e

/-- Stopping the service, in any state it comes to. While a job is active, the first is cancelled, and `stop` raises:
no other job is touched, and no worker is told. When none is, it goes through, and in every state behind it in which the
loop has nobody to resume, every worker has ended or awaits the closing of what it used. -/
theorem stop_outcome (settings : Settings) (events : List Event) :
    (∀ j rest, (after settings events).jobs.active = j :: rest → (after settings events).stop settings =
      ({ (after settings events).transition settings j .cancelled with stopped := true }, true)) ∧
    ((after settings events).jobs.active = [] → ((after settings events).stop settings).2 = false ∧
      ∀ more, (after settings (events ++ .stop :: more)).ready = [] →
        ∀ j, j < (after settings (events ++ .stop :: more)).jobs.count →
          ((after settings (events ++ .stop :: more)).worker j).phase.retired = true) := by
  have h := ready_after settings events
  refine ⟨fun j rest hactive => ?_, fun hidle => ?_⟩
  · rcases h.orderly.stop_cases with ⟨hnil, -⟩ | ⟨j', rest', hactive', heq⟩
    · rw [hnil] at hactive
      cases hactive
    · obtain ⟨rfl, -⟩ := List.cons.inj (hactive.symm.trans hactive')
      exact heq
  · rcases h.orderly.stop_cases with ⟨-, hraises, heq⟩ | ⟨j', rest', hactive', -⟩
    · refine ⟨hraises, fun more hquiet j hj => ?_⟩
      have hstart : Stopping ((after settings events).stop settings).1 := by
        rw [heq]
        refine ⟨congrArg Ledger.stopped (ledger_interruptAll _ _), fun k hk => ?_⟩
        rw [sameServers_interrupt] at hk
        have hmem : k ∈ (after settings events).jobs.tasks := by
          rw [h.tasks, List.mem_range]
          exact hk
        refine (told_interruptAll _ _ hmem).imp (fun hdone => ?_) id
        rw [show (Service.worker _ k).phase = .finished from
          (congrArg (fun L : Ledger => L.phase k) (ledger_interruptAll _ _)).trans hdone]
        rfl
      have hinv : Stopping ((after settings events).step settings .stop) ∧
          Ready settings ((after settings events).step settings .stop) := ⟨hstart, h.step .stop⟩
      have hrun := @Machine.inv_after _ _ (fun σ e => Service.step settings σ e)
        (fun σ => Stopping σ ∧ Ready settings σ) _ more hinv fun σ e hσ => ⟨hσ.1.step hσ.2.orderly e, hσ.2.step e⟩
      have hafter : after settings (events ++ .stop :: more) =
          Machine.after (fun σ e => Service.step settings σ e) ((after settings events).step settings .stop) more :=
        Machine.after_append
      rw [← hafter] at hrun
      refine (hrun.1.ends j hj).resolve_right fun htold => ?_
      have hmem := hrun.2.heard j htold
      rw [hquiet] at hmem
      cases hmem
    · rw [hidle] at hactive'
      cases hactive'

end Service
end SshGpuConsole.Transfers
