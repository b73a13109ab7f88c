import SshGpuConsole.Telemetry.Resumption
import SshGpuConsole.Telemetry.Workers

/-!
# A change of the cadence

`reconcile` restarts the worker of a server with another `sample_interval_s`, and its comment says that the identity of
the connection is untouched. The worker that it cancels closes its executor, which retires the server in the manager
(`close_server`), and with it the connection that the new worker is to use (`cadence_keeps_connection`).
-/

namespace SshGpuConsole.Scheduling
open Shell (Text)
open Machine

namespace Scheduler
variable {settings : Settings} {σ σ' : Scheduler} {w k : ℕ} {now : ℚ≥0}

/-- The worker has an executor that it did not close yet. -/
def Holds (σ : Scheduler) (w : ℕ) : Prop :=
  (σ.worker w).executor = true ∧ (σ.worker w).phase ≠ .closing ∧ (σ.worker w).phase ≠ .done

/-- No connection was closed for a change of the cadence alone. -/
def Untouched (σ : Scheduler) : Prop := ∀ x ∈ σ.closes, x.2 ≠ some .cadence

/-- Where a reconciliation changes nothing but the cadence of servers, the workers it restarts have no executor. -/
def CadenceFits (σ : Scheduler) : Event → Prop
  | .reconcile records => σ.onlyCadence records = true → ∀ x ∈ enabledServers records, σ.Resampled x.2 →
      ∀ w, σ.task x.1 = some w → ¬σ.Holds w
  | _ => True

/-- No worker that is cancelled for its cadence is going to close its executor. -/
structure Released (σ : Scheduler) : Prop where
  consistent : σ.Consistent
  untouched : σ.Untouched
  released : ∀ w, w < σ.count → (σ.worker w).cancelled = some .cadence → ¬σ.Holds w

lemma not_holds_of_ended (h : (σ.worker w).phase = .closing ∨ (σ.worker w).phase = .done) : ¬σ.Holds w :=
  fun hholds => h.elim hholds.2.1 hholds.2.2

/-- What a worker does that is cancelled for its cadence: it ends, and closes what it holds. -/
lemma resumed_cancelled {cause : Cause} (h : Resumed settings w now σ σ') (hcancelled : (σ.worker w).cancelled = some cause) :
    (σ'.worker w = σ.worker w ∧ σ'.closes = σ.closes) ∨
      ((σ'.worker w).phase = .closing ∨ (σ'.worker w).phase = .done) ∧
        (σ'.closes = σ.closes ∨ σ.Holds w ∧ σ'.closes = σ.closes ++ [(w, some cause)]) := by
  have hnot : (σ.worker w).cancelled ≠ none := hcancelled ▸ Option.some_ne_none cause
  cases h with
  | same => exact .inl ⟨rfl, rfl⟩
  | unborn =>
    rw [worker_setWorker_self]
    exact .inr ⟨.inr rfl, .inl rfl⟩
  | began huncancelled => exact absurd huncancelled hnot
  | parked huncancelled => exact absurd huncancelled hnot
  | connected huncancelled => exact absurd huncancelled hnot
  | closed =>
    rw [worker_setWorker_self]
    exact .inr ⟨.inr rfl, .inl rfl⟩
  | @finished base crashed hphase hbase =>
    refine .inr ⟨phase_finish base crashed, ?_⟩
    rw [closes_finish, hbase.executor, hbase.closes, hbase.cancelled, hcancelled]
    split
    · rename_i hexecutor
      refine .inr ⟨⟨hexecutor, ?_, ?_⟩, rfl⟩
      all_goals
        intro hended
        obtain h | h | h := hphase
        all_goals
          rw [h] at hended
          cases hended
    · exact .inl rfl

/-- What a worker closes that was not cancelled is not for its cadence. -/
lemma resumed_uncancelled (h : Resumed settings w now σ σ') (huncancelled : (σ.worker w).cancelled = none) :
    σ'.closes = σ.closes ∨ σ'.closes = σ.closes ++ [(w, none)] := by
  cases h with
  | same => exact .inl rfl
  | unborn => exact .inl rfl
  | began _ _ hbase => exact .inl ((closes_iterate _).trans hbase.closes)
  | parked _ _ hbase => exact .inl hbase.closes
  | connected => exact .inl rfl
  | closed => exact .inl rfl
  | finished _ hbase =>
    rw [closes_finish, hbase.closes, hbase.cancelled, huncancelled]
    split
    · exact .inr rfl
    · exact .inl rfl

lemma holds_of_reconciled {worker worker' : Worker} (h : Reconciled worker worker') (hexecutor : worker'.executor = true) :
    worker.executor = true ∧ worker'.phase = worker.phase := by
  obtain ⟨base, hbase, hworker⟩ := h
  have hsame : worker'.executor = base.executor ∧ worker'.phase = base.phase := by
    cases hworker with
    | inl hsame => rw [hsame]; exact ⟨rfl, rfl⟩
    | inr hcancelled =>
      obtain ⟨-, cause, rfl⟩ := hcancelled
      exact ⟨rfl, rfl⟩
  cases hbase with
  | inl hbase => exact ⟨by rw [← hbase, ← hsame.1, hexecutor], by rw [hsame.2, hbase]⟩
  | inr hnew =>
    obtain ⟨record, rfl⟩ := hnew
    rw [hsame.1] at hexecutor
    cases hexecutor

/-- A reconciliation gives nobody an executor. -/
lemma holds_of_holds_reconcile {cause : Cause} {records : List Record} (h : (σ.reconcile cause records).Holds k) :
    σ.Holds k := by
  obtain ⟨hexecutor, hphase⟩ := holds_of_reconciled (reconciled_reconcile cause records k) h.1
  exact ⟨hexecutor, hphase ▸ h.2⟩

lemma Released.reconcile {records : List Record} (h : σ.Released) (hfits : σ.CadenceFits (.reconcile records)) :
    (σ.reconcile (σ.cause records) records).Released where
  consistent := by
    have hstep : (σ.step {} (.reconcile records)).Consistent := h.consistent.step _
    exact hstep
  untouched := by
    unfold Untouched
    rw [(left_reconcile σ _ records).closes]
    exact h.untouched
  released := by
    intro k hk hcancelled hholds
    have happlied := applied h.consistent.1 h.consistent.2 (σ.cause records) records
    by_cases hold : k < σ.count
    · cases happlied.cadence k hold hcancelled with
      | inl hbefore => exact h.released k hold hbefore (holds_of_holds_reconcile hholds)
      | inr hnow =>
        obtain ⟨hcause, x, hx, htask, hresampled⟩ := hnow
        have honly : σ.onlyCadence records = true := by
          by_contra hnot
          rw [cause, if_neg hnot] at hcause
          cases hcause
        exact hfits honly x hx hresampled k htask (holds_of_holds_reconcile hholds)
    · obtain ⟨record, hfresh⟩ := happlied.fresh k (not_lt.1 hold) hk
      rw [hfresh] at hcancelled
      cases hcancelled

lemma Released.resume (h : σ.Released) (hw : w < σ.count) (answer : Answer) (jitter : ℚ) :
    (σ.resume settings w now answer jitter).Released := by
  have hran : Ran w σ (σ.resume settings w now answer jitter) := ran_resume answer jitter
  have hresumed : Resumed settings w now σ (σ.resume settings w now answer jitter) := resumed answer jitter
  constructor
  · have hstep : (σ.step settings (.run w answer now jitter)).Consistent := h.consistent.step _
    rw [step_run _ _ hw] at hstep
    exact hstep
  · intro x hx
    cases hcancelled : (σ.worker w).cancelled with
    | none =>
      cases resumed_uncancelled hresumed hcancelled with
      | inl hcloses => exact h.untouched x (hcloses ▸ hx)
      | inr hcloses =>
        rw [hcloses] at hx
        cases List.mem_append.1 hx with
        | inl hx => exact h.untouched x hx
        | inr hx =>
          rw [List.mem_singleton.1 hx]
          exact (Option.some_ne_none _).symm
    | some cause =>
      obtain ⟨-, hcloses⟩ | ⟨-, hcloses | ⟨hholds, hcloses⟩⟩ := resumed_cancelled hresumed hcancelled
      · exact h.untouched x (hcloses ▸ hx)
      · exact h.untouched x (hcloses ▸ hx)
      · rw [hcloses] at hx
        cases List.mem_append.1 hx with
        | inl hx => exact h.untouched x hx
        | inr hx =>
          rw [List.mem_singleton.1 hx]
          exact fun hcadence => h.released w hw (hcancelled.trans hcadence) hholds
  · intro k hk hcancelled
    rw [hran.count] at hk
    by_cases hkw : k = w
    · subst hkw
      rw [hran.cancelled] at hcancelled
      obtain ⟨hsame, -⟩ | ⟨hended, -⟩ := resumed_cancelled hresumed hcancelled
      · unfold Holds
        rw [hsame]
        exact h.released k hk hcancelled
      · exact not_holds_of_ended hended
    · have hsame := hran.others k hkw
      unfold Holds
      rw [hsame]
      exact h.released k hk (hsame ▸ hcancelled)

lemma Released.step (h : σ.Released) (e : Event) (hfits : σ.CadenceFits e) : (σ.step settings e).Released := by
  cases e with
  | setDemand active_clients detail_servers now =>
    have hsame : (σ.setDemand now active_clients detail_servers).closes = σ.closes ∧
        (σ.setDemand now active_clients detail_servers).count = σ.count := by
      unfold setDemand
      dsimp only
      split <;> exact ⟨rfl, rfl⟩
    refine ⟨h.consistent.step _, ?_, fun k hk hcancelled => ?_⟩
    · show ∀ x ∈ (σ.setDemand now active_clients detail_servers).closes, _
      rw [hsame.1]
      exact h.untouched
    · obtain ⟨wakeup, hworker⟩ := worker_setDemand σ now active_clients detail_servers k
      have hworker' : (σ.step settings (.setDemand active_clients detail_servers now)).worker k = _ := hworker
      unfold Holds
      rw [hworker'] at hcancelled ⊢
      exact h.released k (hsame.2 ▸ hk) hcancelled
  | reconcile records => exact h.reconcile hfits
  | run w answer now jitter =>
    show (if w < σ.count then σ.resume settings w now answer jitter else σ).Released
    split
    · rename_i hw
      exact h.resume hw answer jitter
    · exact h

lemma released_init : init.Released :=
  ⟨⟨tables_init, fun _ => rfl⟩, fun _ hx => absurd hx List.not_mem_nil, fun w hw => absurd hw (Nat.not_lt_zero w)⟩

/-! ### The cadence of a worker that is connected -/

/-- Who did not start has no executor. -/
def Unstarted (σ : Scheduler) : Prop := ∀ w, (σ.worker w).phase = .start → (σ.worker w).executor = false

lemma Unstarted.resume (h : σ.Unstarted) (answer : Answer) (jitter : ℚ) :
    (σ.resume settings w now answer jitter).Unstarted := by
  have hran : Ran w σ (σ.resume settings w now answer jitter) := ran_resume answer jitter
  have hresumed : Resumed settings w now σ (σ.resume settings w now answer jitter) := resumed answer jitter
  intro k hstart
  by_cases hk : k = w
  · subst hk
    revert hstart
    generalize σ.resume settings k now answer jitter = σ' at hresumed
    intro hstart
    cases hresumed with
    | same => exact h k hstart
    | unborn =>
      rw [worker_setWorker_self] at hstart
      cases hstart
    | began _ _ _ => exact absurd hstart (worker_iterate ..).1.not_start
    | parked _ _ _ =>
      rw [worker_setWorker_self] at hstart
      cases hstart
    | connected =>
      rw [worker_setWorker_self] at hstart
      cases hstart
    | @finished base crashed _ _ =>
      cases phase_finish base crashed with
      | inl hphase => cases hstart.symm.trans hphase
      | inr hphase => cases hstart.symm.trans hphase
    | closed =>
      rw [worker_setWorker_self] at hstart
      cases hstart
  · rw [hran.others k hk] at hstart ⊢
    exact h k hstart

lemma Unstarted.step (h : σ.Unstarted) (e : Event) : (σ.step settings e).Unstarted := by
  cases e with
  | setDemand active_clients detail_servers now =>
    intro k hstart
    obtain ⟨wakeup, hworker⟩ := worker_setDemand σ now active_clients detail_servers k
    have hworker' : (σ.step settings (.setDemand active_clients detail_servers now)).worker k = _ := hworker
    rw [hworker'] at hstart ⊢
    exact h k hstart
  | reconcile records =>
    intro k hstart
    refine Bool.eq_false_iff.2 fun hexecutor => ?_
    obtain ⟨hbefore, hphase⟩ := holds_of_reconciled (reconciled_reconcile (σ.cause records) records k) hexecutor
    exact Bool.eq_false_iff.1 (h k (hphase ▸ hstart)) hbefore
  | run w answer now jitter =>
    show (if w < σ.count then σ.resume settings w now answer jitter else σ).Unstarted
    split
    · exact h.resume answer jitter
    · exact h

/-- A worker that is cancelled closes what it holds. -/
lemma closes_resume_cancelled {cause : Cause} (hunstarted : σ.Unstarted) (hholds : σ.Holds w)
    (hcancelled : (σ.worker w).cancelled = some cause) (answer : Answer) (jitter : ℚ) :
    (σ.resume settings w now answer jitter).closes = σ.closes ++ [(w, some cause)] := by
  have hfinish : (σ.finish w (σ.worker w).crashed).closes = σ.closes ++ [(w, some cause)] := by
    rw [closes_finish, if_pos hholds.1, hcancelled]
  unfold resume
  dsimp only
  rw [hcancelled]
  cases hphase : (σ.worker w).phase with
  | start => exact absurd hholds.1 (Bool.eq_false_iff.1 (hunstarted w hphase))
  | factory => exact hfinish
  | collecting => exact hfinish
  | waiting => exact hfinish
  | closing => exact absurd hphase hholds.2.1
  | done => exact absurd hphase hholds.2.2

/-- Where a reconciliation does not fit, the worker it restarts closes its executor when it runs next. -/
lemma exists_close (hconsistent : σ.Consistent) (hunstarted : σ.Unstarted) {e : Event} (hfits : ¬σ.CadenceFits e) :
    ∃ w, ¬(after (step settings) σ [e, .run w .done 0 0]).Untouched := by
  cases e with
  | setDemand => exact absurd trivial hfits
  | run => exact absurd trivial hfits
  | reconcile records =>
    unfold CadenceFits at hfits
    push Not at hfits
    obtain ⟨honly, x, hx, hresampled, w, htask, hholds⟩ := hfits
    have happlied := applied hconsistent.1 hconsistent.2 (σ.cause records) records
    have hworker := happlied.resampled x hx w htask hresampled
    rw [cause, if_pos honly] at hworker
    have hborn : w < (σ.reconcile .cadence records).count := by
      have hcount := (hconsistent.1.born _ _ (task_eq_some.1 htask).1).trans_le happlied.count
      rw [cause, if_pos honly] at hcount
      exact hcount
    have hstep : σ.step settings (.reconcile records) = σ.reconcile .cadence records := by
      show σ.reconcile (σ.cause records) records = _
      rw [cause, if_pos honly]
    have hunstarted' : (σ.reconcile .cadence records).Unstarted := hstep ▸ hunstarted.step _
    have hholds' : (σ.reconcile .cadence records).Holds w := by
      unfold Holds
      rw [hworker]
      exact hholds
    have hcancelled : ((σ.reconcile .cadence records).worker w).cancelled = some .cadence := by
      rw [hworker]
    refine ⟨w, fun huntouched => ?_⟩
    rw [after_cons, after_cons, after_nil, hstep, step_run _ _ hborn] at huntouched
    refine huntouched (w, some .cadence) ?_ rfl
    rw [closes_resume_cancelled hunstarted' hholds' hcancelled]
    exact List.mem_append_right _ (List.mem_singleton_self _)

end Scheduler

/-- **What a change of the cadence keeps.** -/
theorem cadence_keeps_connection (settings : Settings) (es : List Event) :
    (Along (Scheduler.step settings) Scheduler.CadenceFits .init es →
      Always (Scheduler.step settings) Scheduler.Untouched .init es) ∧
    (∀ records server_id,
      (server_id ∈ (after (Scheduler.step settings) .init (es ++ [.reconcile records])).workers.map Prod.fst ↔
        ∃ record ∈ records, record.enabled = true ∧ record.server_id = server_id) ∧
      (server_id ∈ (after (Scheduler.step settings) .init (es ++ [.reconcile records])).records.map Prod.fst ↔
        ∃ record ∈ records, record.enabled = true ∧ record.server_id = server_id)) ∧
    ∀ e, ¬(after (Scheduler.step settings) .init es).CadenceFits e →
      ∃ w, ¬(after (Scheduler.step settings) .init (es ++ [e, .run w .done 0 0])).Untouched := by
  have hconsistent : (after (Scheduler.step settings) .init es).Consistent := Scheduler.consistent_after es
  refine ⟨fun halong => ?_, fun records server_id => ?_, fun e hfits => ?_⟩
  · exact (always_of_along Scheduler.released_init (fun _ e h hfits => h.step e hfits) halong).imp fun _ h => h.untouched
  · have happlied := Scheduler.applied hconsistent.1 hconsistent.2
      ((after (Scheduler.step settings) .init es).cause records) records
    rw [after_append, after_cons, after_nil, ← Dict.isSome_get_iff, ← Dict.isSome_get_iff]
    exact ⟨(happlied.workers server_id).trans Scheduler.mem_keys_enabledServers,
      (happlied.records server_id).trans Scheduler.mem_keys_enabledServers⟩
  · have hunstarted : (after (Scheduler.step settings) .init es).Unstarted :=
      inv_after (fun _ _ => rfl) fun _ e h => h.step e
    rw [funext fun w => congrArg (¬Scheduler.Untouched ·) after_append]
    exact Scheduler.exists_close hconsistent hunstarted hfits

/-! ### One restart -/

/-- A server whose worker is connected gets another cadence. -/
def restart : List Event :=
  let record : Record := { server_id := "gpu".toList, display_name := "gpu".toList, ssh_host := "gpu".toList }
  [.reconcile [record], .run 0 .done 0 0, .run 0 .done 0 0, .run 0 .done 0 0,
    .reconcile [{ record with sample_interval_s := some 5 }], .run 0 .done 0 0]

/-- The worker that was restarted retires its server in the manager. -/
theorem cadence_keeps_connection_not : ¬(after (Scheduler.step {}) .init restart).Untouched ∧
    (0, some Cause.cadence) ∈ (after (Scheduler.step {}) .init restart).closes := by
  have hcloses : (after (Scheduler.step {}) .init restart).closes = [(0, some .cadence)] := by decide +kernel
  have hmem : (0, some Cause.cadence) ∈ (after (Scheduler.step {}) .init restart).closes :=
    hcloses ▸ List.mem_singleton_self _
  exact ⟨fun huntouched => huntouched _ hmem rfl, hmem⟩

end SshGpuConsole.Scheduling
