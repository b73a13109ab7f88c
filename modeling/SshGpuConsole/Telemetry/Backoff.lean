import SshGpuConsole.Telemetry.Scheduler

/-!
# Backoff

Both backoffs (`Scheduler._backoff_delay` and `ManagedConnection.backoff_delay` of `ssh/connection.py`) compute the
power before they cap it, and the power of more than 1024 failures in a row is too large for a float: the delay is
then an `OverflowError`, which ends the worker, and takes the place of the `ConnectError` that a connection should
report (`backoff_survives_iff`).
-/

namespace SshGpuConsole.Scheduling
open Machine

/-! ### The connection -/

/-- `ManagedConnection.backoff_delay`, or the `OverflowError`. -/
def connectionDelay (settings : Settings) (attempts : ℕ) (random : ℚ) : Option ℚ := do
  let scaled ← timesPower settings.reconnect_backoff_min_s (attempts - 1)
  let base := min settings.reconnect_backoff_max_s scaled
  return min settings.reconnect_backoff_max_s (base * (1 + random * (1 / 4)))

/-- What `connect` reads and writes of its connection. -/
structure Connection where
  is_open : Bool := false
  attempts : ℕ := 0
  next_attempt_at : ℚ := 0

/-- How the connect factory ends. -/
inductive Connecting where
  | connected
  /-- With a `ConnectError`, or an exception that is classified as one. -/
  | failed (retryable : Bool)
  | cancelled

/-- How `connect` ends. -/
inductive Reported where
  | returned
  | connectError
  | overflowError
  | cancelled
  deriving DecidableEq

/-- `_record_failure`; `_schedule_retry` counts the attempt first. -/
def recordFailure (settings : Settings) (connection : Connection) (retryable : Bool) (now random : ℚ) :
    Reported × Connection :=
  if retryable then
    let connection := { connection with attempts := connection.attempts + 1 }
    match connectionDelay settings connection.attempts random with
    | some delay => (.connectError, { connection with next_attempt_at := now + delay })
    | none => (.overflowError, connection)
  else (.connectError, { connection with next_attempt_at := 0 })

/-- `connect`; a factory that fails does it at `failed_at`. -/
def connect (settings : Settings) (connection : Connection) (force : Bool) (now : ℚ) (connecting : Connecting)
    (failed_at random : ℚ) : Reported × Connection :=
  if connection.is_open then (.returned, connection)
  else if !force && now < connection.next_attempt_at then (.connectError, connection)
  else match connecting with
    | .connected => (.returned, { is_open := true })
    | .cancelled => (.cancelled, connection)
    | .failed retryable => recordFailure settings connection retryable failed_at random

/-! ### Delays -/

variable {settings : Settings}

/-- After so many failures in a row, both delays are between the bounds. -/
structure DelaysFit (settings : Settings) (n : ℕ) : Prop where
  connection : ∀ random, 0 ≤ random → random < 1 → ∃ delay, connectionDelay settings n random = some delay ∧
    settings.reconnect_backoff_min_s ≤ delay ∧ delay ≤ settings.reconnect_backoff_max_s
  scheduler : ∀ jitter, 0 ≤ jitter → jitter ≤ 1 / 2 → ∃ delay, backoffDelay settings n jitter = some delay ∧
    settings.reconnect_backoff_min_s ≤ delay ∧ delay ≤ settings.reconnect_backoff_max_s + 1 / 2

lemma timesPower_eq {x : ℚ} {k : ℕ} (hk : k < 1024) : timesPower x k = some (x * 2 ^ k) := if_pos hk

lemma timesPower_eq_none {x : ℚ} {k : ℕ} : timesPower x k = none ↔ 1024 ≤ k := by
  unfold timesPower
  split
  · rename_i hk
    exact iff_of_false (Option.some_ne_none _) (not_le.2 hk)
  · rename_i hk
    exact iff_of_true rfl (not_lt.1 hk)

lemma backoffDelay_eq_none {n : ℕ} {jitter : ℚ} : backoffDelay settings n jitter = none ↔ 1024 < n := by
  unfold backoffDelay
  rw [Option.bind_eq_bind, Option.bind_eq_none_iff]
  constructor
  · intro h
    by_contra hn
    have hk : n - 1 < 1024 := by omega
    exact Option.some_ne_none _ (h _ (timesPower_eq hk))
  · intro hn scaled hscaled
    rw [timesPower_eq_none.2 (by omega)] at hscaled
    cases hscaled

lemma connectionDelay_eq_none {n : ℕ} {random : ℚ} : connectionDelay settings n random = none ↔ 1024 < n := by
  unfold connectionDelay
  rw [Option.bind_eq_bind, Option.bind_eq_none_iff]
  constructor
  · intro h
    by_contra hn
    have hk : n - 1 < 1024 := by omega
    exact Option.some_ne_none _ (h _ (timesPower_eq hk))
  · intro hn scaled hscaled
    rw [timesPower_eq_none.2 (by omega)] at hscaled
    cases hscaled

/-- The capped power is between the bounds. -/
lemma capped_bounds (hmin : 0 < settings.reconnect_backoff_min_s)
    (hle : settings.reconnect_backoff_min_s ≤ settings.reconnect_backoff_max_s) (k : ℕ) :
    settings.reconnect_backoff_min_s ≤
        min settings.reconnect_backoff_max_s (settings.reconnect_backoff_min_s * 2 ^ k) ∧
      min settings.reconnect_backoff_max_s (settings.reconnect_backoff_min_s * 2 ^ k) ≤
        settings.reconnect_backoff_max_s := by
  have hpower : (1 : ℚ) ≤ 2 ^ k := one_le_pow₀ one_le_two
  exact ⟨le_min hle (le_mul_of_one_le_right hmin.le hpower), min_le_left _ _⟩

lemma delays_fit_iff (hmin : 0 < settings.reconnect_backoff_min_s)
    (hle : settings.reconnect_backoff_min_s ≤ settings.reconnect_backoff_max_s) (n : ℕ) :
    DelaysFit settings n ↔ n ≤ 1024 := by
  constructor
  · intro h
    obtain ⟨delay, hdelay, -⟩ := h.scheduler 0 le_rfl (by norm_num)
    by_contra hn
    rw [backoffDelay_eq_none.2 (not_le.1 hn)] at hdelay
    cases hdelay
  · intro hn
    have hk : n - 1 < 1024 := by omega
    obtain ⟨hlow, hhigh⟩ := capped_bounds hmin hle (n - 1)
    constructor
    · intro random hrandom _
      refine ⟨_, by rw [connectionDelay, timesPower_eq hk]; rfl, le_min hle ?_, min_le_left _ _⟩
      refine hlow.trans (le_mul_of_one_le_right (hmin.le.trans hlow) ?_)
      linarith
    · intro jitter hjitter hjitter'
      refine ⟨_, by rw [backoffDelay, timesPower_eq hk]; rfl, ?_, ?_⟩
      · linarith
      · linarith

/-! ### The worker -/

namespace Scheduler
variable {σ : Scheduler} {w : ℕ} {now : ℚ≥0}

lemma crashed_iterate : ((σ.iterate settings w now).worker w).crashed = (σ.worker w).crashed := by
  unfold iterate
  dsimp only
  split
  · rw [worker_setWorker_self]
    rfl
  · rw [worker_setWorker_self]
    rfl

lemma crashed_endRound : ((σ.endRound settings w now).worker w).crashed = (σ.worker w).crashed := by
  unfold endRound
  dsimp only
  split
  · rw [crashed_iterate, worker_setWorker_self]
  · rw [worker_setWorker_self, worker_setWorker_self]

lemma crashed_finish (crashed : Bool) : ((σ.finish w crashed).worker w).crashed = crashed := by
  unfold finish
  dsimp only
  split
  · rw [worker_close_self]
  · rw [worker_setWorker_self]

/-- With the failure counted, the delay is there while few came before it. -/
lemma not_many_of_backoffDelay {failures : ℕ} {jitter delay : ℚ}
    (h : backoffDelay settings (failures + 1) jitter = some delay) : ¬1024 ≤ failures := by
  intro hmany
  rw [backoffDelay_eq_none.2 (Nat.lt_succ_of_le hmany)] at h
  cases h

lemma crashed_factoryFailed (jitter : ℚ) : ((σ.factoryFailed settings w now jitter).worker w).crashed = true ↔
    (σ.worker w).crashed = true ∨ 1024 ≤ (σ.worker w).consecutive_failures := by
  unfold factoryFailed
  dsimp only
  split
  · rename_i hdelay
    rw [crashed_finish]
    exact iff_of_true rfl (.inr (Nat.le_of_lt_succ (backoffDelay_eq_none.1 hdelay)))
  · rename_i hdelay
    rw [or_iff_left (not_many_of_backoffDelay hdelay), crashed_endRound, worker_setWorker_self]
    show Worker.crashed ((σ.setWorker w _).worker w) = true ↔ _
    rw [worker_setWorker_self]

lemma crashed_collected (failed : Bool) (jitter : ℚ) :
    ((σ.collected settings w now failed jitter).worker w).crashed = true ↔
      (σ.worker w).crashed = true ∨ failed = true ∧ 1024 ≤ (σ.worker w).consecutive_failures := by
  unfold collected
  cases failed with
  | false =>
    rw [if_neg Bool.false_ne_true, crashed_endRound, worker_setWorker_self,
      or_iff_left (show ¬(false = true ∧ _) from fun h => Bool.false_ne_true h.1)]
    rfl
  | true =>
    dsimp only
    rw [if_pos rfl]
    split
    · rename_i hdelay
      rw [crashed_finish]
      exact iff_of_true rfl (.inr ⟨rfl, Nat.le_of_lt_succ (backoffDelay_eq_none.1 hdelay)⟩)
    · rename_i hdelay
      rw [or_iff_left fun h => not_many_of_backoffDelay hdelay h.2, crashed_endRound, worker_setWorker_self]
      show Worker.crashed ((σ.setWorker w _).worker w) = true ↔ _
      rw [worker_setWorker_self]

/-- The worker is suspended where it fails: in the factory, or in a batch. -/
def Failing (w : ℕ) : Prop :=
  (σ.worker w).cancelled = none ∧ ((σ.worker w).phase = .factory ∨ (σ.worker w).phase = .collecting)

lemma not_failing_of_cancelled {cause : Cause} (h : (σ.worker w).cancelled = some cause) : ¬σ.Failing w := by
  intro hfailing
  rw [hfailing.1] at h
  cases h

lemma crashed_resume (answer : Answer) (jitter : ℚ) :
    ((σ.resume settings w now answer jitter).worker w).crashed = true ↔
      (σ.worker w).crashed = true ∨
        answer = .failed ∧ σ.Failing w ∧ 1024 ≤ (σ.worker w).consecutive_failures := by
  have hfine : ¬(answer = .failed ∧ σ.Failing w) →
      ((σ.worker w).crashed = true ↔ (σ.worker w).crashed = true ∨
        answer = .failed ∧ σ.Failing w ∧ 1024 ≤ (σ.worker w).consecutive_failures) :=
    fun h => (or_iff_left fun hfailed => h ⟨hfailed.1, hfailed.2.1⟩).symm
  unfold resume
  dsimp only
  split
  · rename_i hcancelled
    rw [worker_setWorker_self]
    exact hfine fun h => not_failing_of_cancelled hcancelled h.2
  · rw [crashed_iterate]
    exact hfine fun h => Answer.noConfusion h.1
  · rename_i hcancelled
    rw [crashed_finish]
    exact hfine fun h => not_failing_of_cancelled hcancelled h.2
  · rename_i hcancelled
    rw [crashed_finish]
    exact hfine fun h => not_failing_of_cancelled hcancelled h.2
  · rename_i hcancelled
    rw [crashed_finish]
    exact hfine fun h => not_failing_of_cancelled hcancelled h.2
  · rw [worker_setWorker_self]
    exact hfine fun h => Answer.noConfusion h.1
  · rename_i hphase hnone
    rw [crashed_factoryFailed]
    exact or_congr Iff.rfl ⟨fun h => ⟨rfl, ⟨hnone, .inl hphase⟩, h⟩, fun h => h.2.2⟩
  · rw [crashed_collected]
    refine Iff.trans ?_ (hfine fun h => Answer.noConfusion h.1)
    exact or_iff_left fun h => Bool.false_ne_true h.1
  · rename_i hphase hnone
    rw [crashed_collected]
    exact or_congr Iff.rfl ⟨fun h => ⟨rfl, ⟨hnone, .inr hphase⟩, h.2⟩, fun h => ⟨rfl, h.2.2⟩⟩
  · refine Iff.trans ?_ (hfine fun h => Answer.noConfusion h.1)
    split
    · rw [crashed_iterate]
    · rfl
  · rw [crashed_iterate]
    exact hfine fun h => Answer.noConfusion h.1
  · rename_i hphase
    rw [worker_setWorker_self]
    refine hfine fun h => ?_
    cases h.2.2 with
    | inl hfactory => exact Phase.noConfusion (hphase.symm.trans hfactory)
    | inr hcollecting => exact Phase.noConfusion (hphase.symm.trans hcollecting)
  · rename_i hfactory _ hcollecting _ _
    refine hfine fun h => ?_
    obtain ⟨hfailed, hnone, hphase⟩ := h
    cases hphase with
    | inl hphase => exact hfactory hphase hnone hfailed
    | inr hphase => exact hcollecting hphase hnone hfailed

variable (σ) in
/-- No worker was ended by an exception. -/
def NobodyCrashed : Prop := ∀ w, (σ.worker w).crashed = false

/-- A worker that fails here has fewer than 1024 failures in a row behind it. -/
def FewFailures (σ : Scheduler) : Event → Prop
  | .run w .failed _ _ => w < σ.count → σ.Failing w → (σ.worker w).consecutive_failures < 1024
  | _ => True

lemma crashed_of_reconciled {worker worker' : Worker} (h : Reconciled worker worker') (hcrashed : worker.crashed = false) :
    worker'.crashed = false := by
  obtain ⟨base, hbase, hworker⟩ := h
  have hfine : base.crashed = false := by
    cases hbase with
    | inl hsame => rw [hsame, hcrashed]
    | inr hnew =>
      obtain ⟨record, rfl⟩ := hnew
      rfl
  cases hworker with
  | inl hsame => rw [hsame, hfine]
  | inr hcancelled =>
    obtain ⟨-, cause, rfl⟩ := hcancelled
    exact hfine

/-- Where nobody crashed, one who is resumed crashes exactly behind many failures. -/
lemma nobodyCrashed_resume (h : σ.NobodyCrashed) (answer : Answer) (jitter : ℚ) :
    (σ.resume settings w now answer jitter).NobodyCrashed ↔
      ¬(answer = .failed ∧ σ.Failing w ∧ 1024 ≤ (σ.worker w).consecutive_failures) := by
  have hself : ((σ.resume settings w now answer jitter).worker w).crashed = true ↔
      answer = .failed ∧ σ.Failing w ∧ 1024 ≤ (σ.worker w).consecutive_failures :=
    (crashed_resume answer jitter).trans (or_iff_right (Bool.eq_false_iff.1 (h w)))
  constructor
  · intro hnobody hmany
    exact Bool.eq_false_iff.1 (hnobody w) (hself.2 hmany)
  · intro hfew k
    by_cases hk : k = w
    · subst hk
      exact Bool.eq_false_iff.2 fun hcrashed => hfew (hself.1 hcrashed)
    · rw [(ran_resume answer jitter).others k hk]
      exact h k

/-- A step ends a worker by an exception exactly where it fails behind many failures. -/
lemma nobodyCrashed_step (h : σ.NobodyCrashed) (e : Event) :
    (σ.step settings e).NobodyCrashed ↔ FewFailures σ e := by
  cases e with
  | setDemand active_clients detail_servers now =>
    refine iff_of_true (fun k => ?_) trivial
    obtain ⟨wakeup, hworker⟩ := worker_setDemand σ now active_clients detail_servers k
    exact (congrArg Worker.crashed hworker).trans (h k)
  | reconcile records =>
    exact iff_of_true (fun k => crashed_of_reconciled (reconciled_reconcile _ records k) (h k)) trivial
  | run w answer now jitter =>
    show (if w < σ.count then σ.resume settings w now answer jitter else σ).NobodyCrashed ↔ _
    by_cases hw : w < σ.count
    · rw [if_pos hw, nobodyCrashed_resume h]
      cases answer with
      | failed => exact ⟨fun hfew _ hfailing => not_le.1 fun hmany => hfew ⟨rfl, hfailing, hmany⟩,
          fun hfew hmany => not_le.2 (hfew hw hmany.2.1) hmany.2.2⟩
      | done => exact iff_of_true (fun hmany => Answer.noConfusion hmany.1) trivial
      | woken => exact iff_of_true (fun hmany => Answer.noConfusion hmany.1) trivial
      | timeout => exact iff_of_true (fun hmany => Answer.noConfusion hmany.1) trivial
    · rw [if_neg hw]
      refine iff_of_true h ?_
      cases answer with
      | failed => exact fun hcount => absurd hcount hw
      | done => trivial
      | woken => trivial
      | timeout => trivial

lemma nobodyCrashed_iff_along (settings : Settings) (es : List Event) :
    Always (step settings) NobodyCrashed init es ↔ Along (step settings) FewFailures init es :=
  @always_iff_along _ _ _ NobodyCrashed (fun _ => True) FewFailures init es trivial (fun _ => rfl)
    (fun _ _ _ => trivial) fun _ e _ h => nobodyCrashed_step h e

/-! ### A host that stays down -/

/-- The worker is in the factory, or waits before it, behind so many failures. -/
structure Trying (phase : Phase) (w failures : ℕ) (σ : Scheduler) : Prop where
  born : w < σ.count
  phase : (σ.worker w).phase = phase
  uncancelled : (σ.worker w).cancelled = none
  executor : (σ.worker w).executor = false
  observed : (σ.worker w).observed_demand = some σ.demand_revision
  failures : (σ.worker w).consecutive_failures = failures

@[simp] lemma setWorker_setWorker (σ : Scheduler) (w : ℕ) (a b : Worker) :
    (σ.setWorker w a).setWorker w b = σ.setWorker w b := by
  unfold setWorker
  rw [Function.update_idem]

/-- A factory that fails leads to the timed wait. -/
lemma factoryFailed_eq {jitter delay : ℚ} (hobserved : (σ.worker w).observed_demand = some σ.demand_revision)
    (hdelay : backoffDelay settings ((σ.worker w).consecutive_failures + 1) jitter = some delay) :
    σ.factoryFailed settings w now jitter = σ.setWorker w
      { idle now { σ.worker w with
          consecutive_failures := (σ.worker w).consecutive_failures + 1
          next_due := fun _ => now + delay } with wakeup := false, phase := .waiting } := by
  unfold factoryFailed
  dsimp only
  rw [hdelay]
  dsimp only
  unfold endRound
  simp only [worker_setWorker_self, setWorker_setWorker]
  rw [if_neg fun hstale => hstale hobserved]

/-- Where the processes of the fleet are due, a worker without executor begins with the factory. -/
lemma iterate_eq (hexecutor : (σ.worker w).executor = false) (hdue : (σ.worker w).next_due .fleetprocs ≤ now) :
    σ.iterate settings w now = σ.setWorker w { σ.beginRound settings w now with phase := .factory } := by
  have hmem : Group.fleetprocs ∈ (σ.beginRound settings w now).round.due := by
    refine List.mem_filter.2 ⟨List.mem_cons_self .., Bool.and_eq_true_iff.2 ⟨rfl, decide_eq_true ?_⟩⟩
    dsimp only
    rw [if_neg fun hstale => ?_]
    · exact hdue
    · cases hstale.2 with
      | inl h => cases h
      | inr h => cases h.2 with
        | inl h => cases h
        | inr h => cases h
  unfold iterate
  dsimp only
  rw [if_neg (List.ne_nil_of_mem hmem)]
  show σ.setWorker w { σ.beginRound settings w now with
    phase := if (σ.worker w).executor then .collecting else .factory } = _
  rw [hexecutor]
  rfl

lemma resume_factory_failed (jitter : ℚ) (hphase : (σ.worker w).phase = .factory)
    (huncancelled : (σ.worker w).cancelled = none) :
    σ.resume settings w now .failed jitter = σ.factoryFailed settings w now jitter := by
  unfold resume
  dsimp only
  rw [hphase, huncancelled]

lemma resume_timeout (jitter : ℚ) (hphase : (σ.worker w).phase = .waiting)
    (huncancelled : (σ.worker w).cancelled = none) :
    σ.resume settings w now .timeout jitter = σ.iterate settings w now := by
  unfold resume
  dsimp only
  rw [hphase, huncancelled]

/-- A factory that fails again leads to the timed wait. -/
lemma trying_failed {failures : ℕ} {delay : ℚ} (h : Trying .factory w failures σ)
    (hdelay : backoffDelay settings (failures + 1) 0 = some delay) :
    Trying .waiting w (failures + 1) (σ.step settings (.run w .failed 0 0)) ∧
      ((σ.step settings (.run w .failed 0 0)).worker w).next_due .fleetprocs = 0 + delay := by
  have hcount : backoffDelay settings ((σ.worker w).consecutive_failures + 1) 0 = some delay := by
    rw [h.failures]
    exact hdelay
  rw [step_run _ _ h.born, resume_factory_failed 0 h.phase h.uncancelled, factoryFailed_eq h.observed hcount]
  refine ⟨⟨h.born, ?_, ?_, ?_, ?_, ?_⟩, ?_⟩
  all_goals rw [worker_setWorker_self]
  · exact h.uncancelled
  · exact h.executor
  · exact h.observed
  · exact congrArg (· + 1) h.failures
  · rfl

variable (settings) in
/-- The timed wait leads to the factory. -/
lemma trying_timeout {failures : ℕ} (h : Trying .waiting w failures σ)
    (hdue : (σ.worker w).next_due .fleetprocs ≤ now) :
    Trying .factory w failures (σ.step settings (.run w .timeout now 0)) := by
  rw [step_run _ _ h.born, resume_timeout 0 h.phase h.uncancelled, iterate_eq h.executor hdue]
  refine ⟨h.born, ?_, ?_, ?_, ?_, ?_⟩
  all_goals rw [worker_setWorker_self]
  · exact h.uncancelled
  · exact h.executor
  · rfl
  · exact h.failures

variable (settings) in
/-- The factory can fail 1024 times in a row. -/
lemma trying_of_le (h : Trying .factory w 0 σ) {failures : ℕ} (hfew : failures ≤ 1024) :
    ∃ es, Trying .factory w failures (after (step settings) σ es) := by
  induction failures with
  | zero => exact ⟨[], h⟩
  | succ failures ih =>
    obtain ⟨es, hes⟩ := ih (Nat.le_of_succ_le hfew)
    obtain ⟨delay, hdelay⟩ : ∃ delay, backoffDelay settings (failures + 1) 0 = some delay :=
      Option.ne_none_iff_exists'.1 fun hnone => not_lt.2 hfew (backoffDelay_eq_none.1 hnone)
    obtain ⟨hwaiting, hdue⟩ := trying_failed hes hdelay
    have hpast : 0 + delay ≤ delay.toNNRat := (zero_add delay).trans_le (Rat.le_coe_toNNRat delay)
    have hnext := trying_timeout settings hwaiting (hdue.trans_le hpast)
    refine ⟨es ++ [.run w .failed 0 0, .run w .timeout delay.toNNRat 0], ?_⟩
    rw [after_append]
    exact hnext

variable (settings) in
/-- And then once more, which ends the worker. -/
lemma exists_crash (h : Trying .factory w 0 σ) : ∃ es, ¬Always (step settings) NobodyCrashed σ es := by
  obtain ⟨es, hes⟩ := trying_of_le settings h (le_refl 1024)
  refine ⟨es ++ [.run w .failed 0 0], fun halways => ?_⟩
  have hlast := halways.last w
  rw [after_append, after_cons, after_nil, step_run _ _ hes.born] at hlast
  refine Bool.eq_false_iff.1 hlast ((crashed_resume .failed 0).2 (.inr ⟨rfl, ⟨hes.uncancelled, .inl hes.phase⟩, ?_⟩))
  exact hes.failures.ge

end Scheduler

/-! ### Reports -/

/-- A connection that is not open, whose factory fails. -/
lemma connect_failed (connection : Connection) (hclosed : connection.is_open = false) (force retryable : Bool)
    (now failed_at random : ℚ) :
    (connect settings connection force now (.failed retryable) failed_at random).1 = .connectError ↔
      (force = false ∧ now < connection.next_attempt_at) ∨ retryable = false ∨ connection.attempts < 1024 := by
  unfold connect
  rw [if_neg (ne_true_of_eq_false hclosed)]
  split
  · rename_i hwaits
    rw [Bool.and_eq_true, Bool.not_eq_true', decide_eq_true_iff] at hwaits
    exact iff_of_true rfl (.inl hwaits)
  · rename_i hwaits
    rw [Bool.and_eq_true, Bool.not_eq_true', decide_eq_true_iff] at hwaits
    rw [or_iff_right hwaits]
    cases retryable with
    | false => exact iff_of_true rfl (.inl rfl)
    | true =>
      rw [or_iff_right (fun h => Bool.false_ne_true h.symm)]
      show (recordFailure settings connection true failed_at random).1 = _ ↔ _
      unfold recordFailure
      rw [if_pos rfl]
      dsimp only
      split
      · rename_i hdelay
        refine iff_of_true rfl (not_le.1 fun hmany => ?_)
        rw [connectionDelay_eq_none.2 (Nat.lt_succ_of_le hmany)] at hdelay
        cases hdelay
      · rename_i hdelay
        refine iff_of_false Reported.noConfusion (not_lt.2 ?_)
        exact Nat.le_of_lt_succ (connectionDelay_eq_none.1 hdelay)

/-- **Both backoffs live through 1024 failures in a row.** -/
theorem backoff_survives_iff (hmin : 0 < settings.reconnect_backoff_min_s)
    (hle : settings.reconnect_backoff_min_s ≤ settings.reconnect_backoff_max_s) :
    (∀ n, DelaysFit settings n ↔ n ≤ 1024) ∧
      (∀ connection : Connection, connection.is_open = false → ∀ force retryable now failed_at random,
        (connect settings connection force now (.failed retryable) failed_at random).1 = .connectError ↔
          (force = false ∧ now < connection.next_attempt_at) ∨ retryable = false ∨ connection.attempts < 1024) ∧
      ∀ es, Always (Scheduler.step settings) Scheduler.NobodyCrashed Scheduler.init es ↔
        Along (Scheduler.step settings) Scheduler.FewFailures Scheduler.init es :=
  ⟨delays_fit_iff hmin hle, connect_failed, Scheduler.nobodyCrashed_iff_along settings⟩

/-- The settings that the code comes with. -/
theorem backoff_survives_default :
    (0 < ({} : Settings).reconnect_backoff_min_s ∧
      ({} : Settings).reconnect_backoff_min_s ≤ ({} : Settings).reconnect_backoff_max_s) ∧
    ((∀ n, DelaysFit {} n ↔ n ≤ 1024) ∧
      (∀ connection : Connection, connection.is_open = false → ∀ force retryable now failed_at random,
        (connect {} connection force now (.failed retryable) failed_at random).1 = .connectError ↔
          (force = false ∧ now < connection.next_attempt_at) ∨ retryable = false ∨ connection.attempts < 1024) ∧
      ∀ es, Always (Scheduler.step {}) Scheduler.NobodyCrashed Scheduler.init es ↔
        Along (Scheduler.step {}) Scheduler.FewFailures Scheduler.init es) :=
  have hmin : 0 < ({} : Settings).reconnect_backoff_min_s := by decide +kernel
  have hle : ({} : Settings).reconnect_backoff_min_s ≤ ({} : Settings).reconnect_backoff_max_s := by decide +kernel
  ⟨⟨hmin, hle⟩, backoff_survives_iff hmin hle⟩

/-- A server that goes down is enabled, and its worker starts. -/
def goingDown : List Event :=
  [.reconcile [{ server_id := "gpu".toList, display_name := "gpu".toList, ssh_host := "gpu".toList }], .run 0 .done 0 0]

/-- The 1025th failure in a row: there is no delay, `connect` raises `OverflowError`, and a run ends a worker. -/
theorem backoff_survives_not :
    ¬DelaysFit {} 1025 ∧ (connect {} { attempts := 1024 } true 0 (.failed true) 0 0).1 = .overflowError ∧
      ∃ es, ¬Always (Scheduler.step {}) Scheduler.NobodyCrashed Scheduler.init (goingDown ++ es) := by
  have hgoing : Scheduler.Trying .factory 0 0 (after (Scheduler.step {}) .init goingDown) :=
    ⟨by decide +kernel, by decide +kernel, by decide +kernel, by decide +kernel, by decide +kernel, by decide +kernel⟩
  obtain ⟨es, hes⟩ := Scheduler.exists_crash {} hgoing
  refine ⟨?_, by decide +kernel, es, fun halways => hes (always_iff.2 fun pre hpre => ?_)⟩
  · rw [delays_fit_iff (by decide +kernel) (by decide +kernel)]
    omega
  · rw [← after_append]
    exact always_iff.1 halways _ ((List.prefix_append_right_inj _).2 hpre)

end SshGpuConsole.Scheduling
