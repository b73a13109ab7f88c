import SshGpuConsole.Telemetry.Scheduler

/-!
# One step of a worker

All that a worker can do when it is resumed (`Resumed`): it begins an iteration, parks, goes on with its batch, or ends.
-/

namespace SshGpuConsole.Scheduling.Scheduler
open Shell (Text)

variable {settings : Settings} {σ σ' : Scheduler} {w : ℕ} {now : ℚ≥0}

/-- The worker ran as far as the end of an iteration, or the begin of its first one. -/
structure Within (w : ℕ) (σ base : Scheduler) : Prop extends Ran w σ base where
  closes : base.closes = σ.closes
  executor : (base.worker w).executor = (σ.worker w).executor
  observed : (base.worker w).observed_demand = (σ.worker w).observed_demand
  iterations : (base.worker w).iterations = (σ.worker w).iterations
  wakeups : base.wakeups = if (σ.worker w).phase = .start then σ.wakeups.set (σ.server w) w else σ.wakeups

/-- The worker is in an await of its loop. -/
def InLoop (σ : Scheduler) (w : ℕ) : Prop :=
  (σ.worker w).phase = .factory ∨ (σ.worker w).phase = .collecting ∨ (σ.worker w).phase = .waiting

/-- What a worker does. -/
inductive Resumed (settings : Settings) (w : ℕ) (now : ℚ≥0) (σ : Scheduler) : Scheduler → Prop
  | same : Resumed settings w now σ σ
  /-- It was cancelled before it ran. -/
  | unborn (hphase : (σ.worker w).phase = .start) (hcancelled : (σ.worker w).cancelled ≠ none) :
    Resumed settings w now σ (σ.setWorker w { σ.worker w with phase := .done })
  /-- It begins an iteration. -/
  | began {base : Scheduler} (huncancelled : (σ.worker w).cancelled = none)
    (hphase : (σ.worker w).phase = .start ∨ σ.InLoop w) (hbase : Within w σ base) :
    Resumed settings w now σ (base.iterate settings w now)
  /-- It ends an iteration, and waits. -/
  | parked {base : Scheduler} (huncancelled : (σ.worker w).cancelled = none)
    (hphase : (σ.worker w).phase = .factory ∨ (σ.worker w).phase = .collecting) (hbase : Within w σ base)
    (hobserved : (σ.worker w).observed_demand = some σ.demand_revision) :
    Resumed settings w now σ (base.setWorker w { base.worker w with wakeup := false, phase := .waiting })
  /-- It has its executor. -/
  | connected (huncancelled : (σ.worker w).cancelled = none) (hphase : (σ.worker w).phase = .factory) :
    Resumed settings w now σ (σ.setWorker w { σ.worker w with executor := true, phase := .collecting })
  /-- It is cancelled, or crashes. -/
  | finished {base : Scheduler} {crashed : Bool} (hphase : σ.InLoop w) (hbase : Within w σ base) :
    Resumed settings w now σ (base.finish w crashed)
  | closed (hphase : (σ.worker w).phase = .closing) :
    Resumed settings w now σ (σ.setWorker w { σ.worker w with phase := .done })

lemma Within.setWorker {base : Scheduler} {new : Worker} (h : Within w σ base)
    (hrecord : new.record = (base.worker w).record) (hcancelled : new.cancelled = (base.worker w).cancelled)
    (hexecutor : new.executor = (base.worker w).executor)
    (hobserved : new.observed_demand = (base.worker w).observed_demand)
    (hiterations : new.iterations = (base.worker w).iterations) : Within w σ (base.setWorker w new) where
  toRan := h.toRan.trans (ran_setWorker hrecord hcancelled)
  closes := h.closes
  executor := by rw [worker_setWorker_self, hexecutor, h.executor]
  observed := by rw [worker_setWorker_self, hobserved, h.observed]
  iterations := by rw [worker_setWorker_self, hiterations, h.iterations]
  wakeups := h.wakeups

lemma InLoop.not_start (h : σ.InLoop w) : (σ.worker w).phase ≠ .start := by
  obtain h | h | h := h
  all_goals
    rw [h]
    exact Phase.noConfusion

lemma within_refl (h : σ.InLoop w) : Within w σ σ :=
  ⟨.refl w σ, rfl, rfl, rfl, rfl, (if_neg h.not_start).symm⟩

/-- The end of an iteration. -/
lemma resumed_endRound {base : Scheduler} (huncancelled : (σ.worker w).cancelled = none)
    (hphase : (σ.worker w).phase = .factory ∨ (σ.worker w).phase = .collecting) (hbase : Within w σ base) :
    Resumed settings w now σ (base.endRound settings w now) := by
  have hclear : Within w σ (base.setWorker w { base.worker w with wakeup := false }) :=
    hbase.setWorker rfl rfl rfl rfl rfl
  unfold endRound
  dsimp only
  split
  · exact .began huncancelled (.inr (hphase.elim .inl fun h => .inr (.inl h))) hclear
  · rename_i hobserved
    rw [not_not, hclear.observed] at hobserved
    have hparked : Resumed settings w now σ _ :=
      .parked huncancelled hphase hclear (hobserved.trans (congrArg some hclear.revision))
    rw [worker_setWorker_self] at hparked ⊢
    exact hparked

lemma resumed_factoryFailed (jitter : ℚ) (huncancelled : (σ.worker w).cancelled = none)
    (hphase : (σ.worker w).phase = .factory) : Resumed settings w now σ (σ.factoryFailed settings w now jitter) := by
  have hloop : σ.InLoop w := .inl hphase
  have hcount : Within w σ (σ.setWorker w { σ.worker w with
      consecutive_failures := (σ.worker w).consecutive_failures + 1 }) :=
    (within_refl hloop).setWorker rfl rfl rfl rfl rfl
  unfold factoryFailed
  dsimp only
  split
  · exact .finished hloop hcount
  · exact resumed_endRound huncancelled (.inl hphase) (hcount.setWorker rfl rfl rfl rfl rfl)

lemma resumed_collected (failed : Bool) (jitter : ℚ) (huncancelled : (σ.worker w).cancelled = none)
    (hphase : (σ.worker w).phase = .collecting) :
    Resumed settings w now σ (σ.collected settings w now failed jitter) := by
  have hloop : σ.InLoop w := .inr (.inl hphase)
  have hcount : Within w σ (σ.setWorker w { σ.worker w with
      consecutive_failures := (σ.worker w).consecutive_failures + 1 }) :=
    (within_refl hloop).setWorker rfl rfl rfl rfl rfl
  unfold collected
  split
  · dsimp only
    split
    · exact .finished hloop hcount
    · exact resumed_endRound huncancelled (.inr hphase) (hcount.setWorker rfl rfl rfl rfl rfl)
  · exact resumed_endRound huncancelled (.inr hphase) ((within_refl hloop).setWorker rfl rfl rfl rfl rfl)

/-- A step of a worker is one of these. -/
lemma resumed (answer : Answer) (jitter : ℚ) : Resumed settings w now σ (σ.resume settings w now answer jitter) := by
  unfold resume
  dsimp only
  split
  · rename_i hphase hcancelled
    exact .unborn hphase fun hnone => Option.some_ne_none _ (hcancelled.symm.trans hnone)
  · rename_i hphase huncancelled
    refine .began huncancelled (.inl hphase) ⟨ran_wakeups w σ _, rfl, rfl, rfl, rfl, ?_⟩
    exact (if_pos hphase).symm
  · rename_i hphase _
    exact .finished (.inl hphase) (within_refl (.inl hphase))
  · rename_i hphase _
    exact .finished (.inr (.inl hphase)) (within_refl (.inr (.inl hphase)))
  · rename_i hphase _
    exact .finished (.inr (.inr hphase)) (within_refl (.inr (.inr hphase)))
  · rename_i hphase huncancelled
    exact .connected huncancelled hphase
  · rename_i hphase huncancelled
    exact resumed_factoryFailed jitter huncancelled hphase
  · rename_i hphase huncancelled
    exact resumed_collected false jitter huncancelled hphase
  · rename_i hphase huncancelled
    exact resumed_collected true jitter huncancelled hphase
  · rename_i hphase huncancelled
    split
    · exact .began huncancelled (.inr (.inr (.inr hphase))) (within_refl (.inr (.inr hphase)))
    · exact .same
  · rename_i hphase huncancelled
    exact .began huncancelled (.inr (.inr (.inr hphase))) (within_refl (.inr (.inr hphase)))
  · rename_i hphase
    exact .closed hphase
  · exact .same

/-! ### An iteration and the end -/

@[simp] lemma closes_iterate (σ : Scheduler) : (σ.iterate settings w now).closes = σ.closes := by
  unfold iterate
  dsimp only
  split <;> rfl

@[simp] lemma wakeups_iterate (σ : Scheduler) : (σ.iterate settings w now).wakeups = σ.wakeups := by
  unfold iterate
  dsimp only
  split <;> rfl

/-- An iteration leads to an await of the loop, with the demand looked at. -/
lemma worker_iterate (settings : Settings) (σ : Scheduler) (w : ℕ) (now : ℚ≥0) : (σ.iterate settings w now).InLoop w ∧
    ((σ.iterate settings w now).worker w).observed_demand = some σ.demand_revision ∧
    ((σ.iterate settings w now).worker w).executor = (σ.worker w).executor ∧
    ((σ.iterate settings w now).worker w).iterations = (σ.worker w).iterations + 1 := by
  unfold iterate InLoop
  dsimp only
  split
  · rw [worker_setWorker_self]
    exact ⟨.inr (.inr rfl), rfl, rfl, rfl⟩
  · rw [worker_setWorker_self]
    refine ⟨?_, rfl, rfl, rfl⟩
    dsimp only
    split
    · exact .inr (.inl rfl)
    · exact .inl rfl

lemma worker_forget (σ : Scheduler) (w k : ℕ) : (σ.forget w).worker k = σ.worker k := by
  unfold forget
  split <;> rfl

/-- A worker that ends closes its executor. -/
lemma closes_finish (σ : Scheduler) (crashed : Bool) : (σ.finish w crashed).closes =
    if (σ.worker w).executor then σ.closes ++ [(w, (σ.worker w).cancelled)] else σ.closes := by
  have hforget : (σ.forget w).closes = σ.closes := by
    unfold forget
    split <;> rfl
  unfold finish
  dsimp only
  rw [worker_forget]
  split
  · show (σ.forget w).closes ++ [(w, ((σ.forget w).worker w).cancelled)] = _
    rw [hforget, worker_forget]
  · exact hforget

lemma worker_finish (σ : Scheduler) (crashed : Bool) :
    ∃ phase, (phase = .closing ∨ phase = .done) ∧
      (σ.finish w crashed).worker w = { σ.worker w with phase, crashed } := by
  unfold finish
  dsimp only
  split
  · rw [worker_close_self, worker_forget]
    exact ⟨.closing, .inl rfl, rfl⟩
  · rw [worker_setWorker_self, worker_forget]
    exact ⟨.done, .inr rfl, rfl⟩

lemma phase_finish (σ : Scheduler) (crashed : Bool) :
    ((σ.finish w crashed).worker w).phase = .closing ∨ ((σ.finish w crashed).worker w).phase = .done := by
  obtain ⟨phase, hphase, hworker⟩ := worker_finish (w := w) σ crashed
  rw [hworker]
  exact hphase

/-- Nobody takes the event of another worker out of the table. -/
lemma wakeups_finish (σ : Scheduler) (crashed : Bool) {k : ℕ} (hk : k ≠ w) (server_id : Text)
    (hget : σ.wakeups.get server_id = some k) : (σ.finish w crashed).wakeups.get server_id = some k := by
  have hforget : (σ.forget w).wakeups.get server_id = some k := by
    unfold forget
    split
    · rename_i hown
      refine (Dict.get_pop_of_ne _ fun e => ?_).trans hget
      rw [e, hown] at hget
      exact hk (Option.some.inj hget).symm
    · exact hget
  unfold finish
  dsimp only
  split <;> exact hforget

end SshGpuConsole.Scheduling.Scheduler
