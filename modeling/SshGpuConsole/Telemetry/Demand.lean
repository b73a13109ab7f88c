import SshGpuConsole.Telemetry.Resumption
import SshGpuConsole.Telemetry.Workers

/-!
# The demand reaches the workers

`set_demand` counts a revision and sets the events of all workers. No worker waits with its event unset for a demand
that it did not look at, and the iteration that a worker begins behind a change has the groups due that the change asks
for, as long as it still does (`demand_is_seen`).
-/

namespace SshGpuConsole.Scheduling
open Shell (Text)
open Machine

namespace Scheduler
variable {settings : Settings} {σ σ' : Scheduler} {w k : ℕ} {now : ℚ≥0}

/-- The worker did not look at the demand as it is. -/
def Stale (σ : Scheduler) (w : ℕ) : Prop := (σ.worker w).observed_demand ≠ some σ.demand_revision

/-- No worker that lives waits with its event unset for a demand that it did not look at. -/
def NoLostWakeup (σ : Scheduler) : Prop := ∀ w, w < σ.count → (σ.worker w).cancelled = none →
  (σ.worker w).phase = .waiting → (σ.worker w).wakeup = false → ¬σ.Stale w

/-- What holds of the events and the revisions in every run. -/
structure Attentive (σ : Scheduler) : Prop where
  consistent : σ.Consistent
  /-- The event of a worker is where `set_demand` looks for it. -/
  registered : ∀ w, w < σ.count → (σ.worker w).cancelled = none → σ.InLoop w → σ.wakeups.get (σ.server w) = some w
  parked : σ.NoLostWakeup
  /-- No worker saw a demand to come. -/
  observed : ∀ w revision, w < σ.count → (σ.worker w).observed_demand = some revision → revision ≤ σ.demand_revision
  /-- A worker that began no iteration saw nothing, and waits for nothing. -/
  unborn : ∀ w, w < σ.count → (σ.worker w).iterations = 0 → (σ.worker w).observed_demand = none ∧ ¬σ.InLoop w

/-! ### The due groups -/

/-- What a worker finds due that did not look at the demand. -/
lemma due_of_stale (hstale : σ.Stale w) : .fast ∈ (σ.beginRound settings w now).round.due ∧
    (σ.interactive settings now = true → σ.detail_servers.contains (σ.server w) = true →
      .medium ∈ (σ.beginRound settings w now).round.due ∧ .process ∈ (σ.beginRound settings w now).round.due) := by
  have hdue : ∀ group, enabled group (σ.detail_servers.contains (σ.server w)) (σ.interactive settings now) = true →
      (group = .fast ∨ (σ.interactive settings now && σ.detail_servers.contains (σ.server w)) = true ∧
        (group = .medium ∨ group = .process)) →
      group ∈ groups → group ∈ (σ.beginRound settings w now).round.due := by
    intro group henabled hasked hgroup
    refine List.mem_filter.2 ⟨hgroup, Bool.and_eq_true_iff.2 ⟨henabled, decide_eq_true ?_⟩⟩
    dsimp only
    rw [if_pos ⟨hstale, hasked⟩]
    exact now.2
  refine ⟨hdue .fast rfl (.inl rfl) (by decide), fun hinteractive hdetail => ?_⟩
  have hboth : (σ.detail_servers.contains (σ.server w) && σ.interactive settings now) = true :=
    Bool.and_eq_true_iff.2 ⟨hdetail, hinteractive⟩
  have hboth' : (σ.interactive settings now && σ.detail_servers.contains (σ.server w)) = true :=
    Bool.and_eq_true_iff.2 ⟨hinteractive, hdetail⟩
  exact ⟨hdue .medium hboth (.inr ⟨hboth', .inl rfl⟩) (by decide),
    hdue .process hboth (.inr ⟨hboth', .inr rfl⟩) (by decide)⟩

/-- An iteration that something is due in does not wait first. -/
lemma iterate_of_stale (hstale : σ.Stale w) :
    ((σ.iterate settings w now).worker w).round = (σ.beginRound settings w now).round ∧
      ((σ.iterate settings w now).worker w).phase ≠ .waiting := by
  unfold iterate
  dsimp only
  rw [if_neg (List.ne_nil_of_mem (due_of_stale hstale).1), worker_setWorker_self]
  refine ⟨rfl, ?_⟩
  dsimp only
  split <;> exact Phase.noConfusion

/-! ### The events -/

/-- What `Attentive` says of one worker. -/
structure Attends (σ : Scheduler) (w : ℕ) : Prop where
  registered : (σ.worker w).cancelled = none → σ.InLoop w → σ.wakeups.get (σ.server w) = some w
  parked : (σ.worker w).cancelled = none → (σ.worker w).phase = .waiting → (σ.worker w).wakeup = false → ¬σ.Stale w
  observed : ∀ revision, (σ.worker w).observed_demand = some revision → revision ≤ σ.demand_revision
  unborn : (σ.worker w).iterations = 0 → (σ.worker w).observed_demand = none ∧ ¬σ.InLoop w

lemma Attentive.attends (h : σ.Attentive) (hw : w < σ.count) : σ.Attends w where
  registered := h.registered w hw
  parked := h.parked w hw
  observed revision := h.observed w revision hw
  unborn := h.unborn w hw

lemma attentive_of_attends (hconsistent : σ.Consistent) (h : ∀ w, w < σ.count → σ.Attends w) : σ.Attentive where
  consistent := hconsistent
  registered w hw := (h w hw).registered
  parked w hw := (h w hw).parked
  observed w revision hw := (h w hw).observed revision
  unborn w hw := (h w hw).unborn

lemma not_inLoop {phase : Phase} (hphase : (σ.worker w).phase = phase)
    (hout : phase = .start ∨ phase = .closing ∨ phase = .done) : ¬σ.InLoop w := by
  intro hloop
  obtain h | h | h := hloop
  all_goals
    rw [hphase] at h
    obtain e | e | e := hout
    all_goals
      rw [e] at h
      cases h

/-- A worker that ended attends to nothing. -/
lemma Attends.of_ended (h : σ.Attends w) (hended : (σ'.worker w).phase = .closing ∨ (σ'.worker w).phase = .done)
    (hobserved : (σ'.worker w).observed_demand = (σ.worker w).observed_demand)
    (hiterations : (σ'.worker w).iterations = (σ.worker w).iterations)
    (hrevision : σ'.demand_revision = σ.demand_revision) : σ'.Attends w := by
  have hout : ¬σ'.InLoop w := not_inLoop rfl (.inr hended)
  constructor
  · exact fun _ hloop => absurd hloop hout
  · exact fun _ hwaiting => absurd (.inr (.inr hwaiting)) hout
  · intro revision hseen
    rw [hrevision]
    exact h.observed revision (hobserved ▸ hseen)
  · intro hnone
    rw [hobserved]
    exact ⟨(h.unborn (hiterations ▸ hnone)).1, hout⟩

/-- The worker that ran attends. -/
lemma Attends.resumed (h : σ.Attends w) (hresumed : Resumed settings w now σ σ') : σ'.Attends w := by
  cases hresumed with
  | same => exact h
  | unborn =>
    refine h.of_ended ?_ ?_ ?_ rfl
    all_goals rw [worker_setWorker_self]
    exact .inr rfl
  | @began base huncancelled hphase hbase =>
    have hran : Ran w base (base.iterate settings w now) := ran_iterate
    obtain ⟨hloop, hobserved, -, hiterations⟩ := worker_iterate settings base w now
    constructor
    · intro _ _
      have hserver : (base.iterate settings w now).server w = σ.server w :=
        congrArg (·.server_id) (hran.record.trans hbase.record)
      rw [wakeups_iterate, hserver, hbase.wakeups]
      split
      · exact Dict.get_set_self ..
      · rename_i hstart
        exact h.registered huncancelled (hphase.resolve_left hstart)
    · intro _ _ _ hstale
      refine hstale ?_
      rw [hobserved, hran.revision]
    · intro revision hseen
      rw [hobserved] at hseen
      rw [hran.revision]
      exact (Option.some.inj hseen).ge
    · intro hnone
      rw [hiterations] at hnone
      exact absurd hnone (Nat.succ_ne_zero _)
  | @parked base huncancelled hphase hbase hobserved =>
    have hloop : σ.InLoop w := hphase.elim .inl fun hcollecting => .inr (.inl hcollecting)
    have hseen : ((base.setWorker w { base.worker w with wakeup := false, phase := .waiting }).worker w).observed_demand =
        some σ.demand_revision := by
      rw [worker_setWorker_self]
      exact hbase.observed.trans hobserved
    constructor
    · intro _ _
      have hserver : (base.setWorker w { base.worker w with wakeup := false, phase := .waiting }).server w = σ.server w := by
        unfold server
        rw [worker_setWorker_self]
        exact congrArg (·.server_id) hbase.record
      rw [hserver]
      show base.wakeups.get (σ.server w) = some w
      rw [hbase.wakeups, if_neg hloop.not_start]
      exact h.registered huncancelled hloop
    · intro _ _ _ hstale
      exact hstale (hseen.trans (congrArg some hbase.revision.symm))
    · intro revision hrevision
      rw [hseen] at hrevision
      exact (Option.some.inj hrevision).ge.trans hbase.revision.ge
    · intro hnone
      rw [worker_setWorker_self] at hnone
      exact absurd hloop (h.unborn (hbase.iterations.symm.trans hnone)).2
  | connected huncancelled hphase =>
    have hloop : σ.InLoop w := .inl hphase
    have hworker := worker_setWorker_self σ w { σ.worker w with executor := true, phase := .collecting }
    constructor
    · intro _ _
      have hserver : (σ.setWorker w { σ.worker w with executor := true, phase := .collecting }).server w = σ.server w := by
        unfold server
        rw [hworker]
      rw [hserver]
      exact h.registered huncancelled hloop
    · intro _ hwaiting
      rw [hworker] at hwaiting
      cases hwaiting
    · intro revision hseen
      rw [hworker] at hseen
      exact h.observed revision hseen
    · intro hnone
      rw [hworker] at hnone
      exact absurd hloop (h.unborn hnone).2
  | @finished base crashed hphase hbase =>
    obtain ⟨phase, hended, hworker⟩ := worker_finish (w := w) base crashed
    have hran : Ran w base (base.finish w crashed) := ran_finish crashed
    refine h.of_ended ?_ ?_ ?_ (hran.revision.trans hbase.revision)
    all_goals rw [hworker]
    · exact hended
    · exact hbase.observed
    · exact hbase.iterations
  | closed =>
    refine h.of_ended ?_ ?_ ?_ rfl
    all_goals rw [worker_setWorker_self]
    exact .inr rfl

/-- Where its event stays, a worker that others run beside attends. -/
lemma Attends.beside (h : σ.Attends k) (hworker : σ'.worker k = σ.worker k)
    (hrevision : σ'.demand_revision = σ.demand_revision)
    (hwakeups : (σ.worker k).cancelled = none → σ.InLoop k → σ.wakeups.get (σ.server k) = some k →
      σ'.wakeups.get (σ.server k) = some k) : σ'.Attends k := by
  have hserver : σ'.server k = σ.server k := congrArg (·.record.server_id) hworker
  have hloop : σ'.InLoop k ↔ σ.InLoop k := by
    unfold InLoop
    rw [hworker]
  have hstale : σ'.Stale k ↔ σ.Stale k := by
    unfold Stale
    rw [hworker, hrevision]
  constructor
  · intro huncancelled hin
    rw [hserver]
    rw [hworker] at huncancelled
    exact hwakeups huncancelled (hloop.1 hin) (h.registered huncancelled (hloop.1 hin))
  · rw [hworker, hstale]
    exact h.parked
  · rw [hworker, hrevision]
    exact h.observed
  · rw [hworker, hloop]
    exact h.unborn

/-- The events of the others stay in the table: two workers of a server that live are one. -/
lemma wakeups_resumed (h : σ.Tables) (hresumed : Resumed settings w now σ σ') (hw : w < σ.count) (hk : k < σ.count)
    (hne : k ≠ w) (huncancelled : (σ.worker k).cancelled = none) (hloop : σ.InLoop k)
    (hget : σ.wakeups.get (σ.server k) = some k) : σ'.wakeups.get (σ.server k) = some k := by
  have hbase : ∀ base : Scheduler, Within w σ base → ((σ.worker w).phase = .start → (σ.worker w).cancelled = none) →
      base.wakeups.get (σ.server k) = some k := by
    intro base hbase hstarts
    rw [hbase.wakeups]
    split
    · rename_i hstart
      refine (Dict.get_set_of_ne (fun hserver => hne ?_) _ _).trans hget
      have hone := h.here k hk huncancelled fun hdone => not_inLoop hdone (.inr (.inr rfl)) hloop
      have htwo := h.here w hw (hstarts hstart) fun hdone => Phase.noConfusion (hstart.symm.trans hdone)
      rw [hserver, htwo] at hone
      exact (Option.some.inj hone).symm
    · exact hget
  cases hresumed with
  | same => exact hget
  | unborn => exact hget
  | began hlive _ hwithin => exact (congrArg (Dict.get · _) (wakeups_iterate _)).trans (hbase _ hwithin fun _ => hlive)
  | @parked base hlive _ hwithin =>
    have hsame := hbase base hwithin fun _ => hlive
    exact hsame
  | connected => exact hget
  | finished hphase hwithin =>
    exact wakeups_finish _ _ hne _ (hbase _ hwithin fun hstart => absurd hstart hphase.not_start)
  | closed => exact hget

lemma Attentive.resume (h : σ.Attentive) (hw : w < σ.count) (answer : Answer) (jitter : ℚ) :
    (σ.resume settings w now answer jitter).Attentive := by
  have hran : Ran w σ (σ.resume settings w now answer jitter) := ran_resume answer jitter
  have hresumed : Resumed settings w now σ (σ.resume settings w now answer jitter) := resumed answer jitter
  have hconsistent : (σ.step settings (.run w answer now jitter)).Consistent := h.consistent.step _
  rw [step_run _ _ hw] at hconsistent
  refine attentive_of_attends hconsistent fun k hk => ?_
  rw [hran.count] at hk
  by_cases hkw : k = w
  · subst hkw
    exact (h.attends hk).resumed hresumed
  · exact (h.attends hk).beside (hran.others k hkw) hran.revision
      (wakeups_resumed h.consistent.1 hresumed hw hk hkw)

lemma Attentive.reconcile (h : σ.Attentive) (records : List Record) :
    (σ.reconcile (σ.cause records) records).Attentive := by
  have hleft := left_reconcile σ (σ.cause records) records
  have happlied := applied h.consistent.1 h.consistent.2 (σ.cause records) records
  have hconsistent : (σ.step {} (.reconcile records)).Consistent := h.consistent.step _
  refine attentive_of_attends hconsistent fun k hk => ?_
  by_cases hold : k < σ.count
  · have hattends := h.attends hold
    obtain hsame | ⟨cause, hcancelled⟩ := happlied.kept k hold
    · exact hattends.beside hsame hleft.revision fun _ _ hget => hleft.wakeups ▸ hget
    · have hloop : (σ.reconcile (σ.cause records) records).InLoop k ↔ σ.InLoop k := by
        unfold InLoop
        rw [hcancelled]
      constructor
      · intro hnone
        rw [hcancelled] at hnone
        cases hnone
      · intro hnone
        rw [hcancelled] at hnone
        cases hnone
      · rw [hcancelled, hleft.revision]
        exact hattends.observed
      · rw [hcancelled, hloop]
        exact hattends.unborn
  · obtain ⟨record, hfresh⟩ := happlied.fresh k (not_lt.1 hold) hk
    have hout : ¬(σ.reconcile (σ.cause records) records).InLoop k :=
      not_inLoop (congrArg Worker.phase hfresh) (.inl rfl)
    constructor
    · exact fun _ hloop => absurd hloop hout
    · exact fun _ hwaiting => absurd (.inr (.inr hwaiting)) hout
    · intro revision hseen
      rw [hfresh] at hseen
      cases hseen
    · exact fun _ => ⟨congrArg Worker.observed_demand hfresh, hout⟩

/-- What `set_demand` does to the revision and the events. -/
lemma setDemand_cases (σ : Scheduler) (now : ℚ≥0) (active_clients : ℤ) (detail_servers : List Text) :
    ((σ.setDemand now active_clients detail_servers).demand_revision = σ.demand_revision ∧
        (σ.setDemand now active_clients detail_servers).worker = σ.worker) ∨
      ((σ.setDemand now active_clients detail_servers).demand_revision = σ.demand_revision + 1 ∧
        ∀ server_id w, σ.wakeups.get server_id = some w →
          ((σ.setDemand now active_clients detail_servers).worker w).wakeup = true) := by
  unfold setDemand
  dsimp only
  split
  · refine .inr ⟨rfl, fun server_id w hget => ?_⟩
    dsimp only
    rw [if_pos (List.contains_iff_mem.2 (List.mem_map.2 ⟨_, Dict.mem_of_get hget, rfl⟩))]
  · exact .inl ⟨rfl, rfl⟩

lemma setDemand_kept (σ : Scheduler) (now : ℚ≥0) (active_clients : ℤ) (detail_servers : List Text) :
    (σ.setDemand now active_clients detail_servers).wakeups = σ.wakeups ∧
      (σ.setDemand now active_clients detail_servers).count = σ.count := by
  unfold setDemand
  dsimp only
  split <;> exact ⟨rfl, rfl⟩

lemma Attentive.setDemand (h : σ.Attentive) (active_clients : ℤ) (detail_servers : List Text) :
    (σ.setDemand now active_clients detail_servers).Attentive := by
  obtain ⟨hwakeups, hcount⟩ := setDemand_kept σ now active_clients detail_servers
  have hconsistent : (σ.step {} (.setDemand active_clients detail_servers now)).Consistent := h.consistent.step _
  refine attentive_of_attends hconsistent fun k hk => ?_
  rw [hcount] at hk
  have hattends := h.attends hk
  obtain ⟨hrevision, hworker⟩ | ⟨hrevision, hset⟩ := setDemand_cases σ now active_clients detail_servers
  · exact hattends.beside (congrFun hworker k) hrevision fun _ _ hget => hwakeups ▸ hget
  · obtain ⟨wakeup, hworker⟩ := worker_setDemand σ now active_clients detail_servers k
    have hserver : (σ.setDemand now active_clients detail_servers).server k = σ.server k :=
      congrArg (·.record.server_id) hworker
    have hloop : (σ.setDemand now active_clients detail_servers).InLoop k ↔ σ.InLoop k := by
      unfold InLoop
      rw [hworker]
    constructor
    · intro huncancelled hin
      rw [hserver, hwakeups]
      rw [hworker] at huncancelled
      exact hattends.registered huncancelled (hloop.1 hin)
    · intro huncancelled hwaiting hunset
      have hwoken : ((σ.setDemand now active_clients detail_servers).worker k).wakeup = true := by
        rw [hworker] at huncancelled hwaiting
        exact hset _ k (hattends.registered huncancelled (.inr (.inr hwaiting)))
      exact absurd hwoken (Bool.eq_false_iff.1 hunset)
    · intro revision hseen
      rw [hworker] at hseen
      rw [hrevision]
      exact Nat.le_succ_of_le (hattends.observed revision hseen)
    · rw [hworker, hloop]
      exact hattends.unborn

lemma Attentive.step (h : σ.Attentive) (e : Event) : (σ.step settings e).Attentive := by
  cases e with
  | setDemand active_clients detail_servers now => exact h.setDemand active_clients detail_servers
  | reconcile records => exact h.reconcile records
  | run w answer now jitter =>
    show (if w < σ.count then σ.resume settings w now answer jitter else σ).Attentive
    split
    · rename_i hw
      exact h.resume hw answer jitter
    · exact h

lemma attentive_init : init.Attentive :=
  attentive_of_attends ⟨tables_init, fun _ => rfl⟩ fun w hw => absurd hw (Nat.not_lt_zero w)

/-! ### Iterations -/

/-- One step counts an iteration of the worker, or leaves its count and what it saw, and does not make it wait for a
demand that it did not see. -/
inductive Advances (w : ℕ) (σ σ' : Scheduler) : Prop
  | began (hiterations : (σ'.worker w).iterations = (σ.worker w).iterations + 1)
  | went (hiterations : (σ'.worker w).iterations = (σ.worker w).iterations)
    (hobserved : (σ'.worker w).observed_demand = (σ.worker w).observed_demand)
    (hwaiting : (σ'.worker w).phase = .waiting → (σ.worker w).phase = .waiting ∨ ¬σ.Stale w)

lemma advances_of_worker (hsame : σ'.worker w = σ.worker w) : Advances w σ σ' :=
  .went (by rw [hsame]) (by rw [hsame]) fun hwaiting => .inl (hsame ▸ hwaiting)

lemma advances_resumed (h : Resumed settings w now σ σ') : Advances w σ σ' := by
  cases h with
  | same => exact advances_of_worker rfl
  | unborn =>
    refine .went ?_ ?_ ?_
    all_goals rw [worker_setWorker_self]
    exact fun hwaiting => Phase.noConfusion hwaiting
  | began _ _ hbase =>
    refine .began ?_
    rw [(worker_iterate ..).2.2.2, hbase.iterations]
  | parked _ _ hbase hobserved =>
    refine .went ?_ ?_ fun _ => .inr fun hstale => hstale hobserved
    all_goals rw [worker_setWorker_self]
    · exact hbase.iterations
    · exact hbase.observed
  | connected =>
    refine .went ?_ ?_ ?_
    all_goals rw [worker_setWorker_self]
    exact fun hwaiting => Phase.noConfusion hwaiting
  | @finished base crashed _ hbase =>
    obtain ⟨phase, hended, hworker⟩ := worker_finish (w := w) base crashed
    refine .went ?_ ?_ ?_
    all_goals rw [hworker]
    · exact hbase.iterations
    · exact hbase.observed
    · intro hwaiting
      obtain h | h := hended
      all_goals cases hwaiting.symm.trans h
  | closed =>
    refine .went ?_ ?_ ?_
    all_goals rw [worker_setWorker_self]
    exact fun hwaiting => Phase.noConfusion hwaiting

lemma advances_step (h : σ.Attentive) (hw : w < σ.count) (e : Event) : Advances w σ (σ.step settings e) := by
  cases e with
  | setDemand active_clients detail_servers now =>
    obtain ⟨wakeup, hworker⟩ := worker_setDemand σ now active_clients detail_servers w
    have hworker' : (σ.step settings (.setDemand active_clients detail_servers now)).worker w = _ := hworker
    refine .went ?_ ?_ ?_
    all_goals rw [hworker']
    exact .inl
  | reconcile records =>
    have happlied := applied h.consistent.1 h.consistent.2 (σ.cause records) records
    obtain hsame | ⟨cause, hcancelled⟩ := happlied.kept w hw
    · exact advances_of_worker hsame
    · have hworker : (σ.step settings (.reconcile records)).worker w = _ := hcancelled
      refine .went ?_ ?_ ?_
      all_goals rw [hworker]
      exact .inl
  | run k answer now jitter =>
    show Advances w σ (if k < σ.count then σ.resume settings k now answer jitter else σ)
    split
    · by_cases hk : w = k
      · subst hk
        have hresumed : Resumed settings w now σ (σ.resume settings w now answer jitter) := resumed answer jitter
        exact advances_resumed hresumed
      · exact advances_of_worker ((ran_resume answer jitter).others w hk)
    · exact advances_of_worker rfl

/-- The revision counts up, and so does the number of tasks. -/
lemma revision_step (settings : Settings) (h : σ.Attentive) (e : Event) :
    σ.demand_revision ≤ (σ.step settings e).demand_revision ∧ σ.count ≤ (σ.step settings e).count := by
  cases e with
  | setDemand active_clients detail_servers now =>
    refine ⟨?_, (setDemand_kept σ now active_clients detail_servers).2.ge⟩
    obtain ⟨hrevision, -⟩ | ⟨hrevision, -⟩ := setDemand_cases σ now active_clients detail_servers
    · exact hrevision.ge
    · exact (Nat.le_succ _).trans hrevision.ge
  | reconcile records =>
    exact ⟨(left_reconcile σ (σ.cause records) records).revision.ge,
      (applied h.consistent.1 h.consistent.2 (σ.cause records) records).count⟩
  | run k answer now jitter =>
    have hran : Ran k σ (σ.resume settings k now answer jitter) := ran_resume answer jitter
    show σ.demand_revision ≤ (if k < σ.count then σ.resume settings k now answer jitter else σ).demand_revision ∧
      σ.count ≤ (if k < σ.count then σ.resume settings k now answer jitter else σ).count
    split
    · exact ⟨hran.revision.ge, hran.count.ge⟩
    · exact ⟨le_rfl, le_rfl⟩

/-- The worker began no iteration since the change of the demand. -/
def BeganNone (changed σ : Scheduler) (w : ℕ) : Prop :=
  (σ.worker w).iterations = if w < changed.count then (changed.worker w).iterations else 0

/-- A worker that was there at the change: it began an iteration, or did not look and did not come to wait. -/
structure Since (changed : Scheduler) (w : ℕ) (σ : Scheduler) : Prop where
  attentive : σ.Attentive
  born : w < σ.count
  revision : changed.demand_revision ≤ σ.demand_revision
  iterations : (changed.worker w).iterations ≤ (σ.worker w).iterations
  /-- What it saw, it saw before the change. -/
  unaware : (σ.worker w).iterations = (changed.worker w).iterations →
    (∀ revision, (σ.worker w).observed_demand = some revision → revision < changed.demand_revision) ∧
      ((σ.worker w).phase = .waiting → (changed.worker w).phase = .waiting)

lemma Since.step {changed : Scheduler} (h : Since changed w σ) (e : Event) :
    Since changed w (σ.step settings e) := by
  obtain ⟨hrevision, hcount⟩ := revision_step settings h.attentive e
  have hadvances : Advances w σ (σ.step settings e) := advances_step h.attentive h.born e
  refine ⟨h.attentive.step e, h.born.trans_le hcount, h.revision.trans hrevision, ?_, fun hnone => ?_⟩
  · cases hadvances with
    | began hiterations => exact h.iterations.trans (hiterations ▸ Nat.le_succ _)
    | went hiterations => exact h.iterations.trans hiterations.ge
  · cases hadvances with
    | began hiterations =>
      have := h.iterations
      omega
    | went hiterations hobserved hwaiting =>
      obtain ⟨hbefore, hwaited⟩ := h.unaware (hiterations.symm.trans hnone)
      refine ⟨fun revision hseen => hbefore revision (hobserved ▸ hseen), fun hwaits => ?_⟩
      obtain hwaits | hfresh := hwaiting hwaits
      · exact hwaited hwaits
      · -- it saw the demand as it is, which is one behind the change
        have hseen := not_not.1 hfresh
        exact absurd (hbefore _ hseen) (not_lt.2 h.revision)

/-- A worker that was there at a change of the demand did not look at it yet. -/
lemma since_change (h : σ.Attentive) (hw : w < σ.count) {active_clients : ℤ} {detail_servers : List Text}
    (hchange : (σ.setDemand now active_clients detail_servers).demand_revision ≠ σ.demand_revision) :
    Since (σ.setDemand now active_clients detail_servers) w (σ.setDemand now active_clients detail_servers) := by
  obtain ⟨wakeup, hworker⟩ := worker_setDemand σ now active_clients detail_servers w
  obtain ⟨hsame, -⟩ | ⟨hrevision, -⟩ := setDemand_cases σ now active_clients detail_servers
  · exact absurd hsame hchange
  · refine ⟨h.setDemand active_clients detail_servers,
      hw.trans_eq (setDemand_kept σ now active_clients detail_servers).2.symm, le_rfl, le_rfl,
      fun _ => ⟨fun revision hseen => ?_, id⟩⟩
    rw [hworker] at hseen
    exact (Nat.lt_succ_of_le (h.observed w revision hw hseen)).trans_eq hrevision.symm

/-- What an iteration finds due that is begun with a demand that was not looked at. -/
lemma due_resumed (hresumed : Resumed settings w now σ σ') (hstale : σ.Stale w)
    (hbegan : (σ'.worker w).iterations ≠ (σ.worker w).iterations) :
    .fast ∈ (σ'.worker w).round.due ∧
      (σ.interactive settings now = true → σ.detail_servers.contains (σ.server w) = true →
        .medium ∈ (σ'.worker w).round.due ∧ .process ∈ (σ'.worker w).round.due) := by
  cases hresumed with
  | same => exact absurd rfl hbegan
  | unborn =>
    rw [worker_setWorker_self] at hbegan
    exact absurd rfl hbegan
  | @began base _ _ hbase =>
    have hstale' : base.Stale w := by
      unfold Stale
      rw [hbase.observed, hbase.revision]
      exact hstale
    have hinteractive : base.interactive settings now = σ.interactive settings now := by
      unfold interactive
      rw [hbase.clients, hbase.last_seen]
    have hserver : base.server w = σ.server w := congrArg (·.server_id) hbase.record
    rw [(iterate_of_stale hstale').1, ← hinteractive, ← hserver, ← hbase.detail]
    exact due_of_stale hstale'
  | parked _ _ hbase =>
    rw [worker_setWorker_self] at hbegan
    exact absurd hbase.iterations hbegan
  | connected =>
    rw [worker_setWorker_self] at hbegan
    exact absurd rfl hbegan
  | @finished base crashed _ hbase =>
    obtain ⟨phase, -, hworker⟩ := worker_finish (w := w) base crashed
    rw [hworker] at hbegan
    exact absurd hbase.iterations hbegan
  | closed =>
    rw [worker_setWorker_self] at hbegan
    exact absurd rfl hbegan

/-- What a change of the demand does to a worker that began no iteration since. -/
structure Reaches (settings : Settings) (changed σ : Scheduler) (w : ℕ) : Prop where
  /-- It is in no timed wait but the one that it was in at the change, and that one is over. -/
  wait : (σ.worker w).phase = .waiting →
    w < changed.count ∧ (changed.worker w).phase = .waiting ∧ (σ.worker w).wakeup = true
  /-- The step in which it begins one. -/
  due : ∀ answer now jitter, ¬BeganNone changed (σ.step settings (.run w answer now jitter)) w →
    .fast ∈ ((σ.step settings (.run w answer now jitter)).worker w).round.due ∧
      (σ.interactive settings now = true → σ.detail_servers.contains (σ.server w) = true →
        .medium ∈ ((σ.step settings (.run w answer now jitter)).worker w).round.due ∧
          .process ∈ ((σ.step settings (.run w answer now jitter)).worker w).round.due)

/-- Who did not look at the demand finds the change. -/
lemma reaches_of_stale {changed : Scheduler} (h : σ.Attentive) (hw : w < σ.count) (hlive : (σ.worker w).cancelled = none)
    (hnone : BeganNone changed σ w) (hstale : σ.Stale w)
    (hwaited : (σ.worker w).phase = .waiting → w < changed.count ∧ (changed.worker w).phase = .waiting) :
    Reaches settings changed σ w where
  wait hwaits := by
    refine ⟨(hwaited hwaits).1, (hwaited hwaits).2, ?_⟩
    by_contra hunset
    exact h.parked w hw hlive hwaits (Bool.eq_false_iff.2 hunset) hstale
  due answer now jitter hbegan := by
    have hresumed : Resumed settings w now σ (σ.resume settings w now answer jitter) := resumed answer jitter
    rw [step_run _ _ hw] at hbegan ⊢
    exact due_resumed hresumed hstale fun hsame => hbegan (hsame.trans hnone)

lemma Since.reaches {changed : Scheduler} (h : Since changed w σ) (hborn : w < changed.count)
    (hlive : (σ.worker w).cancelled = none) (hnone : BeganNone changed σ w) : Reaches settings changed σ w := by
  obtain ⟨hbefore, hwaited⟩ := h.unaware (hnone.trans (if_pos hborn))
  refine reaches_of_stale h.attentive h.born hlive hnone (fun hseen => ?_) fun hwaits => ⟨hborn, hwaited hwaits⟩
  exact absurd (hbefore _ hseen) (not_lt.2 h.revision)

/-- A change of the demand, and any run behind it. -/
lemma reaches_after {changed : Scheduler} (h : changed.Attentive)
    (hsince : ∀ w, w < changed.count → Since changed w changed) (es : List Event)
    (hw : w < (after (step settings) changed es).count)
    (hlive : ((after (step settings) changed es).worker w).cancelled = none)
    (hnone : BeganNone changed (after (step settings) changed es) w) :
    Reaches settings changed (after (step settings) changed es) w := by
  by_cases hborn : w < changed.count
  · have hlater : Since changed w (after (step settings) changed es) :=
      inv_after (hsince w hborn) fun _ e h => h.step e
    exact hlater.reaches hborn hlive hnone
  · -- a task that is created later begins with its first iteration
    have hattentive : (after (step settings) changed es).Attentive := inv_after h fun _ e h => h.step e
    obtain ⟨hunseen, hout⟩ := hattentive.unborn w hw (hnone.trans (if_neg hborn))
    refine reaches_of_stale hattentive hw hlive hnone (fun hseen => ?_) fun hwaits => absurd (.inr (.inr hwaits)) hout
    exact Option.some_ne_none _ (hseen.symm.trans hunseen)

/-- To select a server is a change. -/
lemma selecting_changes {active_clients : ℤ} {detail_servers : List Text} {server_id : Text}
    (hbefore : server_id ∉ σ.detail_servers) (hafter : server_id ∈ detail_servers) :
    (σ.setDemand now active_clients detail_servers).demand_revision ≠ σ.demand_revision := by
  have hchanged : (decide (active_clients.toNat ≠ σ.active_clients) ||
      !(detail_servers.all σ.detail_servers.contains && σ.detail_servers.all detail_servers.contains)) = true := by
    have hnot : detail_servers.all σ.detail_servers.contains = false :=
      List.all_eq_false.2 ⟨server_id, hafter, fun hmem => hbefore (List.contains_iff_mem.1 hmem)⟩
    rw [hnot, Bool.false_and, Bool.not_false, Bool.or_true]
  unfold setDemand
  dsimp only
  rw [if_pos hchanged]
  exact Nat.succ_ne_self _

end Scheduler

/-- **Demand reaches the workers.** -/
theorem demand_is_seen (settings : Settings) (es : List Event) :
    Always (Scheduler.step settings) Scheduler.NoLostWakeup .init es ∧
    (∀ active_clients detail_servers now es' w,
      let before := after (Scheduler.step settings) .init es
      let changed := before.step settings (.setDemand active_clients detail_servers now)
      let σ := after (Scheduler.step settings) changed es'
      changed.demand_revision ≠ before.demand_revision → w < σ.count → (σ.worker w).cancelled = none →
        Scheduler.BeganNone changed σ w → Scheduler.Reaches settings changed σ w) ∧
    ∀ active_clients detail_servers now server_id,
      let before := after (Scheduler.step settings) .init es
      server_id ∉ before.detail_servers → server_id ∈ detail_servers →
        (before.step settings (.setDemand active_clients detail_servers now)).demand_revision ≠ before.demand_revision := by
  have hattentive : Always (Scheduler.step settings) Scheduler.Attentive .init es :=
    always_of_inv Scheduler.attentive_init fun _ e h => h.step e
  refine ⟨hattentive.imp fun _ h => h.parked, ?_, ?_⟩
  · intro active_clients detail_servers now es' w before changed σ hchange hw hlive hnone
    have hbefore : before.Attentive := hattentive.last
    have hsince : ∀ w, w < changed.count → Scheduler.Since changed w changed := fun w hborn =>
      Scheduler.since_change hbefore
        (hborn.trans_eq (Scheduler.setDemand_kept before now active_clients detail_servers).2) hchange
    exact Scheduler.reaches_after (hbefore.step _) hsince es' hw hlive hnone
  · intro active_clients detail_servers now server_id before
    exact Scheduler.selecting_changes

/-! ### A selection that is taken back -/

/-- A server is selected, and is not any more before its worker is through with the factory. -/
def takenBack : List Event :=
  [.reconcile [{ server_id := "gpu".toList, display_name := "gpu".toList, ssh_host := "gpu".toList }], .run 0 .done 0 0,
    .setDemand 1 ["gpu".toList] 0, .setDemand 1 [] 0, .run 0 .failed 0 0]

/-- The first iteration behind the change has neither `MEDIUM` nor `PROCESS` due. -/
theorem demand_is_seen_not :
    ((after (Scheduler.step {}) .init (takenBack.take 3)).interactive {} 0 = true ∧
      (after (Scheduler.step {}) .init (takenBack.take 3)).detail_servers = ["gpu".toList] ∧
      (after (Scheduler.step {}) .init (takenBack.take 3)).demand_revision ≠
        (after (Scheduler.step {}) .init (takenBack.take 2)).demand_revision) ∧
    ((after (Scheduler.step {}) .init (takenBack.take 4)).worker 0).iterations =
      ((after (Scheduler.step {}) .init (takenBack.take 3)).worker 0).iterations ∧
    ((after (Scheduler.step {}) .init takenBack).worker 0).iterations =
      ((after (Scheduler.step {}) .init (takenBack.take 3)).worker 0).iterations + 1 ∧
    Group.medium ∉ ((after (Scheduler.step {}) .init takenBack).worker 0).round.due ∧
    Group.process ∉ ((after (Scheduler.step {}) .init takenBack).worker 0).round.due := by
  decide +kernel

end SshGpuConsole.Scheduling
