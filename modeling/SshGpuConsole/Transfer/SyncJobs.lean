import SshGpuConsole.Lib.Runs
import SshGpuConsole.Transfer.Preflight
import SshGpuConsole.Workspace.SyncTargets

/-!
# The jobs of a project sync

`sync_project` (`api/v1/workspace.py`) makes one job for each TRANSFER item of a fresh plan, and the worker of a job
plans it again (`_plan_and_run`, `transfer/service.py`). The job is created with the strategy the plan selected, not
with the one that was asked for: it falls back as an automatic sync should exactly when its own preflight comes to what
the preflight of the plan came to (`falls_back_iff`).
-/

namespace SshGpuConsole.SyncJobs
open Shell (Text)
open PyText
open Effect (Prog Sem exec)
open Workspace
open Preflight (Asked Answers planned strategyFor)
open Planner (DedicatedKeyOptions)

/-! ### The plan -/

/-- What the sync planner reads of a plan. -/
def view (plan : Preflight.TransferPlan) : Workspace.TransferPlan :=
  { strategy_selected := plan.strategy_selected, reason := plan.reason, space_warning := plan.space_warning }

/-- Where `TransferService.plan` finds what a request is about: the placement, the servers and the key. -/
abbrev Lookup := TransferRequest → Except Raised Asked

/-- `TransferService.plan`, by what is answered to the preflight of each request. -/
def servicePlan (cfg : Preflight.Config) (lookup : Lookup) (env : TransferRequest → ℕ → Answers)
    (request : TransferRequest) : Except Raised Preflight.TransferPlan := do
  let stub ← lookup request
  planned cfg { stub with requested := request.strategy } (env request)

/-- The environment of the sync planner, with the transfer service behind `plan_transfer`. -/
def served (answer : TransferRequest → Except Raised Workspace.TransferPlan) :
    Sem SiteOp SiteOp.Ans Raised Site SiteChoice where
  act
    | .planTransfer request, _, s => (answer request, s)
    | o, c, s => site.act o c s

/-- `build_plan`, run with the transfer service. -/
def builtPlan (cfg : Preflight.Config) (sync : SyncConfig) (lookup : Lookup) (env : TransferRequest → ℕ → Answers)
    (project_id : Text) (request : SyncPlanRequest) (s : Site) (choices : ℕ → SiteChoice) : Except Raised ProjectSyncPlan :=
  (exec (served fun r => (servicePlan cfg lookup env r).map view) (buildPlan sync project_id request) s choices).1

/-! ### Jobs -/

/-- `TransferJob`, as far as planning reads and writes it. -/
structure Job where
  artifact_id : Text
  source_server_id : Text
  source_path : Text
  target_server_id : Text
  target_path : Text
  strategy_requested : TransferStrategy
  excludes : List Text
  state : Batch.TransferState := .queued
  strategy_reason : Text := []
  strategy_used : Option TransferStrategy := none
  error_code : Option Text := none
  error_message : Text := []
  deriving DecidableEq, Repr

/-- `create_job`: the request for an item. -/
def createJobRequest (sync : SyncConfig) (plan : ProjectSyncPlan) (item : ArtifactSyncItem) :
    Except Raised TransferRequest :=
  match item.source_placement_id, item.target_path, item.strategy_selected with
  | some source_placement_id, some target_path, some strategy =>
    .ok { artifact_id := item.artifact_id, source_placement_id, target_server_id := plan.target_server_id,
          target_path, strategy }
  | _, _, _ =>
    .error (.app ("transfer item for ".toList ++ sync.repr item.artifact_label ++
      " is incomplete: missing source placement, target path or strategy".toList))

/-- `_clean_path`. -/
def cleanPath (path : Text) : Except Raised Text :=
  let cleaned := strip path
  if cleaned = [] || startsWith "-".toList cleaned then .error (.app "invalid target path".toList) else .ok cleaned

/-- The job that `TransferService.create` queues, for the source it finds and the excludes it resolves. -/
def create (request : TransferRequest) (source_server_id source_path : Text) (excludes : List Text) :
    Except Raised Job := do
  let target_path ← cleanPath request.target_path
  return { artifact_id := request.artifact_id, source_server_id, source_path,
           target_server_id := request.target_server_id, target_path,
           strategy_requested := request.strategy, excludes }

/-- A job of the batch, with the item it was created for. -/
structure SyncJob where
  item : ArtifactSyncItem
  job : Job
  deriving DecidableEq, Repr

/-- The job was created for a TRANSFER item of the plan. -/
structure Created (sync : SyncConfig) (plan : ProjectSyncPlan) (j : SyncJob) : Prop where
  item : j.item ∈ plan.items
  transfer : j.item.action = .transfer
  job : ∃ request source_server_id source_path excludes, createJobRequest sync plan j.item = .ok request ∧
    create request source_server_id source_path excludes = .ok j.job

/-- What a job is planned for. -/
def Job.asked (job : Job) (dedicated_key : Option DedicatedKeyOptions) : Asked :=
  { requested := job.strategy_requested, source_server_id := job.source_server_id,
    target_server_id := job.target_server_id, source_path := job.source_path, target_path := job.target_path,
    artifact_id := job.artifact_id, excludes := job.excludes, dedicated_key }

/-- `fail`. -/
def Job.fail (job : Job) (code message : Text) : Job :=
  { job with state := .failed, error_code := some code, error_message := message.take 300 }

/-- The turn of a job's worker that plans it: which job, what the registry and the dedicated keys say, and what is
answered to its preflight. -/
structure Turn where
  index : ℕ
  /-- The job is found before and behind the planning. -/
  found : Bool := true
  found_after : Bool := true
  dedicated_key : Option DedicatedKeyOptions := none
  env : ℕ → Answers

/-- `strategy_unavailable`. -/
def unavailableCode : Text := "strategy_unavailable".toList

/-- The planning step of `_plan_and_run`, with the handlers of `_run_job` around it. -/
def planStep (cfg : Preflight.Config) (turn : Turn) (job : Job) : Job :=
  if !turn.found then job
  else
    match planned cfg (job.asked turn.dedicated_key) turn.env with
    | .error e =>
      if e.isException then job.fail "transfer_failed".toList (cfg.str e) else { job with state := .cancelled }
    | .ok plan =>
      if !turn.found_after then { job with state := .planning }
      else
        match plan.strategy_selected with
        | none => { job with strategy_reason := plan.reason }.fail unavailableCode plan.reason
        | some strategy =>
          { job with state := .planning, strategy_reason := plan.reason, strategy_used := some strategy }

/-- A turn of the batch. -/
def step (cfg : Preflight.Config) (jobs : List SyncJob) (turn : Turn) : List SyncJob :=
  jobs.modify turn.index fun j => { j with job := planStep cfg turn j.job }

/-! ### Falling back -/

/-- The job that plans itself uses direct rsync when its own preflight passes and the relay when it does not, and does
not fail for lack of a strategy. -/
def FallsBack (cfg : Preflight.Config) (jobs : List SyncJob) (turn : Turn) : Prop :=
  ∀ j, jobs[turn.index]? = some j → turn.found = true → turn.found_after = true →
    ∀ plan, planned cfg (j.job.asked turn.dedicated_key) turn.env = .ok plan →
      (planStep cfg turn j.job).strategy_used = some (if plan.direct_rsync then .directRsync else .localRelay) ∧
        (planStep cfg turn j.job).state ≠ .failed

/-- The request the item was planned with. -/
def plannedRequest (plan : ProjectSyncPlan) (item : ArtifactSyncItem) : TransferRequest :=
  { artifact_id := item.artifact_id
    source_placement_id := item.source_placement_id.getD []
    target_server_id := plan.target_server_id
    target_path := item.target_path.getD []
    strategy := .auto }

/-- The own preflight of the job comes to what the preflight of its item came to. -/
def SameRoute (cfg : Preflight.Config) (lookup : Lookup) (env : TransferRequest → ℕ → Answers) (plan : ProjectSyncPlan)
    (jobs : List SyncJob) (turn : Turn) : Prop :=
  ∀ j, jobs[turn.index]? = some j → turn.found = true → turn.found_after = true →
    ∀ own, planned cfg (j.job.asked turn.dedicated_key) turn.env = .ok own →
      ∀ before, servicePlan cfg lookup env (plannedRequest plan j.item) = .ok before →
        own.direct_rsync = before.direct_rsync

/-! ### What the plan selects -/

/-- The answers of the transfer service to the planner. -/
def Answered (answer : TransferRequest → Except Raised Workspace.TransferPlan) (o : SiteOp)
    (r : Except Raised o.Ans) : Prop :=
  ∀ request, (h : o = .planTransfer request) → r = h ▸ answer request

/-- A TRANSFER item has the strategy that the service answered to its request. -/
def Chosen (answer : TransferRequest → Except Raised Workspace.TransferPlan) (request : SyncPlanRequest)
    (item : ArtifactSyncItem) : Prop :=
  item.action = .transfer → ∃ source_placement_id target_path strategy made,
    item.source_placement_id = some source_placement_id ∧ item.target_path = some target_path ∧
      item.strategy_selected = some strategy ∧
      answer { artifact_id := item.artifact_id, source_placement_id, target_server_id := request.target_server_id,
               target_path, strategy := request.strategy } = .ok made ∧ made.strategy_selected = some strategy

section Choosing
variable {answer : TransferRequest → Except Raised Workspace.TransferPlan} {sync : SyncConfig} {request : SyncPlanRequest}
  {snapshot : Snapshot} {artifact : Artifact}

lemma yields_planTransfer (r : TransferRequest) :
    (planTransfer r).Yields (Answered answer) fun made => answer r = .ok made := by
  rw [planTransfer]
  split
  · exact (Prog.Yields.perform (SiteOp.planTransfer r)).mono fun made hmade => (hmade r rfl).symm
  · trivial

lemma yields_transferItem (status : DistributionState) (why target_path : Text) :
    (transferItem sync request snapshot artifact status why target_path).Yields (Answered answer)
      (Chosen answer request) := by
  rw [transferItem, Prog.bind_eq]
  refine Prog.Yields.bind_any fun source => ?_
  split
  · exact fun h => by cases h
  · rename_i selected _
    refine Prog.Yields.bind (Q := fun res => ∀ made, res = .ok made → answer {
      artifact_id := artifact.val.artifact_id
      source_placement_id := selected.val.placement_id
      target_server_id := request.target_server_id
      target_path
      strategy := request.strategy } = .ok made) ?_ fun res hres => ?_
    · refine Prog.Yields.catching ((yields_planTransfer _).mono fun made hmade => ?_) fun _ _ h => by cases h
      rintro _ ⟨⟩
      exact hmade
    · cases res with
      | error e => exact fun h => by cases h
      | ok made =>
        dsimp only
        split
        · exact fun h => by cases h
        · rename_i strategy hstrategy
          exact fun _ => ⟨_, _, strategy, made, rfl, rfl, rfl, hres made rfl, hstrategy⟩

lemma yields_planItem (target_placements : List Placement) (suggested : Dict Text Text) :
    (planItem sync request snapshot target_placements artifact suggested).Yields (Answered answer)
      fun res => Chosen answer request res.1 := by
  rw [planItem, Prog.bind_eq]
  refine Prog.Yields.bind_any fun placements => Prog.Yields.bind_any fun st => ?_
  obtain ⟨status, path⟩ := st
  dsimp only
  split
  · exact fun h => by cases h
  · split
    · exact fun h => by cases h
    · split
      · exact fun h => by cases h
      · split
        · exact (yields_transferItem _ _ _).bind fun item hitem => hitem
        · refine Prog.Yields.bind_any fun res => ?_
          cases res with
          | error reason => exact fun h => by cases h
          | ok claimed => exact (yields_transferItem _ _ _).bind fun item hitem => hitem

lemma yields_planItems (target_placements : List Placement) (artifact_ids : List Text) (suggested : Dict Text Text) :
    (planItems sync request snapshot target_placements artifact_ids suggested).Yields (Answered answer)
      fun items => ∀ item ∈ items, Chosen answer request item := by
  induction artifact_ids generalizing suggested with
  | nil => exact fun _ h => absurd h List.not_mem_nil
  | cons artifact_id artifact_ids ih =>
    refine Prog.Yields.bind_any fun found => ?_
    refine (yields_planItem target_placements suggested).bind fun res hres => ?_
    refine (ih res.2).bind fun items hitems => ?_
    intro item hitem
    rcases List.mem_cons.1 hitem with rfl | hitem
    · exact hres
    · exact hitems item hitem

lemma yields_buildPlan (project_id : Text) :
    (buildPlan sync project_id request).Yields (Answered answer) fun plan =>
      plan.target_server_id = request.target_server_id ∧ ∀ item ∈ plan.items, Chosen answer request item := by
  rw [buildPlan, Prog.bind_eq]
  refine Prog.Yields.bind_any fun found => Prog.Yields.bind_any fun ids => ?_
  refine Prog.Yields.bind_any fun snapshot => Prog.Yields.bind_any fun all => ?_
  refine (yields_planItems _ ids []).bind fun items hitems => ?_
  refine Prog.Yields.bind_any fun overlap => Prog.Yields.bind_any fun generated_at => ?_
  exact ⟨rfl, hitems⟩

end Choosing

/-! ### What the jobs select -/

/-- The strategy of an automatic plan. -/
def autoStrategy (direct_rsync : Bool) : TransferStrategy := if direct_rsync then .directRsync else .localRelay

/-- A job that asks for what an automatic plan selected comes to what an automatic plan would select now exactly when
the route is as it was. -/
lemma strategyFor_auto_iff (before now : Bool) :
    strategyFor (autoStrategy before) now = some (autoStrategy now) ↔ now = before := by
  cases before with
  | true =>
    cases now with
    | true => exact iff_of_true rfl rfl
    | false => exact iff_of_false (fun h => by cases h) (fun h => by cases h)
  | false =>
    cases now with
    | true => exact iff_of_false (fun h => by cases h) (fun h => by cases h)
    | false => exact iff_of_true rfl rfl

section Runs
variable {cfg : Preflight.Config} {sync : SyncConfig} {lookup : Lookup} {env : TransferRequest → ℕ → Answers}
  {plan : ProjectSyncPlan}

lemma planStep_requested (turn : Turn) (job : Job) : (planStep cfg turn job).strategy_requested = job.strategy_requested := by
  unfold planStep
  split
  · rfl
  · split
    · split <;> rfl
    · split
      · rfl
      · split <;> rfl

/-- What a job that plans itself comes to. -/
lemma planStep_iff {turn : Turn} {job : Job} {own : Preflight.TransferPlan} (hfound : turn.found = true)
    (hafter : turn.found_after = true) (hown : planned cfg (job.asked turn.dedicated_key) turn.env = .ok own)
    (strategy : TransferStrategy) :
    (planStep cfg turn job).strategy_used = some strategy ∧ (planStep cfg turn job).state ≠ .failed ↔
      strategyFor job.strategy_requested own.direct_rsync = some strategy := by
  have hselected : own.strategy_selected = strategyFor job.strategy_requested own.direct_rsync :=
    Preflight.selects hown
  rw [← hselected]
  simp only [planStep, hfound, hafter, hown, Bool.not_true, Bool.false_eq_true, if_false]
  cases own.strategy_selected with
  | none => exact iff_of_false (fun h => h.2 rfl) (fun h => by cases h)
  | some s => exact ⟨fun h => h.1, fun h => ⟨h, fun hstate => by cases hstate⟩⟩

/-- The jobs ask for what the plan selected for their items. -/
def AsPlanned (cfg : Preflight.Config) (lookup : Lookup) (env : TransferRequest → ℕ → Answers) (plan : ProjectSyncPlan)
    (jobs : List SyncJob) : Prop :=
  ∀ j ∈ jobs, ∃ before, servicePlan cfg lookup env (plannedRequest plan j.item) = .ok before ∧
    j.job.strategy_requested = autoStrategy before.direct_rsync

lemma AsPlanned.step {jobs : List SyncJob} (h : AsPlanned cfg lookup env plan jobs) (turn : Turn) :
    AsPlanned cfg lookup env plan (step cfg jobs turn) := by
  intro j hj
  obtain ⟨i, hi⟩ := List.mem_iff_getElem?.1 hj
  rw [SyncJobs.step, List.getElem?_modify] at hi
  obtain ⟨j', hj', rfl⟩ := Option.map_eq_some_iff.1 hi
  obtain ⟨before, hbefore, hrequested⟩ := h j' (List.mem_of_getElem? hj')
  split
  · exact ⟨before, hbefore, (planStep_requested turn j'.job).trans hrequested⟩
  · exact ⟨before, hbefore, hrequested⟩

lemma AsPlanned.falls_back {jobs : List SyncJob} (h : AsPlanned cfg lookup env plan jobs) (turn : Turn) :
    FallsBack cfg jobs turn ↔ SameRoute cfg lookup env plan jobs turn := by
  refine forall_congr' fun j => forall_congr' fun hj => forall_congr' fun hfound => forall_congr' fun hafter => ?_
  refine forall_congr' fun own => forall_congr' fun hown => ?_
  obtain ⟨before, hbefore, hrequested⟩ := h j (List.mem_of_getElem? hj)
  rw [planStep_iff hfound hafter hown, hrequested]
  refine (strategyFor_auto_iff before.direct_rsync own.direct_rsync).trans ?_
  constructor
  · rintro hsame before' hbefore'
    cases hbefore.symm.trans hbefore'
    exact hsame
  · exact fun hsame => hsame before hbefore

lemma answered_served (answer : TransferRequest → Except Raised Workspace.TransferPlan) (o : SiteOp) (c : SiteChoice)
    (s : Site) : Answered answer o ((served answer).act o c s).1 := by
  rintro request rfl
  rfl

/-- The jobs of an automatic sync ask for what the plan selected. -/
lemma asPlanned_of_created {request : SyncPlanRequest} (hauto : request.strategy = .auto) {project_id : Text} {s : Site}
    {choices : ℕ → SiteChoice} (hplan : builtPlan cfg sync lookup env project_id request s choices = .ok plan)
    {jobs : List SyncJob} (hjobs : ∀ j ∈ jobs, Created sync plan j) : AsPlanned cfg lookup env plan jobs := by
  obtain ⟨htarget, hchosen⟩ := Effect.yields_exec (answered_served _) (yields_buildPlan project_id) hplan
  intro j hj
  obtain ⟨hitem, htransfer, r, source_server_id, source_path, excludes, hrequest, hcreate⟩ := hjobs j hj
  obtain ⟨source_placement_id, target_path, strategy, made, hsource, hpath, hstrategy, hmade, hselected⟩ :=
    hchosen j.item hitem htransfer
  have hplanned : plannedRequest plan j.item = {
      artifact_id := j.item.artifact_id, source_placement_id, target_server_id := request.target_server_id,
      target_path, strategy := request.strategy } := by
    rw [plannedRequest, hsource, hpath, htarget, hauto]
    rfl
  rw [← hplanned] at hmade
  beta_reduce at hmade
  cases hbefore : servicePlan cfg lookup env (plannedRequest plan j.item) with
  | error e =>
    rw [hbefore] at hmade
    cases hmade
  | ok before =>
    rw [hbefore] at hmade
    cases hmade
    have hauto' : before.strategy_selected = some (autoStrategy before.direct_rsync) := by
      unfold servicePlan at hbefore
      cases hlookup : lookup (plannedRequest plan j.item) with
      | error e =>
        rw [hlookup] at hbefore
        cases hbefore
      | ok stub =>
        rw [hlookup] at hbefore
        exact Preflight.selects hbefore
    refine ⟨before, rfl, ?_⟩
    have hwanted : strategy = autoStrategy before.direct_rsync := Option.some.inj (hselected.symm.trans hauto')
    rw [createJobRequest, hsource, hpath, hstrategy] at hrequest
    cases hrequest
    unfold create at hcreate
    cases hclean : cleanPath target_path with
    | error e =>
      rw [hclean] at hcreate
      cases hcreate
    | ok cleaned =>
      rw [hclean] at hcreate
      rw [← Except.ok.inj hcreate, ← hwanted]

end Runs

/-- In an automatic sync every job falls back as it should, at each of its turns, exactly when at each turn its own
preflight comes to what the preflight of its item came to. -/
theorem falls_back_iff (cfg : Preflight.Config) (sync : SyncConfig) (lookup : Lookup)
    (env : TransferRequest → ℕ → Answers) (project_id : Text) (request : SyncPlanRequest)
    (hauto : request.strategy = .auto) (s : Site) (choices : ℕ → SiteChoice) (plan : ProjectSyncPlan)
    (hplan : builtPlan cfg sync lookup env project_id request s choices = .ok plan) (jobs : List SyncJob)
    (hjobs : ∀ j ∈ jobs, Created sync plan j) (turns : List Turn) :
    Machine.Along (step cfg) (FallsBack cfg) jobs turns ↔
      Machine.Along (step cfg) (SameRoute cfg lookup env plan) jobs turns :=
  Machine.along_iff_along (asPlanned_of_created hauto hplan hjobs) (fun _ turn h _ => h.step turn)
    fun _ turn h => h.falls_back turn

/-! ### One dataset -/

/-- A dataset on one server that is to be had on another. -/
def oneDataset : Repo :=
  settled [⟨.createArtifact { kind := .dataset, name := "images".toList }, drawing "a1", saved⟩,
    ⟨.createProject { name := "train".toList, artifact_ids := ["a1".toList] }, drawing "p1", saved⟩,
    ⟨.createPlacement { artifact_id := "a1".toList, server_id := "nas".toList, remote_path := "/images".toList },
      drawing "l1", saved⟩,
    ⟨.setServerRoots "gpu".toList { dataset_root := some "/data".toList }, drawing "", saved⟩]

/-- Numbers are not read. -/
def plainConfig : Preflight.Config := ⟨fun _ => none, fun _ => []⟩

def plainLookup : Lookup := fun request =>
  .ok { requested := .auto, source_server_id := "nas".toList, target_server_id := request.target_server_id,
        source_path := "/images".toList, target_path := request.target_path, artifact_id := request.artifact_id,
        excludes := [], dedicated_key := none }

/-- Every command succeeds, and the source gets to the target. -/
def reachable : ℕ → Answers := fun _ =>
  { run := .ok ⟨some 0, []⟩, params := .ok { host := "gpu".toList }, probe := .ok (0, []) }

/-- The servers do not have rsync any more. -/
def withoutRsync : ℕ → Answers := fun _ => { run := .ok ⟨some 1, []⟩ }

/-- The plan of the sync while the source passes its preflight and the route is there. -/
def directPlan : Except Raised ProjectSyncPlan :=
  builtPlan plainConfig plainSync plainLookup (fun _ => reachable) "p1".toList toGpu ⟨oneDataset, .empty, []⟩
    fun _ => { result := .ok ⟨some 0, "OK".toList⟩ }

/-- The job of a plan with one item. -/
def jobsOf (plan : ProjectSyncPlan) : List SyncJob :=
  plan.items.filterMap fun item =>
    match createJobRequest plainSync plan item with
    | .ok request =>
      match create request "nas".toList "/images".toList [] with
      | .ok job => some ⟨item, job⟩
      | .error _ => none
    | .error _ => none

lemma created_jobsOf {plan : ProjectSyncPlan} (htransfer : ∀ item ∈ plan.items, item.action = .transfer) :
    ∀ j ∈ jobsOf plan, Created plainSync plan j := by
  intro j hj
  obtain ⟨item, hitem, hsome⟩ := List.mem_filterMap.1 hj
  split at hsome
  · rename_i request hrequest
    split at hsome
    · rename_i job hjob
      cases hsome
      exact ⟨hitem, htransfer item hitem, request, _, _, _, hrequest, hjob⟩
    · cases hsome
  · cases hsome

lemma direct_of_reachable {asked : Asked} {own : Preflight.TransferPlan}
    (h : planned plainConfig asked reachable = .ok own) : own.direct_rsync = true := by
  have hall : (planned plainConfig asked reachable).map (·.direct_rsync) = .ok true := rfl
  rw [h] at hall
  exact Except.ok.inj hall

lemma direct_of_withoutRsync {asked : Asked} {own : Preflight.TransferPlan}
    (h : planned plainConfig asked withoutRsync = .ok own) : own.direct_rsync = false := by
  have hall : (planned plainConfig asked withoutRsync).map (·.direct_rsync) = .ok false := rfl
  rw [h] at hall
  exact Except.ok.inj hall

lemma planned_withoutRsync (asked : Asked) : ∃ own, planned plainConfig asked withoutRsync = .ok own := ⟨_, rfl⟩

lemma directPlan_jobs : ∃ plan, directPlan = .ok plan ∧ (∀ item ∈ plan.items, item.action = .transfer) ∧
    (jobsOf plan).map (·.job.strategy_requested) = [.directRsync] := by
  have hsome : directPlan.toOption.map (fun plan => (plan.items.map (·.action),
      (jobsOf plan).map (·.job.strategy_requested))) = some ([.transfer], [.directRsync]) := by decide +kernel
  obtain ⟨plan, hplan, hpair⟩ := Option.map_eq_some_iff.1 hsome
  obtain ⟨hactions, hjobs⟩ := Prod.mk.inj hpair
  refine ⟨plan, ?_, fun item hitem => ?_, hjobs⟩
  · cases hrun : directPlan with
    | ok plan' =>
      rw [hrun] at hplan
      cases hplan
      rfl
    | error e =>
      rw [hrun] at hplan
      cases hplan
  · exact List.mem_singleton.1 (hactions ▸ List.mem_map_of_mem (f := (·.action)) hitem)

/-- A job that finds the route as the plan found it. -/
theorem falls_back_reachable : ∃ plan, directPlan = .ok plan ∧ (jobsOf plan).length = 1 ∧
    Machine.Along (step plainConfig) (FallsBack plainConfig) (jobsOf plan) [{ index := 0, env := reachable }] := by
  obtain ⟨plan, hplan, htransfer, hjobs⟩ := directPlan_jobs
  have hone : (jobsOf plan).length = 1 := by
    have hlen := congrArg List.length hjobs
    rwa [List.length_map] at hlen
  refine ⟨plan, hplan, hone, (falls_back_iff plainConfig plainSync plainLookup (fun _ => reachable) "p1".toList toGpu rfl
    ⟨oneDataset, .empty, []⟩ (fun _ => { result := .ok ⟨some 0, "OK".toList⟩ }) plan hplan (jobsOf plan)
    (created_jobsOf htransfer) _).2 ⟨?_, trivial⟩⟩
  intro j _ _ _ own hown before hbefore
  obtain ⟨stub, -, hbefore⟩ := Except.ok_of_bind hbefore
  exact (direct_of_reachable hown).trans (direct_of_reachable hbefore).symm

/-- The worker's turn behind that. -/
def lateTurn : Turn := { index := 0, env := withoutRsync }

/-- A job whose servers lose rsync while it is queued fails. -/
theorem lost_rsync_fails : ¬∀ plan, directPlan = .ok plan →
    Machine.Along (step plainConfig) (FallsBack plainConfig) (jobsOf plan) [lateTurn] := by
  intro h
  obtain ⟨plan, hplan, -, hjobs⟩ := directPlan_jobs
  have hfalls := (h plan hplan).1
  cases hlist : jobsOf plan with
  | nil =>
    rw [hlist] at hjobs
    cases hjobs
  | cons j js =>
    rw [hlist] at hjobs hfalls
    have hrequested : j.job.strategy_requested = .directRsync := (List.cons.inj hjobs).1
    obtain ⟨own, hown⟩ := planned_withoutRsync (j.job.asked none)
    obtain ⟨hused, hstate⟩ := hfalls j rfl rfl rfl own hown
    have hselected : strategyFor j.job.strategy_requested own.direct_rsync =
        some (if own.direct_rsync then .directRsync else .localRelay) :=
      (planStep_iff (rfl : lateTurn.found = true) (rfl : lateTurn.found_after = true) hown _).1 ⟨hused, hstate⟩
    rw [hrequested, direct_of_withoutRsync hown] at hselected
    cases hselected

end SshGpuConsole.SyncJobs
