import SshGpuConsole.Transfer.Registry
import SshGpuConsole.Transfer.SyncJobs
import SshGpuConsole.Workspace.ProjectReads

/-!
# Retrying a transfer

`TransferService.create` and `TransferService.retry` (`transfer/service.py`) over the records of the workspace. A retry
looks its source placement up again, by the path alone: it repeats the transfer exactly when the first placement with
the path is one of the artifact on the source server (`retry_repeats_iff`).
-/

namespace SshGpuConsole.Transfers
open Shell (Text)
open Effect (exec)
open Batch (TransferState)
open Workspace
open SyncJobs (Job cleanPath)

/-- What the transfer service finds around it. -/
structure Site where
  stopped : Bool
  repo : Repo
  /-- The registered servers, and whether they are enabled. -/
  enabled : Text → Option Bool
  /-- The holders of the targets. -/
  target_locks : Dict (Text × Text) ℕ

/-- The patterns of one project, behind those of others. -/
def mergeExcludes (merged patterns : List Text) : List Text :=
  patterns.foldl (fun merged pattern => if pattern = [] ∨ merged.contains pattern = true then merged
    else merged ++ [pattern]) merged

/-- `_resolve_excludes` -/
def resolveExcludes (repo : Repo) (artifact_id : Text) : Except Raised (List Text) :=
  match (exec repository Workspace.projects repo fun _ => true).1 with
  | .error f => .error (.failure f)
  | .ok projects => .ok <| projects.foldl (fun merged project =>
      if project.val.artifact_ids.contains artifact_id then mergeExcludes merged project.val.transfer_excludes
      else merged) []

/-- `max_length` of the excludes of a job. -/
def maxJobExcludes : ℕ := 32

/-- `_server` -/
def Site.server (site : Site) (server_id : Text) : Except Raised Bool :=
  match site.enabled server_id with
  | some enabled => .ok enabled
  | none => .error (.failure (.notFound "server".toList server_id))

/-- What the workspace answers. -/
def Site.read (site : Site) (q : Query) : Except Raised q.Ans := (site.repo.read q).mapError .failure

/-- `JobRegistry.create`, for the source of the request. -/
def createJob (site : Site) (request : TransferRequest) (placement : Placement) : Except Raised Job := do
  let target_path ← cleanPath request.target_path
  let excludes ← resolveExcludes site.repo request.artifact_id
  let key := targetKey request.target_server_id target_path
  if (site.target_locks.get key).isSome then
    .error (.app ("target ".toList ++ request.target_server_id ++ ':' :: key.2 ++ (" already has an active transfer; wait " ++
      "for it to finish or choose another target path").toList))
  else if excludes.length ≤ maxJobExcludes then
    .ok { artifact_id := request.artifact_id, source_server_id := placement.val.server_id,
          source_path := placement.val.remote_path, target_server_id := request.target_server_id, target_path,
          strategy_requested := request.strategy, excludes }
  else .error (.failure .validation)

/-- `create`, up to the job it queues. -/
def create (site : Site) (request : TransferRequest) : Except Raised Job := do
  if site.stopped then .error (.app "transfer service is shutting down".toList)
  else
    let _ ← site.read (.getArtifact request.artifact_id)
    let placement ← site.read (.getPlacement request.source_placement_id)
    if placement.val.artifact_id ≠ request.artifact_id then
      .error (.app "source placement does not belong to the artifact".toList)
    else
      let source ← site.server placement.val.server_id
      let target ← site.server request.target_server_id
      if !source || !target then .error (.app "source and target servers must be enabled".toList)
      else if placement.val.server_id = request.target_server_id then
        .error (.app "source and target server are the same".toList)
      else createJob site request placement

/-- `_find_placement_id`: the first placement with the path. -/
def findPlacement (site : Site) (source_path : Text) : Option Placement :=
  site.repo.placements.rows.find? fun p => p.val.remote_path = source_path

/-- `TransferRequest(...)`, made for a job again. -/
def requestAgain (job : Job) (placement : Placement) : TransferRequest :=
  { artifact_id := job.artifact_id, source_placement_id := placement.val.placement_id,
    target_server_id := job.target_server_id, target_path := job.target_path, strategy := job.strategy_requested }

/-- `retry`, of a job that is found. -/
def retry (site : Site) (job : Job) : Except Raised Job :=
  if !job.state.terminal then .error (.app "only failed, completed or cancelled jobs can be retried".toList)
  else
    match findPlacement site job.source_path with
    | none => .error (.app "source placement no longer exists".toList)
    | some placement =>
      if (requestAgain job placement).bounds then create site (requestAgain job placement)
      else .error (.failure .validation)

/-! ### What a retry should do -/

/-- The same transfer, in whatever state. -/
structure SameTransfer (job new : Job) : Prop where
  artifact : new.artifact_id = job.artifact_id
  source_server : new.source_server_id = job.source_server_id
  source_path : new.source_path = job.source_path
  target_server : new.target_server_id = job.target_server_id
  target_path : new.target_path = job.target_path
  strategy : new.strategy_requested = job.strategy_requested

/-- The job was created by the service, from a request that passed its checks. -/
def Created (job : Job) : Prop :=
  ∃ site request old, TransferRequest.bounds request = true ∧ create site request = .ok old ∧ SameTransfer old job

/-- The placement is one of the job's artifact at its source. -/
def AtSource (job : Job) (p : Placement) : Prop :=
  p.val.artifact_id = job.artifact_id ∧ p.val.server_id = job.source_server_id ∧ p.val.remote_path = job.source_path

/-- Both servers are enabled, the artifact exists, and the target is free. -/
structure Open (site : Site) (job : Job) (source_server_id : Text) : Prop where
  running : site.stopped = false
  artifact : site.repo.artifacts.Has job.artifact_id
  source : site.enabled source_server_id = some true
  target : site.enabled job.target_server_id = some true
  apart : source_server_id ≠ job.target_server_id
  free : site.target_locks.get (targetKey job.target_server_id job.target_path) = none

/-- What is excluded from the artifact fits a job. -/
def ExcludesFit (site : Site) (job : Job) : Prop :=
  ∃ excludes, resolveExcludes site.repo job.artifact_id = .ok excludes ∧ excludes.length ≤ maxJobExcludes

/-- The transfer can be repeated. -/
def Repeatable (site : Site) (job : Job) : Prop :=
  (∃ p ∈ site.repo.placements.rows, AtSource job p) ∧ Open site job job.source_server_id

/-- A retry makes the same transfer, and makes it when it can be repeated. -/
def RetryRepeats (site : Site) (job : Job) : Prop :=
  (∀ new, retry site job = .ok new → SameTransfer job new) ∧
    (Repeatable site job → ∃ new, retry site job = .ok new)

/-! ### What `create` accepts -/

/-- The placement, the path and the excludes with which a request is accepted. -/
structure Accepted (site : Site) (request : TransferRequest) (placement : Placement) (target_path : Text)
    (excludes : List Text) : Prop where
  running : site.stopped = false
  artifact : site.repo.artifacts.Has request.artifact_id
  found : site.repo.placements.get request.source_placement_id = some placement
  belongs : placement.val.artifact_id = request.artifact_id
  source : site.enabled placement.val.server_id = some true
  target : site.enabled request.target_server_id = some true
  apart : placement.val.server_id ≠ request.target_server_id
  path : cleanPath request.target_path = .ok target_path
  resolved : resolveExcludes site.repo request.artifact_id = .ok excludes
  free : site.target_locks.get (targetKey request.target_server_id target_path) = none
  fits : excludes.length ≤ maxJobExcludes

/-- The job of an accepted request. -/
def queuedJob (request : TransferRequest) (placement : Placement) (target_path : Text) (excludes : List Text) : Job :=
  { artifact_id := request.artifact_id, source_server_id := placement.val.server_id,
    source_path := placement.val.remote_path, target_server_id := request.target_server_id, target_path,
    strategy_requested := request.strategy, excludes }

lemma read_ok {site : Site} {q : Query} {a : q.Ans} (h : site.read q = .ok a) : site.repo.read q = .ok a := by
  unfold Site.read at h
  cases hr : site.repo.read q with
  | error f =>
    rw [hr] at h
    cases h
  | ok b =>
    rw [hr] at h
    cases h
    rfl

lemma found_ok {α : Type} {label id : Text} {record : Option α} {a : α} (h : found label id record = .ok a) :
    record = some a := by
  cases record with
  | none => cases h
  | some b =>
    cases h
    rfl

lemma server_ok {site : Site} {server_id : Text} {b : Bool} (h : site.server server_id = .ok b) :
    site.enabled server_id = some b := by
  unfold Site.server at h
  cases he : site.enabled server_id with
  | none =>
    rw [he] at h
    cases h
  | some c =>
    rw [he] at h
    cases h
    rfl

lemma create_inv {site : Site} {request : TransferRequest} {job : Job} (h : create site request = .ok job) :
    ∃ placement target_path excludes, Accepted site request placement target_path excludes ∧
      job = queuedJob request placement target_path excludes := by
  unfold create at h
  split at h
  · cases h
  · rename_i hrunning
    obtain ⟨artifact, hartifact, h⟩ := Except.ok_of_bind h
    obtain ⟨placement, hplacement, h⟩ := Except.ok_of_bind h
    have hfound := found_ok (read_ok hplacement)
    split at h
    · cases h
    · rename_i hbelongs
      obtain ⟨source, hsource, h⟩ := Except.ok_of_bind h
      obtain ⟨target, htarget, h⟩ := Except.ok_of_bind h
      split at h
      · cases h
      · rename_i henabled
        split at h
        · cases h
        · rename_i hapart
          unfold createJob at h
          obtain ⟨target_path, hpath, h⟩ := Except.ok_of_bind h
          obtain ⟨excludes, hexcludes, h⟩ := Except.ok_of_bind h
          dsimp only at h
          split at h
          · cases h
          · rename_i hfree
            split at h
            · rename_i hfits
              rw [Bool.or_eq_true, Bool.not_eq_true', Bool.not_eq_true', not_or, Bool.not_eq_false,
                Bool.not_eq_false] at henabled
              refine ⟨placement, target_path, excludes, ?_, (Except.ok.inj h).symm⟩
              exact {
                running := Bool.not_eq_true _ ▸ hrunning
                artifact := Table.has_of_get (found_ok (read_ok hartifact))
                found := hfound
                belongs := not_not.1 hbelongs
                source := henabled.1 ▸ server_ok hsource
                target := henabled.2 ▸ server_ok htarget
                apart := hapart
                path := hpath
                resolved := hexcludes
                free := Option.not_isSome_iff_eq_none.1 hfree
                fits := hfits }
            · cases h

lemma create_of_accepted {site : Site} {request : TransferRequest} {placement : Placement} {target_path : Text}
    {excludes : List Text} (h : Accepted site request placement target_path excludes) :
    create site request = .ok (queuedJob request placement target_path excludes) := by
  obtain ⟨artifact, hartifact⟩ : ∃ a, site.repo.artifacts.get request.artifact_id = some a := by
    cases hget : site.repo.artifacts.get request.artifact_id with
    | none => exact absurd h.artifact (Table.get_eq_none.1 hget)
    | some a => exact ⟨a, rfl⟩
  have hread : site.read (.getArtifact request.artifact_id) = .ok artifact := by
    show ((found _ _ (site.repo.artifacts.get request.artifact_id)).mapError _) = _
    rw [hartifact]
    rfl
  have hplacement : site.read (.getPlacement request.source_placement_id) = .ok placement := by
    show ((found _ _ (site.repo.placements.get request.source_placement_id)).mapError _) = _
    rw [h.found]
    rfl
  have hserver : ∀ id, site.enabled id = some true → site.server id = .ok true := by
    intro id hid
    unfold Site.server
    rw [hid]
  unfold create
  rw [h.running, hread, hplacement]
  show (if placement.val.artifact_id ≠ request.artifact_id then _ else _) = _
  rw [if_neg (not_not.2 h.belongs), hserver _ h.source, hserver _ h.target]
  show (if placement.val.server_id = request.target_server_id then _ else createJob site request placement) = _
  rw [if_neg h.apart]
  unfold createJob
  rw [h.path, h.resolved]
  show (if (site.target_locks.get (targetKey request.target_server_id target_path)).isSome = true then _ else _) = _
  rw [h.free]
  exact if_pos h.fits

/-! ### What a retry does -/

/-- A path that was cleaned stays. -/
lemma cleanPath_cleanPath {path cleaned : Text} (h : cleanPath path = .ok cleaned) :
    cleanPath cleaned = .ok cleaned ∧ 1 ≤ cleaned.length ∧ cleaned.length ≤ path.length := by
  unfold cleanPath at h ⊢
  dsimp only at h ⊢
  split at h
  · cases h
  · rename_i hclean
    cases h
    rw [PyText.strip_strip, if_neg hclean]
    refine ⟨rfl, ?_, ?_⟩
    · rw [Bool.or_eq_true, decide_eq_true_eq, not_or] at hclean
      exact List.length_pos_iff.2 hclean.1
    · unfold PyText.strip
      rw [List.length_reverse]
      have houter := (List.dropWhile_sublist PyText.isSpace (l := (path.dropWhile PyText.isSpace).reverse)).length_le
      have hinner := (List.dropWhile_sublist PyText.isSpace (l := path)).length_le
      rw [List.length_reverse] at houter
      exact houter.trans hinner

/-- What is asked for again passes the bounds of a request. -/
lemma bounds_requestAgain {job : Job} (h : Created job) (p : Placement) :
    (requestAgain job p).bounds = true ∧ cleanPath job.target_path = .ok job.target_path := by
  obtain ⟨site, request, old, hbounds, hold, hsame⟩ := h
  obtain ⟨placement, target_path, excludes, haccepted, rfl⟩ := create_inv hold
  obtain ⟨hclean, hlow, hhigh⟩ := cleanPath_cleanPath haccepted.path
  have hpath : target_path = job.target_path := hsame.target_path.symm
  have hartifact : request.artifact_id = job.artifact_id := hsame.artifact.symm
  have htarget : request.target_server_id = job.target_server_id := hsame.target_server.symm
  have hid : within 1 64 p.val.placement_id = true := by
    have hvalid : passing PlacementRecord.bounds p.val = some p.val := p.valid
    unfold passing at hvalid
    split at hvalid
    · rename_i hb
      simp only [PlacementRecord.bounds, Bool.and_eq_true] at hb
      exact hb.1.1.1
    · cases hvalid
  simp only [TransferRequest.bounds, Bool.and_eq_true] at hbounds ⊢
  obtain ⟨⟨⟨hba, -⟩, hbt⟩, hbp⟩ := hbounds
  rw [hartifact] at hba
  rw [htarget] at hbt
  rw [hpath] at hclean hlow hhigh
  refine ⟨⟨⟨⟨hba, hid⟩, hbt⟩, ?_⟩, hclean⟩
  unfold within at hbp ⊢
  rw [Bool.and_eq_true, decide_eq_true_eq, decide_eq_true_eq] at hbp ⊢
  exact ⟨hlow, hhigh.trans hbp.2⟩

/-- A retry makes a job exactly when the first placement with the path is one of the artifact, its server and the
target are open, and what is excluded fits. -/
lemma retry_ok_iff {site : Site} {job new : Job} (hjob : Created job) (hterminal : job.state.terminal = true) :
    retry site job = .ok new ↔ ∃ p excludes, findPlacement site job.source_path = some p ∧
      p.val.artifact_id = job.artifact_id ∧ Open site job p.val.server_id ∧
      resolveExcludes site.repo job.artifact_id = .ok excludes ∧ excludes.length ≤ maxJobExcludes ∧
      new = queuedJob (requestAgain job p) p job.target_path excludes := by
  unfold retry
  rw [hterminal]
  show (match findPlacement site job.source_path with | none => _ | some p => _) = _ ↔ _
  cases hfind : findPlacement site job.source_path with
  | none =>
    refine iff_of_false (fun h => by cases h) ?_
    rintro ⟨p, excludes, hp, -⟩
    cases hp
  | some p =>
    obtain ⟨hbounds, hclean⟩ := bounds_requestAgain hjob p
    have hget : site.repo.placements.get p.val.placement_id = some p :=
      Table.get_eq_some.2 ⟨List.mem_of_find?_eq_some hfind, rfl⟩
    dsimp only
    rw [if_pos hbounds]
    constructor
    · intro h
      obtain ⟨q, target_path, excludes, hq, rfl⟩ := create_inv h
      obtain rfl := Option.some.inj (hget.symm.trans hq.found)
      obtain rfl := Except.ok.inj (hclean.symm.trans hq.path)
      exact ⟨p, excludes, rfl, hq.belongs, ⟨hq.running, hq.artifact, hq.source, hq.target, hq.apart, hq.free⟩,
        hq.resolved, hq.fits, rfl⟩
    · rintro ⟨q, excludes, hq, hartifact, hopen, hresolved, hfits, rfl⟩
      obtain rfl := Option.some.inj hq
      exact create_of_accepted ⟨hopen.running, hopen.artifact, hget, hartifact, hopen.source, hopen.target, hopen.apart,
        hclean, hresolved, hopen.free, hfits⟩

/-- The first placement with the path is one of the job's artifact at its source. -/
def FirstAtSource (site : Site) (job : Job) : Prop :=
  ∃ p, findPlacement site job.source_path = some p ∧ AtSource job p

/-- The first placement with the path makes a job of another server. -/
def Misled (site : Site) (job : Job) : Prop :=
  ∃ p, findPlacement site job.source_path = some p ∧ p.val.artifact_id = job.artifact_id ∧
    Open site job p.val.server_id ∧ ExcludesFit site job

/-- A retry repeats its transfer exactly when the first placement with the path is at the source, and what is excluded
fits a job if it can be repeated; or when it can neither be repeated nor be misled. -/
theorem retry_repeats_iff (site : Site) (job : Job) (hjob : Created job) (hterminal : job.state.terminal = true) :
    RetryRepeats site job ↔
      (FirstAtSource site job ∧ (Repeatable site job → ExcludesFit site job)) ∨
        (¬FirstAtSource site job ∧ ¬Repeatable site job ∧ ¬Misled site job) := by
  have hpath : ∀ p, findPlacement site job.source_path = some p → p.val.remote_path = job.source_path := by
    intro p hp
    have hfound := List.find?_some hp
    exact of_decide_eq_true hfound
  constructor
  · rintro ⟨hsame, hmakes⟩
    by_cases hfirst : FirstAtSource site job
    · refine .inl ⟨hfirst, fun hrepeatable => ?_⟩
      obtain ⟨new, hnew⟩ := hmakes hrepeatable
      obtain ⟨p, excludes, -, -, -, hresolved, hfits, -⟩ := (retry_ok_iff hjob hterminal).1 hnew
      exact ⟨excludes, hresolved, hfits⟩
    · -- whatever is made has the first placement as its source
      have hnone : ∀ new, retry site job ≠ .ok new := by
        intro new hnew
        have hserver := (hsame new hnew).source_server
        obtain ⟨p, excludes, hp, hartifact, -, -, -, rfl⟩ := (retry_ok_iff hjob hterminal).1 hnew
        exact hfirst ⟨p, hp, hartifact, hserver, hpath p hp⟩
      refine .inr ⟨hfirst, fun hrepeatable => ?_, ?_⟩
      · obtain ⟨new, hnew⟩ := hmakes hrepeatable
        exact hnone new hnew
      · rintro ⟨p, hp, hartifact, hopen, excludes, hresolved, hfits⟩
        exact hnone _ ((retry_ok_iff hjob hterminal).2 ⟨p, excludes, hp, hartifact, hopen, hresolved, hfits, rfl⟩)
  · rintro (⟨⟨p, hp, hartifact, hserver, -⟩, hfit⟩ | ⟨-, hrepeatable, hmisled⟩)
    · constructor
      · intro new hnew
        obtain ⟨q, excludes, hq, -, -, -, -, rfl⟩ := (retry_ok_iff hjob hterminal).1 hnew
        obtain rfl := Option.some.inj (hp.symm.trans hq)
        exact ⟨rfl, hserver, hpath p hp, rfl, rfl, rfl⟩
      · intro hr
        obtain ⟨excludes, hresolved, hfits⟩ := hfit hr
        exact ⟨_, (retry_ok_iff hjob hterminal).2 ⟨p, excludes, hp, hartifact, hserver ▸ hr.2, hresolved, hfits, rfl⟩⟩
    · constructor
      · intro new hnew
        obtain ⟨p, excludes, hp, hartifact, hopen, hresolved, hfits, -⟩ := (retry_ok_iff hjob hterminal).1 hnew
        exact absurd ⟨p, hp, hartifact, hopen, excludes, hresolved, hfits⟩ hmisled
      · intro hr
        exact absurd hr hrepeatable

/-! ### One path on two servers -/

/-- The artifact is at one path on two servers, the other one first. -/
def twoServers : Site where
  stopped := false
  repo := { Repo.empty with
    artifacts := ⟨[⟨{ artifact_id := "a".toList, kind := .dataset, name := "d".toList }, by decide⟩], by decide⟩
    placements := ⟨[
      ⟨{ placement_id := "1".toList, artifact_id := "a".toList, server_id := "x".toList, remote_path := "/d".toList },
        by decide⟩,
      ⟨{ placement_id := "2".toList, artifact_id := "a".toList, server_id := "s".toList, remote_path := "/d".toList },
        by decide⟩], by decide⟩ }
  enabled _ := some true
  target_locks := []

/-- The job from the server to `t`. -/
def jobFrom (source_server_id : Text) (state : TransferState) : Job :=
  { artifact_id := "a".toList, source_server_id, source_path := "/d".toList,
    target_server_id := "t".toList, target_path := "/d".toList, strategy_requested := .auto, excludes := [], state }

/-- The request for it. -/
def requestFor (source_placement_id : Text) : TransferRequest :=
  { artifact_id := "a".toList, source_placement_id, target_server_id := "t".toList, target_path := "/d".toList }

lemma created_second : Created (jobFrom "s".toList .failed) :=
  ⟨twoServers, requestFor "2".toList, jobFrom "s".toList .queued, by decide, by decide +kernel,
    ⟨rfl, rfl, rfl, rfl, rfl, rfl⟩⟩

/-- The retry copies from the other server. -/
theorem retry_repeats_not : ¬ ∀ (site : Site) (job : Job), Created job → job.state.terminal = true →
    RetryRepeats site job := by
  intro h
  have hmade : retry twoServers (jobFrom "s".toList .failed) = .ok (jobFrom "x".toList .queued) := by decide +kernel
  have hserver := ((h twoServers _ created_second rfl).1 _ hmade).source_server
  exact absurd hserver (by decide)

/-- The retry of the job from the first of the two. -/
theorem retry_repeats_first : RetryRepeats twoServers (jobFrom "x".toList .failed) := by
  have hcreated : Created (jobFrom "x".toList .failed) :=
    ⟨twoServers, requestFor "1".toList, jobFrom "x".toList .queued, by decide, by decide +kernel,
      ⟨rfl, rfl, rfl, rfl, rfl, rfl⟩⟩
  refine (retry_repeats_iff _ _ hcreated rfl).2 (.inl ⟨⟨twoServers.repo.placements.rows.head (by decide), rfl, ?_⟩, ?_⟩)
  · exact ⟨rfl, rfl, rfl⟩
  · exact fun _ => ⟨[], by decide +kernel, Nat.zero_le _⟩

end SshGpuConsole.Transfers
