import SshGpuConsole.Transfer.Retry

/-!
# The excludes of a transfer

`_resolve_excludes` collects the patterns of the projects that refer to an artifact, and `TransferJob` and
`TransferPlan` (`models/transfer.py`) take as many as one project may have. A request that is fine otherwise is
accepted and planned exactly when the union is that short, and the projects can be read (`transferable_iff`).
-/

namespace SshGpuConsole.Transfers
open Shell (Text)
open Effect (Prog exec wp)
open Workspace
open SyncJobs (cleanPath)
open Preflight (Answers Planning planned)
open Planner (DedicatedKeyOptions)

/-- The patterns of the projects that refer to the artifact, each where it is first seen. -/
def sharedExcludes (repo : Repo) (artifact_id : Text) : List Text :=
  ((repo.projects.rows.filter fun p => p.val.artifact_ids.contains artifact_id).flatMap
    fun p => p.val.transfer_excludes).eraseDups

/-- `max_length` of the excludes of a plan. -/
def maxPlanExcludes : ℕ := 32

/-- `TransferService.plan`; the plan is validated before anything is probed. -/
def plan (cfg : Preflight.Config) (dedicated_key : Text → Text → Option DedicatedKeyOptions) (env : ℕ → Answers)
    (site : Site) (request : TransferRequest) : Except Raised Preflight.TransferPlan := do
  let placement ← site.read (.getPlacement request.source_placement_id)
  if placement.val.artifact_id ≠ request.artifact_id then
    .error (.app "source placement does not belong to the artifact".toList)
  else
    let target_path ← cleanPath request.target_path
    let _ ← site.server placement.val.server_id
    let _ ← site.server request.target_server_id
    let excludes ← resolveExcludes site.repo request.artifact_id
    if excludes.length ≤ maxPlanExcludes then
      planned cfg
        { requested := request.strategy, source_server_id := placement.val.server_id,
          target_server_id := request.target_server_id, source_path := placement.val.remote_path, target_path,
          artifact_id := request.artifact_id, excludes,
          dedicated_key := dedicated_key placement.val.server_id request.target_server_id } env
    else .error (.failure .validation)

/-- Nothing but the excludes can stand against the request. -/
structure Ready (site : Site) (request : TransferRequest) (placement : Placement) (target_path : Text) : Prop where
  running : site.stopped = false
  artifact : site.repo.artifacts.Has request.artifact_id
  found : site.repo.placements.get request.source_placement_id = some placement
  belongs : placement.val.artifact_id = request.artifact_id
  source : site.enabled placement.val.server_id = some true
  target : site.enabled request.target_server_id = some true
  apart : placement.val.server_id ≠ request.target_server_id
  path : cleanPath request.target_path = .ok target_path
  free : site.target_locks.get (targetKey request.target_server_id target_path) = none

/-! ### The union -/

section Union
variable {repo : Repo} {artifact_id : Text}

/-- One more pattern. -/
lemma eraseDups_concat (xs : List Text) (p : Text) :
    (xs ++ [p]).eraseDups = if p ∈ xs then xs.eraseDups else xs.eraseDups ++ [p] := by
  rw [List.eraseDups_append]
  split
  · rename_i h
    have hgone : [p].removeAll xs = [] := by simpa [List.removeAll] using h
    rw [hgone, List.eraseDups_nil, List.append_nil]
  · rename_i h
    have hstays : [p].removeAll xs = [p] := by simpa [List.removeAll] using h
    rw [hstays]
    rfl

/-- The patterns of a project go behind those that were seen. -/
lemma mergeExcludes_eq {ps : List Text} (h : ∀ p ∈ ps, p ≠ []) (xs : List Text) :
    mergeExcludes xs.eraseDups ps = (xs ++ ps).eraseDups := by
  induction ps generalizing xs with
  | nil =>
    rw [List.append_nil]
    rfl
  | cons p ps ih =>
    have hp := h p List.mem_cons_self
    have hseen : (p = [] ∨ xs.eraseDups.contains p = true) ↔ p ∈ xs := by
      rw [List.contains_iff_mem, List.mem_eraseDups]
      exact or_iff_right hp
    have hstep : mergeExcludes xs.eraseDups (p :: ps) = mergeExcludes (xs ++ [p]).eraseDups ps := by
      rw [eraseDups_concat, mergeExcludes, List.foldl_cons, ← mergeExcludes]
      simp only [hseen]
    rw [hstep, ih (fun q hq => h q (List.mem_cons_of_mem p hq)), List.append_assoc, List.singleton_append]

/-- One round of the loop over the projects, on the fields of the project. -/
def mergeProject (artifact_id : Text) (merged : List Text) (p : ProjectRecord) : List Text :=
  if p.artifact_ids.contains artifact_id then mergeExcludes merged p.transfer_excludes else merged

lemma foldl_mergeProject {ps : List ProjectRecord} (h : ∀ p ∈ ps, ∀ e ∈ p.transfer_excludes, e ≠ []) (xs : List Text) :
    ps.foldl (mergeProject artifact_id) xs.eraseDups =
      (xs ++ (ps.filter fun p => p.artifact_ids.contains artifact_id).flatMap fun p => p.transfer_excludes).eraseDups := by
  induction ps generalizing xs with
  | nil =>
    rw [List.filter_nil, List.flatMap_nil, List.append_nil]
    rfl
  | cons p ps ih =>
    have hrest := ih fun q hq => h q (List.mem_cons_of_mem p hq)
    rw [List.foldl_cons, mergeProject]
    cases hc : p.artifact_ids.contains artifact_id with
    | true =>
      rw [if_pos rfl, mergeExcludes_eq (h p List.mem_cons_self), hrest, List.filter_cons, if_pos hc, List.flatMap_cons,
        List.append_assoc]
    | false =>
      rw [if_neg Bool.false_ne_true, hrest, List.filter_cons, hc, if_neg Bool.false_ne_true]

/-- A stored pattern is not empty. -/
lemma exclude_ne_nil (p : Project) : ∀ e ∈ p.val.transfer_excludes, e ≠ [] := by
  have hvalid : ProjectRecord.validate p.val = some p.val := p.valid
  rw [ProjectRecord.validate] at hvalid
  split at hvalid
  · split at hvalid
    · rename_i cleaned hcleaned
      have hexcludes : cleaned = p.val.transfer_excludes :=
        congrArg ProjectRecord.transfer_excludes (Option.some.inj hvalid)
      rw [← hexcludes]
      exact (cleaned_cleanExcludes hcleaned).1.filled
    · cases hvalid
  · cases hvalid

/-- One project that cannot be read keeps all from being read. -/
lemma fits_of_projects {ps : List Project} {saves : ℕ → Bool} {qs : List Project}
    (h : (exec repository (withAllLaunchConfigIds ps) repo saves).1 = .ok qs) :
    ∀ p ∈ ps, (repo.launchConfigIds p.val.project_id).length ≤ maxLaunchConfigIds := by
  induction ps generalizing saves qs with
  | nil => exact fun p hp => absurd hp List.not_mem_nil
  | cons p ps ih =>
    by_cases hp : (repo.launchConfigIds p.val.project_id).length ≤ maxLaunchConfigIds
    · obtain ⟨q, -, hfirst⟩ := exec_withLaunchConfigIds saves p hp
      rw [withAllLaunchConfigIds, Prog.bind_eq, Effect.exec_bind_of_ok hfirst, Prog.bind_eq] at h
      cases hall : exec repository (withAllLaunchConfigIds ps) repo (Effect.later saves) with
      | mk r rest =>
        cases r with
        | error e =>
          rw [Effect.exec_bind_of_error (show _ = (_, rest.1, rest.2) from hall)] at h
          cases h
        | ok qs' =>
          have hothers := ih (show (exec repository (withAllLaunchConfigIds ps) repo (Effect.later saves)).1 = .ok qs' by rw [hall])
          exact fun p' hp' => (List.mem_cons.1 hp').elim (fun he => he ▸ hp) (hothers p')
    · rw [withAllLaunchConfigIds, Prog.bind_eq, Effect.exec_bind_of_error (exec_withLaunchConfigIds_error p hp)] at h
      cases h

/-- What is resolved is the union, when the projects can be read. -/
lemma resolveExcludes_ok_iff {excludes : List Text} :
    resolveExcludes repo artifact_id = .ok excludes ↔ repo.Fits ∧ excludes = sharedExcludes repo artifact_id := by
  have hunion : ∀ ps : List Project, ps.map (·.val) = repo.projects.rows.map repo.derived →
      ps.foldl (fun merged project => if project.val.artifact_ids.contains artifact_id
        then mergeExcludes merged project.val.transfer_excludes else merged) [] = sharedExcludes repo artifact_id := by
    intro ps hps
    have hrecords : ps.foldl (fun merged project => mergeProject artifact_id merged project.val) [] =
        (repo.projects.rows.map (·.val)).foldl (mergeProject artifact_id) [] := by
      rw [← List.foldl_map, hps, List.foldl_map, List.foldl_map]
      rfl
    have hstored : ∀ p ∈ repo.projects.rows.map (·.val), ∀ e ∈ p.transfer_excludes, e ≠ [] := by
      intro p hp
      obtain ⟨q, -, rfl⟩ := List.mem_map.1 hp
      exact exclude_ne_nil q
    refine hrecords.trans ((foldl_mergeProject hstored []).trans ?_)
    rw [sharedExcludes, List.nil_append, List.filter_map, List.flatMap_map]
    rfl
  constructor
  · intro h
    unfold resolveExcludes at h
    split at h
    · cases h
    · rename_i ps hps
      have hfits : repo.Fits := by
        rw [projects, Prog.bind_eq, Effect.exec_bind_of_ok (exec_read .projects repo _)] at hps
        exact fits_of_projects hps
      obtain ⟨qs, hqs, hval⟩ := (readable_iff_fits.2 hfits).projects fun _ => true
      obtain rfl := Except.ok.inj (hps.symm.trans hqs)
      exact ⟨hfits, (Except.ok.inj h).symm.trans (hunion ps hval)⟩
  · rintro ⟨hfits, rfl⟩
    obtain ⟨qs, hqs, hval⟩ := (readable_iff_fits.2 hfits).projects fun _ => true
    unfold resolveExcludes
    rw [hqs]
    exact congrArg Except.ok (hunion qs hval)

end Union

/-! ### Planning never fails -/

/-- What is raised is caught by `except Exception`. -/
structure Ordinary (c : Answers) : Prop where
  run : ∀ e, c.run = .error e → e.isException = true
  params : ∀ e, c.params = .error e → e.isException = true
  session : ∀ e, c.session = .error e → e.isException = true
  probe : ∀ e, c.probe = .error e → e.isException = true
  close : ∀ e, c.close = .error e → e.isException = true

/-- Every run that meets ordinary exceptions only ends in the postcondition. -/
def Plans {α : Type} (p : Planning α) (Q : Except Raised α → Prop) : Prop :=
  wp Preflight.servers (fun _ _ c => Ordinary c) (fun _ _ => True) p (fun r _ => Q r) ()

/-- The program returns, and its value is so. -/
def Returns {α : Type} (p : Planning α) (Q : α → Prop) : Prop := Plans p fun r => ∃ a, r = .ok a ∧ Q a

/-- The program raises ordinary exceptions only. -/
def Tame {α : Type} (p : Planning α) : Prop := Plans p fun r => ∀ e, r = .error e → e.isException = true

section Planning
variable {α β : Type} {cfg : Preflight.Config}

lemma returns_ret {a : α} {Q : α → Prop} (h : Q a) : Returns (Prog.ret a : Planning α) Q := ⟨a, rfl, h⟩

lemma returns_bind {p : Planning α} {f : α → Planning β} {Q : α → Prop} {R : β → Prop} (hp : Returns p Q)
    (hf : ∀ a, Q a → Returns (f a) R) : Returns (p.bind f) R := by
  refine Effect.wp_bind_of hp ?_ ?_
  · rintro a s ⟨b, hb, hq⟩
    cases hb
    exact hf a hq
  · rintro e s ⟨b, hb, -⟩
    cases hb

lemma tame_of_returns {p : Planning α} {Q : α → Prop} (h : Returns p Q) : Tame p :=
  Effect.wp_mono (fun r s hr e he => by
    obtain ⟨a, ha, -⟩ := hr
    cases ha.symm.trans he) h

lemma tame_ret (a : α) : Tame (Prog.ret a : Planning α) := fun e he => by cases he

lemma tame_bind {p : Planning α} {f : α → Planning β} (hp : Tame p) (hf : ∀ a, Tame (f a)) : Tame (p.bind f) :=
  Effect.wp_bind_of hp (fun a _ _ => hf a) fun _ _ he e' he' => by
    cases he'
    exact he _ rfl

lemma tame_call (o : Preflight.PlanOp) : Tame (Preflight.call o) := by
  show wp Preflight.servers (fun _ _ c => Ordinary c) (fun _ _ => True) (Prog.perform o) _ ()
  refine (Effect.wp_perform o _ ()).2 ⟨trivial, fun c hc => ?_⟩
  cases o with
  | run server_id command => exact hc.run
  | resolveParams server_id => exact hc.params
  | session server_id => exact hc.session
  | probe command => exact hc.probe
  | close => exact hc.close

/-- What is tried is caught. -/
lemma returns_trying {p : Planning α} (h : Tame p) : Returns (Preflight.trying p) fun _ => True := by
  refine Effect.wp_catching h (fun a _ _ => ⟨_, rfl, trivial⟩) (fun e _ _ _ => ⟨_, rfl, trivial⟩) ?_
  intro e _ hk he
  rw [he e rfl] at hk
  cases hk

lemma returns_rsyncPresent (server_id : Text) : Returns (Preflight.rsyncPresent server_id) fun _ => True := by
  refine returns_bind (returns_trying (tame_call _)) fun r _ => ?_
  cases r with
  | ok result => exact returns_ret trivial
  | error e => exact returns_ret trivial

lemma returns_ite {b : Prop} [Decidable b] {p q : Planning α} {Q : α → Prop} (hp : Returns p Q) (hq : Returns q Q) :
    Returns (if b then p else q) Q := Effect.wp_ite (fun _ => hp) fun _ => hq

lemma returns_probeSourceSize (server_id source_path : Text) :
    Returns (Preflight.probeSourceSize cfg server_id source_path) fun _ => True := by
  refine returns_bind (returns_trying (tame_call _)) fun r _ => ?_
  cases r with
  | ok result => exact returns_ite (returns_ret trivial) (returns_ret trivial)
  | error e => exact returns_ret trivial

lemma returns_probeTargetFree (server_id target_path : Text) :
    Returns (Preflight.probeTargetFree cfg server_id target_path) fun _ => True := by
  refine returns_bind (returns_trying (tame_call _)) fun r _ => ?_
  cases r with
  | ok result => exact returns_ite (returns_ret trivial) (returns_ret trivial)
  | error e => exact returns_ret trivial

lemma returns_sshProbe (command : Text) : Returns (Preflight.sshProbe cfg command) fun _ => True := by
  refine returns_bind (returns_trying (tame_call _)) fun r _ => ?_
  cases r with
  | ok result => exact returns_ret trivial
  | error e => exact returns_ret trivial

lemma tame_probeLadder (asked : Preflight.Asked) : Tame (Preflight.probeLadder cfg asked) := by
  refine tame_bind (tame_call _) fun params => tame_bind (tame_call _) fun _ => ?_
  refine tame_bind (tame_of_returns (returns_sshProbe _)) fun native => ?_
  -- whatever was probed, the session is closed at the end
  have hclose : ∀ probed : Preflight.Probed, Tame ((Preflight.call .close).bind fun _ => Prog.ret probed) := fun probed =>
    tame_bind (tame_call _) fun _ => tame_ret probed
  refine Effect.wp_ite (fun _ => hclose _) fun _ => ?_
  cases asked.dedicated_key with
  | none => exact hclose _
  | some key => exact tame_bind (tame_of_returns (returns_sshProbe _)) fun _ => hclose _

lemma returns_probeRoute (asked : Preflight.Asked) (rsync_both : Bool) :
    Returns (Preflight.probeRoute cfg asked rsync_both) fun _ => True := by
  refine returns_ite (returns_ret trivial) ?_
  refine returns_bind (returns_trying (tame_probeLadder asked)) fun r _ => ?_
  cases r with
  | ok probed => exact returns_ret trivial
  | error e => exact returns_ret trivial

/-- `plan_transfer` returns a plan with the excludes it is given. -/
lemma planned_ok {asked : Preflight.Asked} {env : ℕ → Answers} (h : ∀ n, Ordinary (env n)) :
    ∃ plan, planned cfg asked env = .ok plan ∧ plan.excludes = asked.excludes := by
  have hplan : Returns (Preflight.planTransfer cfg asked) fun plan => plan.excludes = asked.excludes := by
    refine returns_bind (returns_probeSourceSize _ _) fun source_size_b _ => ?_
    refine returns_bind (returns_probeTargetFree _ _) fun target_free_b _ => ?_
    refine returns_bind (returns_rsyncPresent _) fun rsync_source _ => ?_
    refine returns_bind (returns_rsyncPresent _) fun rsync_target _ => ?_
    exact returns_bind (returns_probeRoute asked _) fun probed _ => returns_ret rfl
  exact Effect.wp_exec hplan (Effect.meets_of_forall fun n _ _ => h n)

end Planning

/-! ### Requests -/

section Requests
variable {site : Site} {request : TransferRequest} {placement : Placement} {target_path : Text}

/-- What a ready request needs to be accepted. -/
lemma accepted_of_ready (h : Ready site request placement target_path)
    (hfits : (sharedExcludes site.repo request.artifact_id).length ≤ maxJobExcludes) (hread : site.repo.Fits) :
    Accepted site request placement target_path (sharedExcludes site.repo request.artifact_id) where
  running := h.running
  artifact := h.artifact
  found := h.found
  belongs := h.belongs
  source := h.source
  target := h.target
  apart := h.apart
  path := h.path
  resolved := resolveExcludes_ok_iff.2 ⟨hread, rfl⟩
  free := h.free
  fits := hfits

lemma plan_of_ready (h : Ready site request placement target_path)
    (hfits : (sharedExcludes site.repo request.artifact_id).length ≤ maxPlanExcludes) (hread : site.repo.Fits)
    (cfg : Preflight.Config) (dedicated_key : Text → Text → Option DedicatedKeyOptions) {env : ℕ → Answers}
    (henv : ∀ n, Ordinary (env n)) : ∃ p, plan cfg dedicated_key env site request = .ok p ∧
      p.excludes = sharedExcludes site.repo request.artifact_id := by
  have hplacement : site.read (.getPlacement request.source_placement_id) = .ok placement := by
    show ((found _ _ (site.repo.placements.get request.source_placement_id)).mapError _) = _
    rw [h.found]
    rfl
  have hserver : ∀ id, site.enabled id = some true → site.server id = .ok true := by
    intro id hid
    unfold Site.server
    rw [hid]
  unfold plan
  rw [hplacement]
  show ∃ p, (if placement.val.artifact_id ≠ request.artifact_id then _ else _ : Except Raised _) = .ok p ∧ _
  rw [if_neg (not_not.2 h.belongs), h.path, hserver _ h.source, hserver _ h.target,
    resolveExcludes_ok_iff.2 ⟨hread, rfl⟩]
  show ∃ p, (if (sharedExcludes site.repo request.artifact_id).length ≤ maxPlanExcludes then planned cfg _ env
    else _ : Except Raised _) = .ok p ∧ _
  rw [if_pos hfits]
  exact planned_ok henv

/-- A request that is ready is accepted and planned with the union of the excludes exactly when the union is within
the bound of a job, and each project has as many launch configs as its record takes. -/
theorem transferable_iff (h : Ready site request placement target_path) (cfg : Preflight.Config)
    (dedicated_key : Text → Text → Option DedicatedKeyOptions) {env : ℕ → Answers} (henv : ∀ n, Ordinary (env n)) :
    (create site request =
        .ok (queuedJob request placement target_path (sharedExcludes site.repo request.artifact_id)) ∧
      ∃ p, plan cfg dedicated_key env site request = .ok p ∧
        p.excludes = sharedExcludes site.repo request.artifact_id) ↔
      (sharedExcludes site.repo request.artifact_id).length ≤ 32 ∧ site.repo.Fits := by
  constructor
  · rintro ⟨hcreate, -⟩
    obtain ⟨p, path, excludes, haccepted, hjob⟩ := create_inv hcreate
    obtain ⟨hread, rfl⟩ := resolveExcludes_ok_iff.1 haccepted.resolved
    exact ⟨haccepted.fits, hread⟩
  · rintro ⟨hfits, hread⟩
    exact ⟨create_of_accepted (accepted_of_ready h hfits hread), plan_of_ready h hfits hread cfg dedicated_key henv⟩

end Requests

/-! ### Two projects with an artifact in common -/

/-- An artifact with a placement, and two projects of it that exclude `m` and `n` patterns. -/
def sharing (m n : ℕ) : List Issued :=
  [⟨.createArtifact { kind := .dataset, name := "images".toList }, drawing "a1", saved⟩,
    ⟨.createPlacement { artifact_id := "a1".toList, server_id := "s".toList, remote_path := "/d".toList },
      drawing "l1", saved⟩,
    ⟨.createProject { name := "p".toList, artifact_ids := ["a1".toList],
                      transfer_excludes := (List.range m).map fun i => List.replicate (i + 1) 'x' }, drawing "p1", saved⟩,
    ⟨.createProject { name := "q".toList, artifact_ids := ["a1".toList],
                      transfer_excludes := (List.range n).map fun i => List.replicate (i + 1) 'y' }, drawing "p2", saved⟩]

/-- The service over what the calls leave. -/
def sharingSite (m n : ℕ) : Site where
  stopped := false
  repo := settled (sharing m n)
  enabled _ := some true
  target_locks := []

def placed : Placement :=
  ⟨{ placement_id := "l1".toList, artifact_id := "a1".toList, server_id := "s".toList, remote_path := "/d".toList },
    by decide⟩

/-- The artifact goes to another server. -/
def toTarget : TransferRequest :=
  { artifact_id := "a1".toList, source_placement_id := "l1".toList, target_server_id := "t".toList,
    target_path := "/d".toList }

/-- Every call fails. -/
lemma ordinary_default : Ordinary {} where
  run e he := by cases he; rfl
  params e he := by cases he; rfl
  session e he := by cases he
  probe e he := by cases he; rfl
  close e he := by cases he

lemma ready_small : Ready (sharingSite 2 1) toTarget placed "/d".toList where
  running := rfl
  artifact := by decide +kernel
  found := by decide +kernel
  belongs := rfl
  source := rfl
  target := rfl
  apart := by decide
  path := by decide
  free := rfl

lemma fits_small : (sharingSite 2 1).repo.Fits := by
  have hall : ∀ p ∈ (sharingSite 2 1).repo.projects.rows,
      ((sharingSite 2 1).repo.launchConfigIds p.val.project_id).length ≤ maxLaunchConfigIds := by decide +kernel
  exact hall

/-- Three patterns are carried. -/
theorem transferable_small :
    create (sharingSite 2 1) toTarget =
        .ok (queuedJob toTarget placed "/d".toList (sharedExcludes (sharingSite 2 1).repo toTarget.artifact_id)) ∧
      ∃ p, plan ⟨fun _ => none, fun _ => []⟩ (fun _ _ => none) (fun _ => {}) (sharingSite 2 1) toTarget = .ok p ∧
        p.excludes = sharedExcludes (sharingSite 2 1).repo toTarget.artifact_id :=
  (transferable_iff ready_small ⟨fun _ => none, fun _ => []⟩ (fun _ _ => none) fun _ => ordinary_default).2
    ⟨by decide +kernel, fits_small⟩

theorem transferable_not : ¬∀ site request placement target_path, Ready site request placement target_path →
    create site request =
      .ok (queuedJob request placement target_path (sharedExcludes site.repo request.artifact_id)) := by
  intro h
  have hready : Ready (sharingSite 17 16) toTarget placed "/d".toList :=
    ⟨rfl, by decide +kernel, by decide +kernel, rfl, rfl, rfl, by decide, by decide, rfl⟩
  have herror : create (sharingSite 17 16) toTarget = .error (.failure .validation) := by decide +kernel
  cases herror.symm.trans (h _ _ _ _ hready)

end SshGpuConsole.Transfers
