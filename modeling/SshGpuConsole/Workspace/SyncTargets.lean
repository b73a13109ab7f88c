import SshGpuConsole.Workspace.SyncPlanner
import SshGpuConsole.Workspace.Integrity

/-!
# The targets of a plan

What the paths of a plan have to do with each other. The targets of a valid plan do not overlap, because their
components are compared. The suggested paths are compared as texts: they are directories of their own when no free
candidate is another spelling of a directory in use (`plan_targets`).
-/

namespace SshGpuConsole.Workspace
open Shell PyText
open Effect (Prog exec wp)

/-! ### Programs that leave the repository -/

/-- While the repository is `r`, it stays `r`, and the values the program returns are as wanted. -/
def Sees (r : Repo) {α : Type} (p : Watch α) (Q : α → Prop) : Prop :=
  ∀ s : Site, s.repo = r →
    wp site (fun _ _ _ => True) (fun _ _ => True) p (fun res s' => s'.repo = r ∧ ∀ a, res = .ok a → Q a) s

namespace Sees
variable {r : Repo} {α β : Type}

lemma ret {a : α} {Q : α → Prop} (h : Q a) : Sees r (Prog.ret a : Watch α) Q := by
  intro s hs
  refine ⟨hs, ?_⟩
  rintro _ ⟨⟩
  exact h

lemma raise {e : Raised} {Q : α → Prop} : Sees r (Prog.raise e : Watch α) Q := fun s hs => ⟨hs, fun _ h => by cases h⟩

lemma bind {p : Watch α} {f : α → Watch β} {R : α → Prop} {Q : β → Prop} (hp : Sees r p R)
    (hf : ∀ a, R a → Sees r (f a) Q) : Sees r (p.bind f) Q := by
  intro s hs
  refine Effect.wp_bind_of (hp s hs) ?_ ?_
  · rintro a s' ⟨hs', ha⟩
    exact hf a (ha a rfl) s' hs'
  · rintro e s' ⟨hs', -⟩
    exact ⟨hs', fun _ h => by cases h⟩

lemma mono {p : Watch α} {Q R : α → Prop} (hp : Sees r p Q) (h : ∀ a, Q a → R a) : Sees r p R := by
  intro s hs
  refine Effect.wp_mono ?_ (hp s hs)
  rintro res s' ⟨hs', ha⟩
  exact ⟨hs', fun a hres => h a (ha a hres)⟩

lemma catching {kind : Raised → Bool} {p : Watch α} {Q : Except Raised α → Prop} (hp : Sees r p fun a => Q (.ok a))
    (herror : ∀ e, Q (.error e)) : Sees r (Prog.catching kind p) Q := by
  intro s hs
  refine Effect.wp_catching (hp s hs) ?_ ?_ ?_
  · rintro a s' ⟨hs', ha⟩
    refine ⟨hs', ?_⟩
    rintro _ ⟨⟩
    exact ha a rfl
  · rintro e s' - ⟨hs', -⟩
    refine ⟨hs', ?_⟩
    rintro _ ⟨⟩
    exact herror e
  · rintro e s' - ⟨hs', -⟩
    exact ⟨hs', fun _ h => by cases h⟩

/-- A call that is no write of the repository. -/
lemma ask {o : SiteOp} (h : ∀ (c : SiteChoice) (s : Site), (site.act o c s).2.repo = s.repo) :
    Sees r (ask o) fun _ => True := by
  intro s hs
  rw [Workspace.ask, Effect.wp_perform]
  exact ⟨trivial, fun c _ => ⟨(h c s).trans hs, fun _ _ => trivial⟩⟩

end Sees

lemma ofService_bind {α β : Type} (p : Service α) (f : α → Service β) :
    ofService (p.bind f) = (ofService p).bind fun a => ofService (f a) := by
  induction p with
  | ret a => rfl
  | raise e => rfl
  | call o k ih => exact congrArg (Prog.call (SiteOp.repo o)) (funext fun res => ih _)

section Reading
variable {r : Repo}

/-- A query answers what the repository has. -/
lemma sees_read (q : Query) : Sees r (ofService (read q)) fun a => r.read q = .ok a := by
  intro s hs
  refine ⟨trivial, fun c _ => ?_⟩
  have hact : site.act (.repo (.read q)) c s = ((r.read q).mapError .failure, s) := by
    rw [← hs]
    rfl
  rw [hact]
  cases hread : r.read q with
  | ok a =>
    refine ⟨hs, ?_⟩
    rintro _ ⟨⟩
    exact hread.symm ▸ rfl
  | error e => exact ⟨hs, fun _ h => by cases h⟩

lemma sees_placementsOf (artifact_id : Text) :
    Sees r (ofService (placementsOf artifact_id)) fun ps =>
      ps = r.placements.rows.filter (·.val.artifact_id = artifact_id) :=
  (sees_read _).mono fun _ h => (Except.ok.inj h).symm

lemma sees_artifact (artifact_id : Text) :
    Sees r (ofService (artifact artifact_id)) fun a => a ∈ r.artifacts.rows ∧ a.val.artifact_id = artifact_id := by
  refine (sees_read _).mono fun a h => ?_
  unfold Repo.read found at h
  dsimp only at h
  split at h
  · rename_i hget
    cases h
    exact Table.get_eq_some.1 hget
  · cases h

lemma sees_placements : Sees r (ofService placements) fun ps => ps = r.placements.rows :=
  (sees_read _).mono fun _ h => (Except.ok.inj h).symm

/-- The project that is read has the artifacts of the stored one. -/
lemma sees_project (project_id : Text) :
    Sees r (ofService (project project_id)) fun p =>
      ∃ stored ∈ r.projects.rows, stored.val.project_id = project_id ∧ p.val.artifact_ids = stored.val.artifact_ids := by
  rw [project, Prog.bind_eq, ofService_bind]
  refine (sees_read _).bind fun stored hstored => ?_
  have hmem : stored ∈ r.projects.rows ∧ stored.val.project_id = project_id := by
    unfold Repo.read found at hstored
    dsimp only at hstored
    split at hstored
    · rename_i hget
      cases hstored
      exact Table.get_eq_some.1 hget
    · cases hstored
  rw [withLaunchConfigIds, Prog.bind_eq, ofService_bind]
  refine (sees_read _).bind fun configs _ => ?_
  dsimp only
  split
  · exact Sees.ret ⟨stored, hmem.1, hmem.2, rfl⟩
  · rw [validated]
    split
    · rename_i record hbuild
      rw [Option.bind_some] at hbuild
      have hvalid := Validated.build_val hbuild
      refine Sees.ret ⟨stored, hmem.1, hmem.2, ?_⟩
      have hval : ∀ {a b : ProjectRecord}, ProjectRecord.validate a = some b → b.artifact_ids = a.artifact_ids := by
        intro a b h
        unfold ProjectRecord.validate at h
        split at h
        · split at h
          · cases h
            rfl
          · cases h
        · cases h
      have hkept := hval hvalid
      exact hkept
    · exact Sees.raise

end Reading

/-! ### Directories -/

/-- Two paths name one directory: their components are the same. -/
def SameDirectory (a b : Text) : Prop := ∃ parts, components a = .ok parts ∧ components b = .ok parts

/-- One path is the other or an ancestor of it. -/
def Overlap (a b : Text) : Prop :=
  ∃ parts_a parts_b, components a = .ok parts_a ∧ components b = .ok parts_b ∧
    (parts_a <+: parts_b ∨ parts_b <+: parts_a)

/-- The targets of the TRANSFER items do not overlap. -/
def Separated (items : List ArtifactSyncItem) : Prop :=
  (items.filter (·.action = .transfer)).Pairwise fun a b =>
    ∀ p q, a.target_path = some p → b.target_path = some q → ¬Overlap p q

lemma not_overlap_of {a b : Text} (h : pathsOverlap a b = .ok false) : ¬Overlap a b := by
  rintro ⟨parts_a, parts_b, ha, hb, hover⟩
  obtain ⟨as, has, h⟩ := Except.ok_of_bind h
  obtain ⟨bs, hbs, h⟩ := Except.ok_of_bind h
  cases ha.symm.trans has
  cases hb.symm.trans hbs
  split at h
  · rename_i hlen
    have hno : ¬parts_b <+: parts_a := by
      intro hp
      cases (Except.ok.inj h).symm.trans (List.isPrefixOf_iff_prefix.2 hp)
    rcases hover with hp | hp
    · exact absurd hp.length_le (Nat.not_le.2 hlen)
    · exact hno hp
  · rename_i hlen
    have hno : ¬parts_a <+: parts_b := by
      intro hp
      cases (Except.ok.inj h).symm.trans (List.isPrefixOf_iff_prefix.2 hp)
    rcases hover with hp | hp
    · exact hno hp
    · have hle : parts_a.length = parts_b.length := Nat.le_antisymm (Nat.not_lt.1 hlen) hp.length_le
      exact hno (hp.eq_of_length hle.symm ▸ List.prefix_rfl)

lemma conflictsWith_nil {first : ArtifactSyncItem} {p : Text} {items : List ArtifactSyncItem}
    (h : conflictsWith first p items = .ok []) : ∀ b ∈ items, ∀ q, b.target_path = some q → ¬Overlap p q := by
  induction items with
  | nil => exact fun b hb => absurd hb List.not_mem_nil
  | cons second items ih =>
    rw [conflictsWith] at h
    intro b hb q hq
    cases hpath : second.target_path with
    | none =>
      rw [hpath] at h
      rcases List.mem_cons.1 hb with rfl | hb
      · cases hpath.symm.trans hq
      · exact ih h b hb q hq
    | some path_b =>
      rw [hpath] at h
      obtain ⟨overlap, hoverlap, h⟩ := Except.ok_of_bind h
      obtain ⟨others, hothers, h⟩ := Except.ok_of_bind h
      cases overlap with
      | true => cases h
      | false =>
        cases h
        rcases List.mem_cons.1 hb with rfl | hb
        · cases hpath.symm.trans hq
          exact not_overlap_of hoverlap
        · exact ih hothers b hb q hq

lemma conflictsAmong_nil {items : List ArtifactSyncItem} (h : conflictsAmong items = .ok []) :
    items.Pairwise fun a b => ∀ p q, a.target_path = some p → b.target_path = some q → ¬Overlap p q := by
  induction items with
  | nil => exact List.Pairwise.nil
  | cons first items ih =>
    rw [conflictsAmong] at h
    cases hpath : first.target_path with
    | none =>
      rw [hpath] at h
      exact List.Pairwise.cons (fun b _ p q hp => by cases hpath.symm.trans hp) (ih h)
    | some path_a =>
      rw [hpath] at h
      obtain ⟨conflicts, hconflicts, h⟩ := Except.ok_of_bind h
      obtain ⟨others, hothers, h⟩ := Except.ok_of_bind h
      obtain ⟨rfl, rfl⟩ := List.append_eq_nil_iff.1 (Except.ok.inj h)
      refine List.Pairwise.cons (fun b hb p q hp hq => ?_) (ih hothers)
      cases hpath.symm.trans hp
      exact conflictsWith_nil hconflicts b hb q hq

/-- A plan that is valid has targets that do not overlap. -/
lemma separated_of_valid {items : List ArtifactSyncItem} {error : Text} (h : overlapError items = .ok (true, error)) :
    Separated items := by
  obtain ⟨conflicts, hconflicts, h⟩ := Except.ok_of_bind h
  split at h
  · rename_i hnil
    rw [hnil] at hconflicts
    exact conflictsAmong_nil hconflicts
  · cases h

/-! ### Suggestions -/

/-- The artifact has no placement on the server. -/
def Unplaced (r : Repo) (server_id artifact_id : Text) : Prop :=
  ∀ p ∈ r.placements.rows, p.val.artifact_id = artifact_id → p.val.server_id ≠ server_id

/-- The placements of other artifacts on the server. -/
def Repo.othersOn (r : Repo) (server_id artifact_id : Text) : List Placement :=
  (r.placements.rows.filter (·.val.server_id = server_id)).filter (·.val.artifact_id ≠ artifact_id)

/-- The paths `claim_path` goes through. -/
def claimable (base artifact_id : Text) : List Text :=
  base :: [6, 8, 12, artifact_id.length].map fun width => base ++ "--".toList ++ artifact_id.take width

/-- The path is one that may be suggested for the artifact: under the root of its kind, and no placement of another
artifact on the server is declared under its name. -/
structure Candidate (cfg : SyncConfig) (r : Repo) (server_id artifact_id path : Text) : Prop where
  claimable : ∃ a ∈ r.artifacts.rows, ∃ roots root base, a.val.artifact_id = artifact_id ∧
    r.server_roots.get server_id = some roots ∧ rootForKind roots.2.val a.val.kind = some root ∧
    suggestedBase cfg.category root a = .ok base ∧ path ∈ claimable base artifact_id
  free : ∀ p ∈ r.othersOn server_id artifact_id, normalizeRemotePath p.val.remote_path ≠ .ok path

lemma claimPath_spec {base artifact_id path : Text} {taken : List Text} (h : claimPath base artifact_id taken = some path) :
    path ∈ claimable base artifact_id ∧ path ∉ taken := by
  unfold claimPath at h
  split at h
  · rename_i hfree
    cases h
    exact ⟨List.mem_cons_self, by simpa using hfree⟩
  · have hfree := List.find?_some h
    exact ⟨List.mem_cons_of_mem _ (List.mem_of_find?_eq_some h), by simpa using hfree⟩

lemma mem_of_mapM {α β ε : Type} {f : α → Except ε β} {as : List α} {bs : List β} (h : as.mapM f = .ok bs) {a : α}
    (ha : a ∈ as) : ∃ b ∈ bs, f a = .ok b := by
  induction as generalizing bs with
  | nil => exact absurd ha List.not_mem_nil
  | cons x as ih =>
    rw [List.mapM_cons] at h
    obtain ⟨b, hb, h⟩ := Except.ok_of_bind h
    obtain ⟨bs', hbs, h⟩ := Except.ok_of_bind h
    cases h
    rcases List.mem_cons.1 ha with rfl | ha
    · exact ⟨b, List.mem_cons_self, hb⟩
    · obtain ⟨b', hmem, hb'⟩ := ih hbs ha
      exact ⟨b', List.mem_cons_of_mem _ hmem, hb'⟩

section Planning
variable {cfg : SyncConfig} {r : Repo} {request : SyncPlanRequest} {snapshot : Snapshot} {artifact : Artifact}

lemma sees_ofConflict {α : Type} (x : Except Conflict α) : Sees r (ofConflict x) fun a => x = .ok a := by
  cases x with
  | ok a => exact Sees.ret rfl
  | error c => exact Sees.raise

lemma sees_suggestedTargetPath (server_id : Text) :
    Sees r (suggestedTargetPath cfg artifact server_id) fun base => ∀ b, base = some b →
      ∃ roots root, r.server_roots.get server_id = some roots ∧ rootForKind roots.2.val artifact.val.kind = some root ∧
        suggestedBase cfg.category root artifact = .ok b := by
  rw [suggestedTargetPath, Prog.bind_eq]
  refine Sees.bind (R := fun res => ∀ found, res = .ok found →
    found = (r.server_roots.get server_id).map Prod.snd) ?_ ?_
  · refine Sees.catching ?_ fun _ _ h => by cases h
    rw [serverRoots]
    split
    · exact Sees.raise
    · refine (sees_read _).mono fun found hfound => ?_
      rintro _ ⟨⟩
      exact (Except.ok.inj hfound).symm
  · intro res hres
    cases res with
    | error e => exact Sees.ret fun _ h => by cases h
    | ok found =>
      cases hres found rfl
      dsimp only
      split
      · exact Sees.ret fun _ h => by cases h
      · exact Sees.ret fun _ h => by cases h
      · rename_i root _ hroot
        obtain ⟨roots, hroots, hkind⟩ := Option.bind_eq_some_iff.1 hroot
        obtain ⟨pair, hpair, rfl⟩ := Option.map_eq_some_iff.1 hroots
        show Sees r ((ofConflict (suggestedBase cfg.category root artifact)).bind fun base => Prog.ret (some base)) _
        refine (sees_ofConflict _).bind fun base hbase => Sees.ret ?_
        rintro _ ⟨⟩
        exact ⟨pair, root, hpair, hkind, hbase⟩

/-- A path that is suggested is a candidate, and no suggestion so far; it is registered. -/
lemma sees_suggestPath (hartifact : artifact ∈ r.artifacts.rows) {target_placements : List Placement} {server_id : Text}
    (htarget : target_placements = r.placements.rows.filter (·.val.server_id = server_id))
    {suggested : Dict Text Text} :
    Sees r (suggestPath cfg artifact server_id target_placements suggested) fun res => ∀ path suggested',
      res = .ok (path, suggested') → Candidate cfg r server_id artifact.val.artifact_id path ∧
        path ∉ suggested.map Prod.fst ∧ suggested' = Dict.set path artifact.val.artifact_id suggested := by
  rw [suggestPath, Prog.bind_eq]
  refine (sees_suggestedTargetPath server_id).bind fun base hbase => ?_
  cases base with
  | none => exact Sees.ret fun _ _ h => by cases h
  | some base =>
    obtain ⟨roots, root, hroots, hkind, hbase⟩ := hbase base rfl
    refine (sees_ofConflict _).bind fun taken htaken => ?_
    split
    · exact Sees.ret fun _ _ h => by cases h
    · rename_i path hclaim
      refine Sees.ret ?_
      rintro _ _ ⟨⟩
      obtain ⟨hmem, hfree⟩ := claimPath_spec hclaim
      obtain ⟨paths, hpaths, htaken⟩ := Except.ok_of_bind htaken
      cases htaken
      rw [List.mem_append, not_or] at hfree
      refine ⟨⟨⟨artifact, hartifact, roots, root, base, rfl, hroots, hkind, hbase, hmem⟩, fun p hp hnorm => ?_⟩,
        hfree.2, rfl⟩
      rw [htarget] at hpaths
      obtain ⟨path', hpath', hsame⟩ := mem_of_mapM hpaths hp
      cases hnorm.symm.trans hsame
      exact hfree.1 hpath'

/-! ### What leaves the repository -/

lemma sees_run (server_id command : Text) : Sees r (ask (.run server_id command)) fun _ => True :=
  Sees.ask fun c s => by
    rw [site]
    dsimp only
    cases c.result <;> rfl

lemma sees_recorded (placement : Placement) (inspection : PlacementInspection) :
    Sees r (recorded placement inspection) fun _ => True := by
  rw [recorded, Prog.bind_eq]
  refine (Sees.ask fun _ _ => rfl).bind fun checked_at _ => ?_
  exact Sees.bind (Sees.ask fun _ _ => rfl) fun _ _ => Sees.ret trivial

lemma sees_matchedInt (text : Option Text) : Sees r (matchedInt cfg.toConfig text) fun _ => True := by
  cases text with
  | none => exact Sees.ret trivial
  | some digits =>
    rw [matchedInt]
    split
    · exact Sees.ret trivial
    · exact Sees.raise

lemma sees_observed (placement : Placement) (result : CommandResult) :
    Sees r (observed cfg.toConfig placement result) fun _ => True := by
  rw [observed]
  split
  · exact sees_recorded _ _
  · split
    · exact sees_recorded _ _
    · exact (sees_matchedInt _).bind fun _ _ => (sees_matchedInt _).bind fun _ _ => sees_recorded _ _

lemma sees_inspectOne (placement : Placement) : Sees r (inspectOne cfg.toConfig placement) fun _ => True := by
  rw [inspectOne, Prog.bind_eq]
  refine Sees.bind (R := fun _ => True) ?_ fun res _ => ?_
  · exact Sees.catching ((Sees.ask fun _ _ => rfl).mono fun _ _ => trivial) fun _ => trivial
  · cases res with
    | error e => exact sees_recorded _ _
    | ok _ =>
      show Sees r (inspect cfg.toConfig placement) _
      rw [inspect]
      split
      · exact Sees.raise
      · rw [Prog.bind_eq]
        refine Sees.bind (R := fun _ => True) ?_ fun res _ => ?_
        · exact Sees.catching ((sees_run _ _).mono fun _ _ => trivial) fun _ => trivial
        · cases res with
          | error e => exact sees_recorded _ _
          | ok result => exact sees_observed _ _

lemma sees_inspectTarget (placement_id : Text) : Sees r (inspectTarget cfg placement_id) fun _ => True := by
  rw [inspectTarget, Prog.bind_eq]
  refine Sees.bind (R := fun _ => True) ?_ fun res _ => ?_
  · refine Sees.catching ?_ fun _ => trivial
    exact (sees_read _).bind fun found _ => sees_inspectOne found
  · cases res with
    | error e => exact Sees.ret trivial
    | ok inspection => exact Sees.ret trivial

lemma sees_eachOf {α β : Type} {f : α → Watch β} (hf : ∀ a, Sees r (f a) fun _ => True) (as : List α) :
    Sees r (eachOf f as) fun _ => True := by
  induction as with
  | nil => exact Sees.ret trivial
  | cons a as ih => exact (hf a).bind fun _ _ => ih.bind fun _ _ => Sees.ret trivial

lemma sees_distribution (project_id : Text) : Sees r (distribution project_id) fun _ => True := by
  rw [distribution, Prog.bind_eq]
  refine (sees_project project_id).bind fun found _ => ?_
  refine (Sees.ask fun _ _ => rfl).bind fun jobs _ => ?_
  refine (sees_eachOf (fun artifact_id => ?_) _).bind fun items _ => ?_
  · refine (sees_artifact artifact_id).bind fun found _ => ?_
    refine (sees_placementsOf artifact_id).bind fun placements _ => ?_
    refine sees_eachOf (fun placement => ?_) placements
    exact (Sees.ask fun _ _ => rfl).bind fun _ _ => Sees.ret trivial
  · exact (Sees.ask fun _ _ => rfl).bind fun _ _ => Sees.ret trivial

lemma sees_preflightSource (placement : Placement) : Sees r (preflightSource cfg placement) fun _ => True := by
  rw [preflightSource, Prog.bind_eq]
  refine Sees.bind (R := fun _ => True) ?_ fun res _ => ?_
  · exact Sees.catching ((Sees.ask fun _ _ => rfl).mono fun _ _ => trivial) fun _ => trivial
  · cases res with
    | error e => exact Sees.ret trivial
    | ok _ =>
      refine Sees.bind (R := fun _ => True) ?_ fun res _ => ?_
      · exact Sees.catching ((sees_run _ _).mono fun _ _ => trivial) fun _ => trivial
      · cases res with
        | error e => exact Sees.ret trivial
        | ok result => exact Sees.ret trivial

lemma sees_preflightAll (candidates : List Placement) : Sees r (preflightAll cfg candidates) fun _ => True := by
  induction candidates with
  | nil => exact Sees.ret trivial
  | cons placement candidates ih =>
    refine (sees_preflightSource placement).bind fun failure _ => ih.bind fun others _ => ?_
    cases failure with
    | none => exact Sees.ret trivial
    | some failure => exact Sees.ret trivial

lemma sees_selectSource (target_server_id : Text) :
    Sees r (selectSource cfg artifact target_server_id snapshot) fun _ => True := by
  rw [selectSource, Prog.bind_eq]
  refine (sees_placementsOf _).bind fun placements _ => (sees_preflightAll _).bind fun tried _ => ?_
  split
  · exact Sees.ret trivial
  · exact Sees.ret trivial

lemma sees_planTransfer (request : TransferRequest) : Sees r (planTransfer request) fun _ => True := by
  rw [planTransfer]
  split
  · exact Sees.ask fun _ _ => rfl
  · exact Sees.raise

/-! ### Items -/

/-- The item of a transfer is about its artifact and keeps its target path. -/
lemma sees_transferItem (status : DistributionState) (why target_path : Text) :
    Sees r (transferItem cfg request snapshot artifact status why target_path) fun item =>
      item.artifact_id = artifact.val.artifact_id ∧ item.target_path = some target_path := by
  rw [transferItem, Prog.bind_eq]
  refine (sees_selectSource _).bind fun source _ => ?_
  split
  · exact Sees.ret ⟨rfl, rfl⟩
  · refine Sees.bind (R := fun _ => True) ?_ fun res _ => ?_
    · exact Sees.catching ((sees_planTransfer _).mono fun _ _ => trivial) fun _ => trivial
    · cases res with
      | error e => exact Sees.ret ⟨rfl, rfl⟩
      | ok plan =>
        dsimp only
        split
        · exact Sees.ret ⟨rfl, rfl⟩
        · exact Sees.ret ⟨rfl, rfl⟩

/-- Only an artifact that is placed on the target has a path of its own. -/
lemma sees_targetState (target : Option Placement) :
    Sees r (targetState cfg snapshot target) fun st => target = none → st.2 = none := by
  cases target with
  | none => exact Sees.ret fun _ => rfl
  | some target =>
    refine (sees_ofConflict _).bind fun path _ => ?_
    split
    · exact (sees_inspectTarget _).bind fun _ _ => Sees.ret fun h => by cases h
    · exact Sees.ret fun h => by cases h

/-- The item of an artifact leaves the registry as it is, without a path when the artifact is not placed on the target;
or it is suggested a path. -/
structure Planned (cfg : SyncConfig) (r : Repo) (server_id artifact_id : Text) (suggested : Dict Text Text)
    (item : ArtifactSyncItem) (suggested' : Dict Text Text) : Prop where
  about : item.artifact_id = artifact_id
  path : (suggested' = suggested ∧ (Unplaced r server_id artifact_id → item.target_path = none)) ∨
    ∃ p, item.target_path = some p ∧ Candidate cfg r server_id artifact_id p ∧ p ∉ suggested.map Prod.fst ∧
      suggested' = Dict.set p artifact_id suggested

lemma sees_planItem (hartifact : artifact ∈ r.artifacts.rows) {target_placements : List Placement}
    (htarget : target_placements = r.placements.rows.filter (·.val.server_id = request.target_server_id))
    (suggested : Dict Text Text) :
    Sees r (planItem cfg request snapshot target_placements artifact suggested) fun res =>
      Planned cfg r request.target_server_id artifact.val.artifact_id suggested res.1 res.2 := by
  rw [planItem, Prog.bind_eq]
  refine (sees_placementsOf _).bind fun placements hplacements => ?_
  refine (sees_targetState _).bind fun st hst => ?_
  have hunplaced : Unplaced r request.target_server_id artifact.val.artifact_id → st.2 = none := by
    intro h
    refine hst (List.find?_eq_none.2 fun p hp hserver => ?_)
    rw [hplacements] at hp
    obtain ⟨hmem, hid⟩ := List.mem_filter.1 hp
    exact h p hmem (of_decide_eq_true hid) (of_decide_eq_true hserver)
  obtain ⟨status, path⟩ := st
  dsimp only at hunplaced ⊢
  split
  · exact Sees.ret ⟨rfl, .inl ⟨rfl, hunplaced⟩⟩
  · split
    · exact Sees.ret ⟨rfl, .inl ⟨rfl, hunplaced⟩⟩
    · split
      · exact Sees.ret ⟨rfl, .inl ⟨rfl, hunplaced⟩⟩
      · split
        · refine (sees_transferItem _ _ _).bind fun item hitem => Sees.ret ?_
          exact ⟨hitem.1, .inl ⟨rfl, fun h => by cases hunplaced h⟩⟩
        · refine (sees_suggestPath hartifact htarget).bind fun res hres => ?_
          cases res with
          | error reason => exact Sees.ret ⟨rfl, .inl ⟨rfl, fun _ => rfl⟩⟩
          | ok claimed =>
            obtain ⟨hcandidate, hfree, hset⟩ := hres claimed.1 claimed.2 rfl
            refine (sees_transferItem _ _ _).bind fun item hitem => Sees.ret ?_
            exact ⟨hitem.1, .inr ⟨claimed.1, hitem.2, hcandidate, hfree, hset⟩⟩

/-- The items of a plan: one for each artifact, and paths that are candidates, new and pairwise different where they
are suggested. -/
structure AllPlanned (cfg : SyncConfig) (r : Repo) (server_id : Text) (artifact_ids : List Text)
    (suggested : Dict Text Text) (items : List ArtifactSyncItem) : Prop where
  about : items.map (·.artifact_id) = artifact_ids
  candidates : ∀ item ∈ items, Unplaced r server_id item.artifact_id → ∀ p, item.target_path = some p →
    Candidate cfg r server_id item.artifact_id p ∧ p ∉ suggested.map Prod.fst
  distinct : items.Pairwise fun a b => Unplaced r server_id a.artifact_id → Unplaced r server_id b.artifact_id →
    ∀ p q, a.target_path = some p → b.target_path = some q → p ≠ q

lemma AllPlanned.cons {server_id artifact_id : Text} {artifact_ids : List Text} {suggested suggested' : Dict Text Text}
    {item : ArtifactSyncItem} {items : List ArtifactSyncItem}
    (hitem : Planned cfg r server_id artifact_id suggested item suggested')
    (hitems : AllPlanned cfg r server_id artifact_ids suggested' items) :
    AllPlanned cfg r server_id (artifact_id :: artifact_ids) suggested (item :: items) := by
  have hkept : ∀ p, p ∉ suggested'.map Prod.fst → p ∉ suggested.map Prod.fst := by
    intro p hp
    rcases hitem.path with ⟨rfl, -⟩ | ⟨q, -, -, -, rfl⟩
    · exact hp
    · exact fun hmem => hp (Dict.mem_keys_set.2 (.inr hmem))
  constructor
  · rw [List.map_cons, hitem.about, hitems.about]
  · intro x hx hunplaced p hpath
    rcases List.mem_cons.1 hx with rfl | hx
    · rw [hitem.about] at hunplaced ⊢
      rcases hitem.path with ⟨-, hnone⟩ | ⟨q, hq, hcandidate, hnew, -⟩
      · cases (hnone hunplaced).symm.trans hpath
      · cases hq.symm.trans hpath
        exact ⟨hcandidate, hnew⟩
    · obtain ⟨hcandidate, hnew⟩ := hitems.candidates x hx hunplaced p hpath
      exact ⟨hcandidate, hkept p hnew⟩
  · refine List.Pairwise.cons (fun x hx hunplaced hunplaced' p q hp hq => ?_) hitems.distinct
    rw [hitem.about] at hunplaced
    rcases hitem.path with ⟨-, hnone⟩ | ⟨p', hp', -, -, rfl⟩
    · cases (hnone hunplaced).symm.trans hp
    · -- the path of the item is registered before the others are planned
      cases hp'.symm.trans hp
      rintro rfl
      exact (hitems.candidates x hx hunplaced' p hq).2 (Dict.mem_keys_set.2 (.inl rfl))

lemma sees_planItems {target_placements : List Placement}
    (htarget : target_placements = r.placements.rows.filter (·.val.server_id = request.target_server_id))
    (artifact_ids : List Text) (suggested : Dict Text Text) :
    Sees r (planItems cfg request snapshot target_placements artifact_ids suggested)
      (AllPlanned cfg r request.target_server_id artifact_ids suggested) := by
  induction artifact_ids generalizing suggested with
  | nil => exact Sees.ret ⟨rfl, fun _ h => absurd h List.not_mem_nil, List.Pairwise.nil⟩
  | cons artifact_id artifact_ids ih =>
    refine (sees_artifact artifact_id).bind fun found hfound => ?_
    obtain ⟨hmem, rfl⟩ := hfound
    refine (sees_planItem hmem htarget suggested).bind fun res hres => ?_
    refine (ih res.2).bind fun items hitems => Sees.ret ?_
    exact hitems.cons hres

end Planning

/-! ### The plan -/

lemma fromkeys_nodup (ids : List Text) : (fromkeys ids).Nodup := by
  have hfold : ∀ (ids kept : List Text), kept.Nodup →
      (ids.foldl (fun kept id => if kept.contains id then kept else kept ++ [id]) kept).Nodup := by
    intro ids
    induction ids with
    | nil => exact fun kept h => h
    | cons id ids ih =>
      intro kept h
      refine ih _ ?_
      dsimp only
      split
      · exact h
      · rename_i hnew
        have hfree : id ∉ kept := by simpa using hnew
        exact List.nodup_append.2 ⟨h, List.nodup_singleton id, fun x hx y hy e =>
          hfree (List.mem_singleton.1 hy ▸ e ▸ hx)⟩
  exact hfold ids [] List.nodup_nil

/-- The artifact is one the plan is asked for. -/
def Requested (r : Repo) (project_id : Text) (request : SyncPlanRequest) (artifact_id : Text) : Prop :=
  (∃ p ∈ r.projects.rows, p.val.project_id = project_id ∧ artifact_id ∈ p.val.artifact_ids) ∧
    ∀ ids, request.artifact_ids = some ids → artifact_id ∈ ids

lemma planIds_spec {cfg : SyncConfig} {found : Project} {request : SyncPlanRequest} {ids : List Text}
    (h : planIds cfg found request = .ok ids) :
    ids.Nodup ∧ ∀ id ∈ ids, id ∈ found.val.artifact_ids ∧ ∀ asked, request.artifact_ids = some asked → id ∈ asked := by
  unfold planIds at h
  split at h
  · rename_i hnone
    cases h
    exact ⟨fromkeys_nodup _, fun id hid => ⟨mem_fromkeys hid, fun _ h => by cases hnone.symm.trans h⟩⟩
  · rename_i asked hasked
    split at h
    · rename_i hown
      cases h
      refine ⟨fromkeys_nodup _, fun id hid => ⟨?_, fun asked' h => ?_⟩⟩
      · have hin := List.find?_eq_none.1 hown id hid
        simpa using hin
      · cases hasked.symm.trans h
        exact mem_fromkeys hid
    · cases h

/-- A candidate for an artifact the plan is asked for and that is not placed on the target. -/
structure Suggestible (cfg : SyncConfig) (r : Repo) (project_id : Text) (request : SyncPlanRequest)
    (artifact_id path : Text) : Prop where
  requested : Requested r project_id request artifact_id
  unplaced : Unplaced r request.target_server_id artifact_id
  candidate : Candidate cfg r request.target_server_id artifact_id path

/-- No path that is free by its name is another spelling of a directory in use: of another artifact's placement on the
target, or of a path that may be suggested for another artifact. -/
structure SpelledAlike (cfg : SyncConfig) (r : Repo) (project_id : Text) (request : SyncPlanRequest) : Prop where
  placements : ∀ {id path : Text}, Suggestible cfg r project_id request id path →
    ∀ p ∈ r.othersOn request.target_server_id id, ¬SameDirectory path p.val.remote_path
  suggestions : ∀ {id id' path path' : Text}, Suggestible cfg r project_id request id path →
    Suggestible cfg r project_id request id' path' → id ≠ id' → SameDirectory path path' → path = path'

/-- The suggested paths are directories of their own: of no other artifact's placement on the target and of no other
suggestion. -/
structure Apart (r : Repo) (server_id : Text) (items : List ArtifactSyncItem) : Prop where
  placements : ∀ item ∈ items, Unplaced r server_id item.artifact_id → ∀ path, item.target_path = some path →
    ∀ p ∈ r.othersOn server_id item.artifact_id, ¬SameDirectory path p.val.remote_path
  suggestions : items.Pairwise fun a b => Unplaced r server_id a.artifact_id → Unplaced r server_id b.artifact_id →
    ∀ p q, a.target_path = some p → b.target_path = some q → ¬SameDirectory p q

/-- What a plan says about the repository it was made from. -/
structure PlanFits (cfg : SyncConfig) (r : Repo) (project_id : Text) (request : SyncPlanRequest)
    (plan : ProjectSyncPlan) : Prop where
  planned : ∃ ids, ids.Nodup ∧ (∀ id ∈ ids, Requested r project_id request id) ∧
    AllPlanned cfg r request.target_server_id ids [] plan.items
  separated : plan.valid = true → Separated plan.items

lemma sees_buildPlan (cfg : SyncConfig) (r : Repo) (project_id : Text) (request : SyncPlanRequest) :
    Sees r (buildPlan cfg project_id request) (PlanFits cfg r project_id request) := by
  rw [buildPlan, Prog.bind_eq]
  refine (sees_project project_id).bind fun found hfound => ?_
  obtain ⟨stored, hstored, hid, hartifacts⟩ := hfound
  have hids : Sees r (Prog.answer (planIds cfg found request) : Watch _) fun ids =>
      planIds cfg found request = .ok ids := by
    cases planIds cfg found request with
    | ok ids => exact Sees.ret rfl
    | error e => exact Sees.raise
  refine hids.bind fun ids hids => ?_
  obtain ⟨hnodup, hmem⟩ := planIds_spec hids
  refine (sees_distribution project_id).bind fun snapshot _ => ?_
  refine sees_placements.bind fun all hall => ?_
  refine (sees_planItems (by rw [hall]) ids []).bind fun items hitems => ?_
  refine (sees_ofConflict _).bind fun overlap hoverlap => ?_
  refine (Sees.ask fun _ _ => rfl).bind fun generated_at _ => Sees.ret ?_
  constructor
  · refine ⟨ids, hnodup, fun id hin => ⟨⟨stored, hstored, hid, ?_⟩, (hmem id hin).2⟩, hitems⟩
    exact hartifacts ▸ (hmem id hin).1
  · intro hvalid
    refine separated_of_valid (?_ : overlapError _ = .ok (true, overlap.2))
    rw [hoverlap, ← hvalid]

/-- In every plan that is returned the targets do not overlap when the plan is valid, and the suggested paths are
directories of their own when free candidates are spelled like the directories in use. -/
theorem plan_targets (cfg : SyncConfig) (s : Site) (project_id : Text) (request : SyncPlanRequest)
    (choices : ℕ → SiteChoice) (plan : ProjectSyncPlan)
    (hplan : (exec site (buildPlan cfg project_id request) s choices).1 = .ok plan) :
    (plan.valid = true → Separated plan.items) ∧
      (SpelledAlike cfg s.repo project_id request → Apart s.repo request.target_server_id plan.items) := by
  have hwp := Effect.wp_exec (sees_buildPlan cfg s.repo project_id request s rfl)
    (Effect.meets_of_forall fun n o s' => (trivial : True) : Effect.Meets site _ _ s choices)
  have hfits : PlanFits cfg s.repo project_id request plan := hwp.2 plan hplan
  refine ⟨hfits.separated, fun halike => ?_⟩
  obtain ⟨ids, hnodup, hrequested, hplanned⟩ := hfits.planned
  have hsuggestible : ∀ item ∈ plan.items, Unplaced s.repo request.target_server_id item.artifact_id →
      ∀ p, item.target_path = some p → Suggestible cfg s.repo project_id request item.artifact_id p := by
    intro item hitem hunplaced p hp
    have hid : item.artifact_id ∈ ids := hplanned.about ▸ List.mem_map_of_mem hitem
    exact ⟨hrequested _ hid, hunplaced, (hplanned.candidates item hitem hunplaced p hp).1⟩
  constructor
  · intro item hitem hunplaced p hp
    exact halike.placements (hsuggestible item hitem hunplaced p hp)
  · have hids : plan.items.Pairwise fun a b => a.artifact_id ≠ b.artifact_id := by
      rw [← hplanned.about] at hnodup
      exact List.pairwise_map.1 hnodup
    refine List.Pairwise.imp_of_mem ?_ (hplanned.distinct.and hids)
    intro a b ha hb hab hunplaced hunplaced' p q hp hq hsame
    refine hab.1 hunplaced hunplaced' p q hp hq ?_
    exact halike.suggestions (hsuggestible a ha hunplaced p hp) (hsuggestible b hb hunplaced' q hq) hab.2 hsame

/-! ### Two datasets -/

/-- Two datasets of a project, one of them placed on the server at the path; datasets have a root there. -/
def laidOut (root path : String) : Repo :=
  settled [⟨.createArtifact { kind := .dataset, name := "images".toList }, drawing "a1", saved⟩,
    ⟨.createArtifact { kind := .dataset, name := "labels".toList }, drawing "a2", saved⟩,
    ⟨.createProject { name := "train".toList, artifact_ids := ["a1".toList, "a2".toList] }, drawing "p1", saved⟩,
    ⟨.createPlacement { artifact_id := "a2".toList, server_id := "gpu".toList, remote_path := path.toList },
      drawing "l1", saved⟩,
    ⟨.setServerRoots "gpu".toList { dataset_root := some root.toList }, drawing "", saved⟩]

/-- Every character is a letter, and every server is known. -/
def plainSync : SyncConfig where
  category := letters
  isDigit := Char.isDigit
  toInt _ := none
  str _ := []
  server_exists _ := true
  repr t := t

def toGpu : SyncPlanRequest := { target_server_id := "gpu".toList }

/-- A plan while no command is answered. -/
def silentPlan (root path : String) : Except Raised ProjectSyncPlan :=
  (exec site (buildPlan plainSync "p1".toList toGpu) ⟨laidOut root path, .empty, []⟩ fun _ => {}).1

def plannedPaths (root path : String) : Option (List (Text × Option Text)) :=
  (silentPlan root path).toOption.map fun plan => plan.items.map fun item => (item.artifact_id, item.target_path)

lemma exists_silentPlan {root path : String} {paths : List (Text × Option Text)}
    (h : plannedPaths root path = some paths) : ∃ plan, silentPlan root path = .ok plan ∧
      plan.items.map (fun item => (item.artifact_id, item.target_path)) = paths := by
  obtain ⟨plan, hplan, hpaths⟩ := Option.map_eq_some_iff.1 h
  cases hrun : silentPlan root path with
  | ok plan' =>
    rw [hrun] at hplan
    cases hplan
    exact ⟨plan, rfl, hpaths⟩
  | error e =>
    rw [hrun] at hplan
    cases hplan

/-- What may be suggested where the root has one slash. -/
lemma suggestible_images {id path : Text}
    (h : Suggestible plainSync (laidOut "/data" "/data/labels") "p1".toList toGpu id path) :
    id = "a1".toList ∧ path ∈ claimable "/data/images".toList "a1".toList := by
  have hunplaced : id ≠ "a2".toList := by
    rintro rfl
    have hplaced : ∃ p ∈ (laidOut "/data" "/data/labels").placements.rows,
        p.val.artifact_id = "a2".toList ∧ p.val.server_id = "gpu".toList := by decide +kernel
    obtain ⟨p, hp, hid, hserver⟩ := hplaced
    exact h.unplaced p hp hid hserver
  obtain ⟨a, ha, roots, root, base, rfl, hroots, hroot, hbase, hpath⟩ := h.candidate.claimable
  have hartifacts : ∀ a ∈ (laidOut "/data" "/data/labels").artifacts.rows, a.val.artifact_id ≠ "a2".toList →
      a.val.artifact_id = "a1".toList ∧ a.val.kind = .dataset ∧
        suggestedBase letters "/data".toList a = .ok "/data/images".toList := by decide +kernel
  have hdata : ((laidOut "/data" "/data/labels").server_roots.get "gpu".toList).map (·.2.val.dataset_root) =
      some (some "/data".toList) := by decide +kernel
  obtain ⟨hid, hkind, hsuggested⟩ := hartifacts a ha hunplaced
  obtain ⟨roots', hroots', hdataset⟩ := Option.map_eq_some_iff.1 hdata
  cases hroots.symm.trans hroots'
  rw [hkind] at hroot
  cases hdataset.symm.trans hroot
  cases hsuggested.symm.trans hbase
  exact ⟨hid, hid ▸ hpath⟩

/-- The path of the placement that is there and the suggested path are different directories. -/
theorem plan_targets_labels : ∃ plan, silentPlan "/data" "/data/labels" = .ok plan ∧
    Apart (laidOut "/data" "/data/labels") "gpu".toList plan.items := by
  have hpaths : plannedPaths "/data" "/data/labels" =
      some [("a1".toList, some "/data/images".toList), ("a2".toList, some "/data/labels".toList)] := by decide +kernel
  obtain ⟨plan, hplan, -⟩ := exists_silentPlan hpaths
  refine ⟨plan, hplan, (plan_targets plainSync ⟨laidOut "/data" "/data/labels", .empty, []⟩ "p1".toList toGpu
    (fun _ => {}) plan hplan).2 ⟨fun h p hp => ?_, fun h h' hne _ => ?_⟩⟩
  · obtain ⟨rfl, hpath⟩ := suggestible_images h
    have hother : ∀ p ∈ (laidOut "/data" "/data/labels").othersOn "gpu".toList "a1".toList,
        ∀ path ∈ claimable "/data/images".toList "a1".toList,
          components path ≠ components p.val.remote_path := by decide +kernel
    rintro ⟨parts, hparts, hparts'⟩
    exact hother p hp _ hpath (hparts.trans hparts'.symm)
  · exact absurd ((suggestible_images h).1.trans (suggestible_images h').1.symm) hne

/-- A root that begins with two slashes: the suggested path is another spelling of the declared one. -/
theorem double_slash_collides : ¬∀ plan, silentPlan "//data" "/data/images" = .ok plan →
    Apart (laidOut "//data" "/data/images") "gpu".toList plan.items := by
  intro h
  have hpaths : plannedPaths "//data" "/data/images" =
      some [("a1".toList, some "//data/images".toList), ("a2".toList, some "/data/images".toList)] := by decide +kernel
  obtain ⟨plan, hplan, hitems⟩ := exists_silentPlan hpaths
  have hfirst : ("a1".toList, some "//data/images".toList) ∈
      plan.items.map fun item => (item.artifact_id, item.target_path) := hitems ▸ List.mem_cons_self
  obtain ⟨item, hitem, hpair⟩ := List.mem_map.1 hfirst
  obtain ⟨hid, hpath⟩ := Prod.mk.inj hpair
  have hunplaced : ∀ p ∈ (laidOut "//data" "/data/images").placements.rows, p.val.artifact_id = "a1".toList →
      p.val.server_id ≠ "gpu".toList := by decide +kernel
  have hother : ∃ p ∈ (laidOut "//data" "/data/images").othersOn "gpu".toList "a1".toList,
      components p.val.remote_path = .ok ["data".toList, "images".toList] := by decide +kernel
  obtain ⟨p, hp, hcomponents⟩ := hother
  refine (h plan hplan).placements item hitem ?_ _ hpath p (hid.symm ▸ hp) ⟨_, ?_, hcomponents⟩
  · rw [hid]
    exact hunplaced
  · decide +kernel

end SshGpuConsole.Workspace
