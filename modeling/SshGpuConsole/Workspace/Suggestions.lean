import SshGpuConsole.Workspace.ProjectReads
import SshGpuConsole.Workspace.SyncTargets

/-!
# Suggestions

`suggest_target_path` and the planner suggest a path for an artifact in the same way, but the planner does not handle
what the helpers raise. They agree, and neither raises, when the kind has no root on the server, or the name of the
artifact makes a leaf and no other artifact is placed there at a blank path (`suggestions_agree_iff`).
-/

namespace SshGpuConsole.Workspace
open Shell PyText
open Effect (Prog exec later)

/-- The root of a kind on a server, when there is one. -/
def Repo.rootOn (r : Repo) (server_id : Text) (kind : ArtifactKind) : Option Text :=
  ((r.server_roots.get server_id).bind fun roots => rootForKind roots.2.val kind).filter (· ≠ [])

/-- No other item has claimed a path that may be suggested for the artifact. -/
def Unclaimed (cfg : SyncConfig) (r : Repo) (server_id : Text) (a : Artifact) (suggested : Dict Text Text) : Prop :=
  ∀ root base, r.rootOn server_id a.val.kind = some root → suggestedBase cfg.category root a = .ok base →
    ∀ path ∈ claimable base a.val.artifact_id, path ∉ suggested.map Prod.fst

/-- Both suggest the same path, or none, and neither raises: the planner only what interrupts a command. -/
structure Agree (path : Option Text) (planned : Except Raised (ArtifactSyncItem × Dict Text Text)) : Prop where
  item : ∀ item suggested, planned = .ok (item, suggested) →
    item.target_path = path ∧ (path = none → item.action = .unresolved)
  raised : ∀ e, planned = .error e → path ≠ none ∧ e.isException = false

/-- The item that the planner makes of an artifact, in a site with the repository. -/
def plannedItem (cfg : SyncConfig) (request : SyncPlanRequest) (snapshot : Snapshot) (a : Artifact)
    (suggested : Dict Text Text) (s : Site) (c : ℕ → SiteChoice) : Except Raised (ArtifactSyncItem × Dict Text Text) :=
  (exec site (planItem cfg request snapshot
    (s.repo.placements.rows.filter (·.val.server_id = request.target_server_id)) a suggested) s c).1

/-- The suggestion of the service and the item of the planner agree, whatever the plan has besides. -/
def SuggestionsAgree (cfg : SyncConfig) (r : Repo) (server_id : Text) (a : Artifact) : Prop :=
  ∀ draw saves request snapshot suggested s c, draw.server_exists = cfg.server_exists →
    request.target_server_id = server_id → s.repo = r → Unclaimed cfg r server_id a suggested →
    ∃ path reason, (exec repository (suggestTargetPath cfg.category draw server_id a.val.artifact_id) r saves).1 =
        .ok (path, reason) ∧ Agree path (plannedItem cfg request snapshot a suggested s c)

/-! ### What only an interruption ends -/

/-- The program raises only what is no `Exception`. -/
def Unfailing {α : Type} (p : Watch α) : Prop := ∀ s c e, (exec site p s c).1 = .error e → e.isException = false

lemma Unfailing.ret {α : Type} (a : α) : Unfailing (Prog.ret a : Watch α) := fun _ _ _ h => by cases h

lemma Unfailing.bind {α β : Type} {p : Watch α} {f : α → Watch β} (hp : Unfailing p) (hf : ∀ a, Unfailing (f a)) :
    Unfailing (p.bind f) := by
  intro s c e h
  cases hr : (exec site p s c).1 with
  | ok a =>
    rw [Effect.exec_bind_of_ok (Effect.exec_of_result hr)] at h
    exact hf a _ _ e h
  | error e' =>
    rw [Effect.exec_bind_of_error (Effect.exec_of_result hr)] at h
    cases h
    exact hp s c e hr

lemma Unfailing.catching {α : Type} (p : Watch α) : Unfailing (Prog.catching Raised.isException p) := by
  intro s c e h
  rw [Effect.exec_catching] at h
  split at h
  · cases h
  · split at h
    · cases h
    · rename_i hkind
      cases h
      exact Bool.eq_false_of_not_eq_true hkind

lemma unfailing_placementsOf (artifact_id : Text) : Unfailing (ofService (placementsOf artifact_id)) := by
  intro s c e h
  cases h

lemma unfailing_preflightSource (cfg : SyncConfig) (placement : Placement) : Unfailing (preflightSource cfg placement) := by
  refine (Unfailing.catching _).bind fun res => ?_
  cases res with
  | error e => exact Unfailing.ret _
  | ok _ =>
    refine (Unfailing.catching _).bind fun res => ?_
    cases res with
    | error e => exact Unfailing.ret _
    | ok result => exact Unfailing.ret _

lemma unfailing_preflightAll (cfg : SyncConfig) (candidates : List Placement) :
    Unfailing (preflightAll cfg candidates) := by
  induction candidates with
  | nil => exact Unfailing.ret _
  | cons placement candidates ih =>
    refine (unfailing_preflightSource cfg placement).bind fun failure => ih.bind fun others => ?_
    cases failure with
    | none => exact Unfailing.ret _
    | some failure => exact Unfailing.ret _

lemma unfailing_transferItem (cfg : SyncConfig) (request : SyncPlanRequest) (snapshot : Snapshot) (a : Artifact)
    (status : DistributionState) (why target_path : Text) :
    Unfailing (transferItem cfg request snapshot a status why target_path) := by
  have hsource : Unfailing (selectSource cfg a request.target_server_id snapshot) := by
    refine (unfailing_placementsOf _).bind fun placements => (unfailing_preflightAll cfg _).bind fun tried => ?_
    split
    · exact Unfailing.ret _
    · exact Unfailing.ret _
  refine hsource.bind fun source => ?_
  split
  · exact Unfailing.ret _
  · refine (Unfailing.catching _).bind fun res => ?_
    cases res with
    | error e => exact Unfailing.ret _
    | ok plan =>
      dsimp only
      split
      · exact Unfailing.ret _
      · exact Unfailing.ret _

/-! ### The two suggestions -/

section
variable {cfg : SyncConfig} {r : Repo} {server_id : Text} {a : Artifact}

lemma rootOn_eq (kind : ArtifactKind) : r.rootOn server_id kind =
    (((r.server_roots.get server_id).map Prod.snd).bind fun roots => rootForKind roots.val kind).filter (· ≠ []) := by
  unfold Repo.rootOn
  rw [Option.bind_map]
  rfl

/-- What the service suggests. -/
def serviceSuggestion (cfg : SyncConfig) (r : Repo) (server_id : Text) (a : Artifact) :
    Except Failure (Option Text × Option Text) :=
  match r.rootOn server_id a.val.kind with
  | none => .ok (none, some "server_root_not_configured".toList)
  | some root =>
    match suggestedBase cfg.category root a with
    | .error _ => .ok (none, some "artifact_name_unusable".toList)
    | .ok base =>
      match (r.othersOn server_id a.val.artifact_id).mapM fun p => normalizeRemotePath p.val.remote_path with
      | .error c => .error (.conflict c)
      | .ok taken => .ok (claimPath base a.val.artifact_id taken, none)

lemma get_artifact (ha : a ∈ r.artifacts.rows) : r.read (.getArtifact a.val.artifact_id) = .ok a := by
  show found _ _ (r.artifacts.get a.val.artifact_id) = _
  rw [Table.get_eq_some.2 ⟨ha, rfl⟩]
  rfl

lemma exec_suggestTargetPath (ha : a ∈ r.artifacts.rows) {draw : Draw} (hknown : draw.server_exists server_id = true)
    (saves : ℕ → Bool) :
    (exec repository (suggestTargetPath cfg.category draw server_id a.val.artifact_id) r saves).1 =
      serviceSuggestion cfg r server_id a := by
  have hroots : ∀ saves, exec repository (serverRoots draw server_id) r saves =
      (.ok ((r.server_roots.get server_id).map Prod.snd), r, later saves) := by
    intro saves
    rw [serverRoots, if_neg (by rw [hknown]; decide)]
    exact exec_read _ r saves
  rw [suggestTargetPath, Prog.bind_eq, Effect.exec_bind_of_ok ((exec_read _ r saves).trans (by rw [get_artifact ha])),
    Prog.bind_eq, Effect.exec_bind_of_ok (hroots _), serviceSuggestion, rootOn_eq]
  cases ((r.server_roots.get server_id).map Prod.snd).bind fun roots => rootForKind roots.val a.val.kind with
  | none => rfl
  | some root =>
    cases root with
    | nil => rfl
    | cons c root =>
      rw [Option.filter_some_pos (by simp)]
      dsimp only
      cases suggestedBase cfg.category (c :: root) a with
      | error e => rfl
      | ok base =>
        dsimp only
        have hothers : (r.placements.rows.filter fun p =>
            p.val.server_id = server_id ∧ p.val.artifact_id ≠ a.val.artifact_id) =
              r.othersOn server_id a.val.artifact_id := by
          rw [Repo.othersOn, List.filter_filter]
          refine List.filter_congr fun p _ => ?_
          rw [Bool.decide_and, Bool.and_comm]
        rw [Prog.bind_eq, Effect.exec_bind_of_ok (exec_read .placements r _), hothers]
        cases (r.othersOn server_id a.val.artifact_id).mapM fun p => normalizeRemotePath p.val.remote_path with
        | error e => rfl
        | ok taken => rfl

/-- What the planner suggests, or what it raises. -/
def plannerSuggestion (cfg : SyncConfig) (r : Repo) (server_id : Text) (a : Artifact) (suggested : Dict Text Text) :
    Except Raised (Except Text (Text × Dict Text Text)) :=
  match r.rootOn server_id a.val.kind with
  | none => .ok (.error "target root not configured on server".toList)
  | some root =>
    match suggestedBase cfg.category root a with
    | .error c => .error (.failure (.conflict c))
    | .ok base =>
      match takenPaths a (r.placements.rows.filter (·.val.server_id = server_id)) suggested with
      | .error c => .error (.failure (.conflict c))
      | .ok taken =>
        match claimPath base a.val.artifact_id taken with
        | none => .ok (.error "suggested target path is already used by another artifact".toList)
        | some path => .ok (.ok (path, Dict.set path a.val.artifact_id suggested))

lemma exec_suggestedTargetPath (hknown : cfg.server_exists server_id = true) {s : Site} (hs : s.repo = r)
    (c : ℕ → SiteChoice) : exec site (suggestedTargetPath cfg a server_id) s c =
      ((match r.rootOn server_id a.val.kind with
        | none => .ok none
        | some root => ((suggestedBase cfg.category root a).map some).mapError fun e => .failure (.conflict e)),
        s, later c) := by
  subst hs
  have hroots : exec site (Prog.catching Raised.isNotFound
      (ofService (serverRoots ⟨[], [], [], cfg.server_exists⟩ server_id))) s c =
      (.ok (.ok ((s.repo.server_roots.get server_id).map Prod.snd)), s, later c) := by
    rw [serverRoots, if_neg (by simp [hknown])]
    rfl
  rw [suggestedTargetPath, Prog.bind_eq, Effect.exec_bind_of_ok hroots, rootOn_eq]
  dsimp only
  cases ((s.repo.server_roots.get server_id).map Prod.snd).bind fun roots => rootForKind roots.val a.val.kind with
  | none => rfl
  | some root =>
    cases root with
    | nil => rfl
    | cons d root =>
      rw [Option.filter_some_pos (by simp)]
      dsimp only
      cases suggestedBase cfg.category (d :: root) a with
      | error e => rfl
      | ok base => rfl

lemma exec_suggestPath (hknown : cfg.server_exists server_id = true) (suggested : Dict Text Text) {s : Site}
    (hs : s.repo = r) (c : ℕ → SiteChoice) :
    exec site (suggestPath cfg a server_id (r.placements.rows.filter (·.val.server_id = server_id)) suggested) s c =
      (plannerSuggestion cfg r server_id a suggested, s, later c) := by
  have hbase := exec_suggestedTargetPath (a := a) hknown hs c
  rw [suggestPath, Prog.bind_eq, plannerSuggestion]
  cases hroot : r.rootOn server_id a.val.kind with
  | none =>
    rw [hroot] at hbase
    rw [Effect.exec_bind_of_ok hbase]
    rfl
  | some root =>
    rw [hroot] at hbase
    dsimp only at hbase ⊢
    cases hb : suggestedBase cfg.category root a with
    | error e =>
      rw [hb] at hbase
      rw [Effect.exec_bind_of_error hbase]
    | ok base =>
      rw [hb] at hbase
      rw [Effect.exec_bind_of_ok hbase]
      dsimp only
      cases takenPaths a (r.placements.rows.filter (·.val.server_id = server_id)) suggested with
      | error e => rfl
      | ok taken =>
        show exec site (match claimPath base a.val.artifact_id taken with
          | none => _
          | some path => _) s (later c) = _
        dsimp only
        cases claimPath base a.val.artifact_id taken with
        | none => rfl
        | some path => rfl

/-- The item that the planner makes of an artifact that is not on the server. -/
lemma plannedItem_unplaced (hknown : cfg.server_exists server_id = true) (hunplaced : Unplaced r server_id a.val.artifact_id)
    {request : SyncPlanRequest} (hserver : request.target_server_id = server_id) {snapshot : Snapshot}
    {suggested : Dict Text Text} {s : Site} (hs : s.repo = r) (c : ℕ → SiteChoice) :
    plannedItem cfg request snapshot a suggested s c =
      match plannerSuggestion cfg r server_id a suggested with
      | .error e => .error e
      | .ok (.error reason) => .ok (syncItem a .missing .unresolved reason none, suggested)
      | .ok (.ok (path, suggested')) => (exec site ((transferItem cfg request snapshot a .missing
          (motive a.val.kind false request.refresh_code false) path).bind fun item => .ret (item, suggested')) s
            (later (later c))).1 := by
  subst hs hserver
  have hrows : exec site (ofService (placementsOf a.val.artifact_id)) s c =
      (.ok (s.repo.placements.rows.filter (·.val.artifact_id = a.val.artifact_id)), s, later c) := rfl
  have htarget : (s.repo.placements.rows.filter (·.val.artifact_id = a.val.artifact_id)).find?
      (·.val.server_id = request.target_server_id) = none := by
    refine List.find?_eq_none.2 fun p hp hserver => ?_
    obtain ⟨hmem, hid⟩ := List.mem_filter.1 hp
    exact hunplaced p hmem (of_decide_eq_true hid) (of_decide_eq_true hserver)
  have hneeds : ¬(!needsTransfer a.val.kind (decide (DistributionState.missing = .verified) ||
      decide (DistributionState.missing = .declared)) request.refresh_code) = true := by
    cases a.val.kind with
    | code => exact Bool.false_ne_true
    | dataset => exact Bool.false_ne_true
    | model => exact Bool.false_ne_true
  have hsuggest := exec_suggestPath (a := a) hknown suggested (rfl : s.repo = s.repo) (later c)
  rw [plannedItem, planItem, Prog.bind_eq, Effect.exec_bind_of_ok hrows]
  dsimp only
  have hstate : exec site (targetState cfg snapshot none) s (later c) = (.ok (.missing, none), s, later c) := rfl
  rw [htarget, Prog.bind_eq, Effect.exec_bind_of_ok hstate]
  dsimp only
  rw [if_neg (by decide), if_neg (by decide), if_neg hneeds, Prog.bind_eq]
  cases hplan : plannerSuggestion cfg s.repo request.target_server_id a suggested with
  | error e =>
    rw [hplan] at hsuggest
    rw [Effect.exec_bind_of_error hsuggest]
  | ok claimed =>
    rw [hplan] at hsuggest
    rw [Effect.exec_bind_of_ok hsuggest]
    cases claimed with
    | error reason => rfl
    | ok claimed => rfl

/-! ### Agreement -/

/-- Paths that are no candidates do not change what is claimed. -/
lemma claimPath_append {base artifact_id : Text} {taken : List Text} {more : List Text}
    (h : ∀ path ∈ claimable base artifact_id, path ∉ more) :
    claimPath base artifact_id (taken ++ more) = claimPath base artifact_id taken := by
  have hsame : ∀ path ∈ claimable base artifact_id, (taken ++ more).contains path = taken.contains path := by
    intro path hpath
    rw [List.contains_eq_mem, List.contains_eq_mem]
    refine decide_eq_decide.2 ⟨fun hmem => (List.mem_append.1 hmem).resolve_right (h path hpath), ?_⟩
    exact List.mem_append_left more
  rw [claimPath, claimPath, hsame base List.mem_cons_self]
  split
  · rfl
  · refine List.find?_congr fun path hpath => ?_
    rw [hsame path (List.mem_cons_of_mem _ hpath)]

lemma normalizeRemotePath_ok_iff (path : Text) : (∃ p, normalizeRemotePath path = .ok p) ↔ strip path ≠ [] := by
  constructor
  · rintro ⟨p, hp⟩ hblank
    rw [normalizeRemotePath, if_pos hblank] at hp
    cases hp
  · intro hne
    rw [normalizeRemotePath, if_neg hne]
    dsimp only
    split
    · exact ⟨_, rfl⟩
    · exact ⟨_, rfl⟩

/-- The suggested base fails only where the name makes no leaf. -/
lemma suggestedBase_ok_iff (category : Category) (root : Text) : (∃ base, suggestedBase category root a = .ok base) ↔
    ∃ leaf, safeArtifactLeaf category a.val.name a.val.version = .ok leaf := by
  rw [suggestedBase]
  cases safeArtifactLeaf category a.val.name a.val.version with
  | error e =>
    constructor
    · rintro ⟨base, hbase⟩
      cases hbase
    · rintro ⟨leaf, hleaf⟩
      cases hleaf
  | ok leaf =>
    refine ⟨fun _ => ⟨leaf, rfl⟩, fun _ => (normalizeRemotePath_ok_iff _).2 ?_⟩
    exact strip_ne_nil (List.mem_append_right _ List.mem_cons_self) (by decide)

lemma mapM_ok_iff {α β ε : Type} {f : α → Except ε β} (as : List α) :
    (∃ bs, as.mapM f = .ok bs) ↔ ∀ x ∈ as, ∃ b, f x = .ok b := by
  induction as with
  | nil => exact ⟨fun _ _ hx => absurd hx List.not_mem_nil, fun _ => ⟨[], rfl⟩⟩
  | cons x as ih =>
    constructor
    · rintro ⟨bs, hbs⟩ y hy
      obtain ⟨b, -, hb⟩ := mem_of_mapM hbs hy
      exact ⟨b, hb⟩
    · intro h
      obtain ⟨b, hb⟩ := h x List.mem_cons_self
      obtain ⟨bs, hbs⟩ := ih.2 fun y hy => h y (List.mem_cons_of_mem _ hy)
      refine ⟨b :: bs, ?_⟩
      rw [List.mapM_cons, hb, hbs]
      rfl

/-- The item for a suggested path has the path, and only an interruption takes it away. -/
lemma agree_transferItem {path : Text} {request : SyncPlanRequest} {snapshot : Snapshot} {why : Text}
    {suggested : Dict Text Text} (s : Site) (c : ℕ → SiteChoice) :
    Agree (some path) (exec site ((transferItem cfg request snapshot a .missing why path).bind fun item =>
      .ret (item, suggested)) s c).1 := by
  constructor
  · intro item suggested' hitem
    have hsees : Sees s.repo ((transferItem cfg request snapshot a .missing why path).bind fun item =>
        Prog.ret (item, suggested)) fun res => res.1.target_path = some path :=
      (sees_transferItem _ _ _).bind fun item h => Sees.ret h.2
    have hwp := Effect.wp_exec (hsees s rfl)
      (Effect.meets_of_forall fun n o s' => (trivial : True) : Effect.Meets site _ _ s c)
    exact ⟨hwp.2 _ hitem, fun h => by cases h⟩
  · intro e he
    refine ⟨Option.some_ne_none _, ?_⟩
    exact (unfailing_transferItem cfg request snapshot a .missing why path).bind (fun _ => Unfailing.ret _) s c e he

lemma agree_unresolved {item : ArtifactSyncItem} {suggested : Dict Text Text} (hpath : item.target_path = none)
    (haction : item.action = .unresolved) : Agree none (.ok (item, suggested)) where
  item := by
    rintro _ _ ⟨⟩
    exact ⟨hpath, fun _ => haction⟩
  raised _ h := by cases h

/-- For an artifact without a placement on a known server, the planner and the service agree exactly when there is no
root for its kind, or its name makes a leaf and no other artifact is placed on the server at a blank path. -/
theorem suggestions_agree_iff (ha : a ∈ r.artifacts.rows) (hknown : cfg.server_exists server_id = true)
    (hunplaced : Unplaced r server_id a.val.artifact_id) :
    SuggestionsAgree cfg r server_id a ↔ r.rootOn server_id a.val.kind = none ∨
      ((∃ leaf, safeArtifactLeaf cfg.category a.val.name a.val.version = .ok leaf) ∧
        ∀ p ∈ r.othersOn server_id a.val.artifact_id, strip p.val.remote_path ≠ []) := by
  have hothers : (∃ paths, (r.othersOn server_id a.val.artifact_id).mapM (fun p => normalizeRemotePath p.val.remote_path) =
      .ok paths) ↔ ∀ p ∈ r.othersOn server_id a.val.artifact_id, strip p.val.remote_path ≠ [] := by
    rw [mapM_ok_iff]
    exact forall₂_congr fun p _ => normalizeRemotePath_ok_iff p.val.remote_path
  rw [← hothers]
  cases hroot : r.rootOn server_id a.val.kind with
  | none =>
    refine ⟨fun _ => .inl rfl, fun _ => ?_⟩
    intro draw saves request snapshot suggested s c hdraw hserver hs _
    have hservice : serviceSuggestion cfg r server_id a = .ok (none, some "server_root_not_configured".toList) := by
      rw [serviceSuggestion, hroot]
    refine ⟨none, _, (exec_suggestTargetPath ha (by rw [hdraw, hknown]) saves).trans hservice, ?_⟩
    rw [plannedItem_unplaced hknown hunplaced hserver hs c, plannerSuggestion, hroot]
    exact agree_unresolved rfl rfl
  | some root =>
    rw [← suggestedBase_ok_iff cfg.category root]
    constructor
    · intro h
      right
      obtain ⟨path, reason, hservice, hplanned⟩ := h ⟨[], [], [], cfg.server_exists⟩ (fun _ => true)
        { target_server_id := server_id } [] [] ⟨r, .empty, []⟩ (fun _ => {}) rfl rfl rfl
          (fun _ _ _ _ _ _ => List.not_mem_nil)
      rw [exec_suggestTargetPath ha hknown, serviceSuggestion, hroot] at hservice
      rw [plannedItem_unplaced hknown hunplaced rfl rfl, plannerSuggestion, hroot] at hplanned
      dsimp only at hservice hplanned
      cases hbase : suggestedBase cfg.category root a with
      | error e =>
        rw [hbase] at hplanned
        obtain ⟨-, hkind⟩ := hplanned.raised _ rfl
        cases hkind
      | ok base =>
        rw [hbase] at hservice
        refine ⟨⟨base, rfl⟩, ?_⟩
        cases htaken : (r.othersOn server_id a.val.artifact_id).mapM fun p => normalizeRemotePath p.val.remote_path with
        | error e =>
          rw [htaken] at hservice
          cases hservice
        | ok taken => exact ⟨taken, rfl⟩
    · rintro (hnone | ⟨⟨base, hbase⟩, taken, htaken⟩)
      · cases hnone
      intro draw saves request snapshot suggested s c hdraw hserver hs hfree
      have hclaim := @claimPath_append _ _ taken _ (hfree root base hroot hbase)
      have hservice : serviceSuggestion cfg r server_id a = .ok (claimPath base a.val.artifact_id taken, none) := by
        rw [serviceSuggestion, hroot]
        dsimp only
        rw [hbase]
        dsimp only
        rw [htaken]
      have hregistry : takenPaths a (r.placements.rows.filter (·.val.server_id = server_id)) suggested =
          .ok (taken ++ suggested.map Prod.fst) := by
        rw [takenPaths]
        exact htaken ▸ rfl
      refine ⟨_, _, (exec_suggestTargetPath ha (by rw [hdraw, hknown]) saves).trans hservice, ?_⟩
      rw [plannedItem_unplaced hknown hunplaced hserver hs c, plannerSuggestion, hroot]
      dsimp only
      rw [hbase]
      dsimp only
      rw [hregistry]
      dsimp only
      rw [hclaim]
      cases claimPath base a.val.artifact_id taken with
      | none => exact agree_unresolved rfl rfl
      | some path => exact agree_transferItem s _

end

/-! ### Two artifacts -/

/-- The artifact that is not placed is suggested the path beside the other one. -/
theorem suggestions_agree_iff_images : ∃ a ∈ (laidOut "/data" "/data/labels").artifacts.rows,
    a.val.artifact_id = "a1".toList ∧ SuggestionsAgree plainSync (laidOut "/data" "/data/labels") "gpu".toList a := by
  have hfound : ∃ a ∈ (laidOut "/data" "/data/labels").artifacts.rows, a.val.artifact_id = "a1".toList ∧
      safeArtifactLeaf letters a.val.name a.val.version = .ok "images".toList := by decide +kernel
  have hplaced : ∀ p ∈ (laidOut "/data" "/data/labels").placements.rows, p.val.artifact_id = "a1".toList →
      p.val.server_id ≠ "gpu".toList := by decide +kernel
  have hothers : ∀ p ∈ (laidOut "/data" "/data/labels").placements.rows, strip p.val.remote_path ≠ [] := by
    decide +kernel
  obtain ⟨a, ha, hid, hleaf⟩ := hfound
  refine ⟨a, ha, hid, (suggestions_agree_iff ha rfl (hid ▸ hplaced)).2 (.inr ⟨⟨_, hleaf⟩, fun p hp => ?_⟩)⟩
  refine hothers p ?_
  exact List.mem_of_mem_filter (List.mem_of_mem_filter hp)

/-- A dataset whose name is three dots, and a root for it. -/
def dotted : Repo :=
  settled [⟨.createArtifact { kind := .dataset, name := "...".toList }, drawing "a1", saved⟩,
    ⟨.setServerRoots "gpu".toList { dataset_root := some "/data".toList }, drawing "", saved⟩]

/-- The service says that the name is unusable, and the planner raises. -/
theorem dotted_disagree : ¬∀ a ∈ dotted.artifacts.rows, Unplaced dotted "gpu".toList a.val.artifact_id →
    SuggestionsAgree plainSync dotted "gpu".toList a := by
  intro h
  have hfound : ∃ a ∈ dotted.artifacts.rows,
      (match plannedItem plainSync toGpu [] a [] ⟨dotted, .empty, []⟩ (fun _ => {}) with
        | .error e => e.isException
        | .ok _ => false) = true := by decide +kernel
  have hempty : dotted.placements.rows = [] := by decide +kernel
  obtain ⟨a, ha, hraised⟩ := hfound
  have hunplaced : Unplaced dotted "gpu".toList a.val.artifact_id := by
    intro p hp
    rw [hempty] at hp
    cases hp
  obtain ⟨path, reason, -, hplanned⟩ := h a ha hunplaced ⟨[], [], [], fun _ => true⟩ (fun _ => true) toGpu [] []
    ⟨dotted, .empty, []⟩ (fun _ => {}) rfl rfl rfl (fun _ _ _ _ _ _ => List.not_mem_nil)
  split at hraised
  · rename_i e he
    obtain ⟨-, hkind⟩ := hplanned.raised e he
    cases hkind.symm.trans hraised
  · cases hraised

end SshGpuConsole.Workspace
