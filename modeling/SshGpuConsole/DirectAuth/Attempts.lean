import SshGpuConsole.DirectAuth.Changes

/-!
# One attempt

What the steps of a setup attempt and the removal of its materials leave: the key an attempt works with is
named by a comment of the pair, and each of the two files it writes is as it was, has the attempt's line
added, or is lost on the way.
-/

namespace SshGpuConsole.DirectAuth
open Shell (Text)
open Effect PosixPath PyText PyLines Ssh Planner

section Attempts
variable {cfg : Config} {pair : Pair} {w : World}

/-! ### Frames -/

lemma spares_withheld {s : Side} {q : Text} {o : AuthOp} (h : o.Keeps s q) : Spares s q (call o) := Prog.Only.perform h

lemma spares_runProbe {s : Side} {q : Text} (options : DedicatedKeyOptions) : Spares s q (runProbe options) := by
  have hprobe : ∀ params : ConnectParams, Spares s q (dedicatedBatchModeProbe params options) := fun params =>
    Prog.Only.bind (spares_trying (spares_talk trivial)) fun r => match r with
      | .error _ => trivial
      | .ok _ => trivial
  refine Prog.Only.bind (spares_talk trivial) fun params => Prog.Only.bind (spares_trying (spares_talk trivial)) fun r => ?_
  cases r with
  | error e => trivial
  | ok u =>
    refine Prog.Only.andFinally (Prog.Only.bind (spares_trying (hprobe params)) fun r => ?_)
      (Prog.Only.suppress (spares_talk trivial))
    cases r with
    | error e => trivial
    | ok outcome => trivial

/-- Making a directory leaves the files that are none of its levels. -/
lemma spares_ensureDir {s t : Side} {q path : Text} {mode : Nat}
    (h : t = s → q ∉ mkdirLevels path [] ((stripSlash (normpath path)).splitOn '/') ∧ q ≠ path) :
    Spares s q (ofSftp (ensureDir t path mode)) :=
  spares_ofSftp (Prog.Only.bind (avoids_mkdir fun ht => (h ht).1) fun _ => avoids_setMode mode fun ht => (h ht).2)

/-- The directories of the source leave both files. -/
lemma spares_ensureSourceDirs {s : Side} {q : Text} (h : s = .target ∨ q = sourceKnownHosts) :
    Spares s q (ofSftp ensureSourceDirs) := by
  have hlevels : ∀ {path : Text}, path = sourceAppDir ∨ path = sourceKeysDir → Side.source = s →
      q ∉ mkdirLevels path [] ((stripSlash (normpath path)).splitOn '/') ∧ q ≠ path := by
    rintro path hpath rfl
    obtain rfl := h.resolve_left fun h => by cases h
    rcases hpath with rfl | rfl <;> decide
  have hdir : ∀ {path : Text}, path = sourceAppDir ∨ path = sourceKeysDir →
      Avoids s q (ensureDir .source path dirMode) := fun hpath =>
    Prog.Only.bind (avoids_mkdir fun ht => (hlevels hpath ht).1) fun _ =>
      avoids_setMode dirMode fun ht => (hlevels hpath ht).2
  refine spares_ofSftp (Prog.Only.bind ((reads_stat _).avoids s q) fun ssh => ?_)
  refine Prog.Only.bind (hdir (.inl rfl)) fun _ => Prog.Only.bind (hdir (.inr rfl)) fun _ => ?_
  refine Prog.Only.ite (avoids_setMode dirMode fun hs => ?_) trivial
  subst hs
  obtain rfl := h.resolve_left fun h => by cases h
  decide

lemma spares_readPublic {s : Side} {q path : Text} {want : Bool} : Spares s q (readPublic path want) := by
  refine Prog.Only.bind (Prog.Only.handle (Prog.Only.bind (spares_withheld trivial) fun r => Prog.Only.ite ?_ ?_)
    fun e => ?_) fun text => ?_
  · trivial
  · trivial
  · cases e with
    | session e => trivial
    | setup reason => trivial
    | failure f => cases f <;> trivial
  · cases parsePublicLine text want with
    | error reason => trivial
    | ok key => trivial

lemma spares_runFixed {s t : Side} {q : Text} {command : Command} (h : (AuthOp.run t command).Keeps s q) :
    Spares s q (runFixed t command) := by
  refine Prog.Only.handle (Prog.Only.bind (spares_withheld h) fun r => trivial) fun e => ?_
  cases e with
  | session e => trivial
  | setup reason => trivial
  | failure f => cases f <;> trivial

/-- Finding or making the key leaves everything but the key files. -/
lemma spares_obtainKey {s : Side} {q id : Text}
    (h : Side.source = s → q ≠ privatePath pair ∧ q ≠ pubPath (privatePath pair)) :
    Spares s q (obtainKey pair id) := by
  refine Prog.Only.bind (spares_ofSftp ((reads_stat _).avoids s q)) fun found => Prog.Only.ite ?_ ?_
  · exact Prog.Only.bind spares_readPublic fun key => trivial
  · refine Prog.Only.bind (spares_runFixed trivial) fun present => Prog.Only.ite trivial ?_
    refine Prog.Only.bind (spares_runFixed h) fun made => Prog.Only.ite trivial ?_
    exact Prog.Only.bind spares_readPublic fun key => trivial

lemma spares_prepareKey {s : Side} {q : Text} {attempt : Attempt} (h : s = .target ∨ q = sourceKnownHosts) :
    Spares s q (prepareKey cfg pair attempt) := by
  refine Prog.Only.bind (spares_ensureSourceDirs h) fun _ => Prog.Only.bind (spares_obtainKey fun hs => ?_) fun key => ?_
  · subst hs
    obtain rfl := h.resolve_left fun h => by cases h
    exact ⟨(keyFile_ne (privatePath_key pair)).1.symm, (keyFile_ne (pubPath_key pair)).1.symm⟩
  · obtain ⟨cm, key_type, blob⟩ := key
    dsimp only
    cases cfg.opensshFingerprint blob with
    | none => trivial
    | some fingerprint => trivial

/-! ### The key -/

/-- A key an attempt can come to: its comment is one of the pair's, and its fields are whole. -/
structure Named (pair : Pair) (key : PublicKey) : Prop where
  key_type : Token key.key_type
  blob : Token key.blob
  comment : ∃ id, KeyId id ∧ key.comment = comment pair.source_id pair.target_id id

lemma ensures_any {α : Type} (p : Auth α) : Ensures cfg p (fun _ _ => True) w := wp_true p w

lemma ensures_readPublic {path : Text} {want : Bool} : Ensures cfg (readPublic path want)
    (fun r _ => ∀ key, r = .ok key → Token key.1 ∧ Token key.2.1) w := by
  refine wp_bind_of (ensures_any _) (fun text w' _ => ?_) fun e w' _ key h => by cases h
  cases hp : parsePublicLine text want with
  | error reason => exact fun key h => by cases h
  | ok key =>
    intro key' h
    obtain rfl := Except.ok.inj h
    exact token_of_parsePublicLine hp

lemma reusedComment_named (id : HexId) (existing : Option Text) :
    ∃ id', KeyId id' ∧ reusedComment pair id.digits existing = comment pair.source_id pair.target_id id' := by
  have hown : ∃ id', KeyId id' ∧ comment pair.source_id pair.target_id id.digits =
      comment pair.source_id pair.target_id id' := ⟨id.digits, keyId_hexId id, rfl⟩
  cases existing with
  | none => exact hown
  | some cm =>
    rw [reusedComment]
    split
    · rename_i h
      exact ⟨_, keyId_of_valid (Bool.and_eq_true_iff.1 h).2, rfl⟩
    · exact hown

lemma ensures_obtainKey (id : HexId) : Ensures cfg (obtainKey pair id.digits)
    (fun r _ => ∀ key, r = .ok key → Token key.2.1 ∧ Token key.2.2 ∧
      ∃ id', KeyId id' ∧ key.1 = comment pair.source_id pair.target_id id') w := by
  refine wp_bind_of (ensures_any _) (fun found w' _ => wp_ite (fun _ => ?_) fun _ => ?_) fun e w' _ key h => by cases h
  · refine wp_bind_of ensures_readPublic (fun key w'' hk key' h => ?_) fun e w'' _ key h => by cases h
    obtain rfl := Except.ok.inj h
    obtain ⟨ht, hb⟩ := hk key rfl
    exact ⟨ht, hb, reusedComment_named id _⟩
  · refine wp_bind_of (ensures_any _) (fun present w'' _ => wp_ite (fun _ => ?_) fun _ => ?_) fun e w'' _ key h => by cases h
    · exact fun key h => by cases h
    · refine wp_bind_of (ensures_any _) (fun made w3 _ => wp_ite (fun _ => ?_) fun _ => ?_) fun e w3 _ key h => by cases h
      · exact fun key h => by cases h
      · refine wp_bind_of ensures_readPublic (fun key w4 hk key' h => ?_) fun e w4 _ key h => by cases h
        obtain rfl := Except.ok.inj h
        obtain ⟨ht, hb⟩ := hk key rfl
        exact ⟨ht, hb, id.digits, keyId_hexId id, rfl⟩

lemma ensures_prepareKey (attempt : Attempt) : Ensures cfg (prepareKey cfg pair attempt)
    (fun r w' => w'.servers .target targetAuthKeys = w.servers .target targetAuthKeys ∧
      w'.servers .source sourceKnownHosts = w.servers .source sourceKnownHosts ∧
      ∀ key, r = .ok key → Named pair key) w := by
  refine wp_and ((spares_prepareKey (.inl rfl)).ensures rfl) (wp_and ((spares_prepareKey (.inr rfl)).ensures rfl) ?_)
  refine wp_bind_of (ensures_any _) (fun _ w' _ => ?_) fun e w' _ key h => by cases h
  refine wp_bind_of (ensures_obtainKey attempt.key_id) (fun key w'' hk => ?_) fun e w'' _ key h => by cases h
  obtain ⟨ht, hb, hc⟩ := hk key rfl
  obtain ⟨cm, key_type, blob⟩ := key
  dsimp only
  cases cfg.opensshFingerprint blob with
  | none => exact fun key h => by cases h
  | some fingerprint =>
    intro key h
    obtain rfl := Except.ok.inj h
    exact ⟨ht, hb, hc⟩

/-! ### The two files -/

/-- What an attempt that knows its key may do to `authorized_keys`: it is as it was, the line is there, or it is
lost. -/
def AuthFate (key : PublicKey) (v v' : Servers) : Prop :=
  v' .target targetAuthKeys = v .target targetAuthKeys ∨
    ∃ old line, Old .target targetAuthKeys v old ∧ ¬HasComment key.comment old ∧
      encodeAscii (restrictedLine key.line key.comment) = some line ∧
      ((v' .target).content targetAuthKeys = some (appendLine old line) ∨ v' .target targetAuthKeys = none)

/-- What an attempt may do to the console's `known_hosts`. -/
def HostsFate (entry : Text) (v v' : Servers) : Prop :=
  v' .source sourceKnownHosts = v .source sourceKnownHosts ∨
    ∃ old line, Old .source sourceKnownHosts v old ∧ encodeAscii entry = some line ∧
      ((v' .source).content sourceKnownHosts = some (appendLine old line) ∨ v' .source sourceKnownHosts = none)

lemma LineEnsured.fate {key : PublicKey} {r : Except Raised Unit} {w w' : World}
    (h : LineEnsured key.line key.comment w r w') : AuthFate key w.servers w'.servers := by
  rcases h with ⟨h, -⟩ | ⟨old, line, hold, hno, henc, h⟩
  · exact .inl h
  · rcases h with ⟨h, -⟩ | h | ⟨-, h⟩
    · exact .inl h
    · exact .inr ⟨old, line, hold, hno, henc, .inl h⟩
    · exact .inr ⟨old, line, hold, hno, henc, .inr h⟩

lemma EntryEnsured.fate {entry : Text} {r : Except Raised Unit} {w w' : World} (h : EntryEnsured entry w r w') :
    HostsFate entry w.servers w'.servers := by
  rcases h with h | ⟨old, line, hold, henc, h⟩
  · exact .inl h
  · rcases h with ⟨h, -⟩ | h | ⟨-, h⟩
    · exact .inl h
    · exact .inr ⟨old, line, hold, henc, .inl h⟩
    · exact .inr ⟨old, line, hold, henc, .inr h⟩

lemma content_congr {s t : Server} {p : Text} (h : s p = t p) : s.content p = t.content p := by
  rw [Server.content, h, Server.content]

lemma Old.congr {s : Side} {path : Text} {v v' : Servers} {old : Bytes} (h : v' s path = v s path)
    (ho : Old s path v old) : Old s path v' old := by
  rwa [Old, h, content_congr h]

/-- Only the nodes of the file matter. -/
lemma AuthFate.congr {key : PublicKey} {v₁ v₂ v₁' v₂' : Servers} (h : AuthFate key v₁ v₂)
    (h₁ : v₁' .target targetAuthKeys = v₁ .target targetAuthKeys)
    (h₂ : v₂' .target targetAuthKeys = v₂ .target targetAuthKeys) : AuthFate key v₁' v₂' := by
  rcases h with h | ⟨old, line, hold, hno, henc, h⟩
  · exact .inl ((h₂.trans h).trans h₁.symm)
  · refine .inr ⟨old, line, hold.congr h₁, hno, henc, ?_⟩
    rwa [content_congr h₂, h₂]

lemma HostsFate.congr {entry : Text} {v₁ v₂ v₁' v₂' : Servers} (h : HostsFate entry v₁ v₂)
    (h₁ : v₁' .source sourceKnownHosts = v₁ .source sourceKnownHosts)
    (h₂ : v₂' .source sourceKnownHosts = v₂ .source sourceKnownHosts) : HostsFate entry v₁' v₂' := by
  rcases h with h | ⟨old, line, hold, henc, h⟩
  · exact .inl ((h₂.trans h).trans h₁.symm)
  · refine .inr ⟨old, line, hold.congr h₁, henc, ?_⟩
    rwa [content_congr h₂, h₂]

/-- The entry of `known_hosts` of an attempt. -/
def Attempt.entry (attempt : Attempt) : Text := attempt.verified.knownHostsEntry attempt.params.host attempt.params.port

/-- What steps 5 to 7 leave, wherever they stop. -/
lemma ensures_installKey (attempt : Attempt) (key : PublicKey) : Ensures cfg (installKey cfg pair attempt key)
    (fun _ w' => AuthFate key w.servers w'.servers ∧ HostsFate attempt.entry w.servers w'.servers) w := by
  have hdir : ∀ {s : Side} {q : Text}, (s = .target → q = targetAuthKeys) →
      Spares s q (ofSftp (ensureDir .target sourceSshDir dirMode)) := fun h =>
    spares_ensureDir fun hs => by
      obtain rfl := h hs.symm
      decide
  refine wp_bind_of (wp_and ((hdir (s := .target) fun _ => rfl).ensures rfl)
    ((hdir (s := .source) (q := sourceKnownHosts) fun h => by cases h).ensures rfl)) (fun _ w₁ h₁ => ?_) fun e w₁ h₁ =>
      ⟨.inl h₁.1, .inl h₁.2⟩
  have hline : Spares .source sourceKnownHosts (ensureAuthorizedLine cfg key.line key.comment attempt.key_id.digits) := by
    refine Prog.Only.bind (spares_ofSftp (avoids_readExisting _)) fun existing => Prog.Only.ite trivial ?_
    exact Prog.Only.bind spares_encode fun restricted => spares_writeFile fun h => by cases h
  refine wp_bind_of (wp_and (ensures_ensureAuthorizedLine _ _ _) (hline.ensures rfl)) (fun _ w₂ h₂ => ?_) fun e w₂ h₂ =>
    ⟨h₂.1.fate.congr h₁.1.symm rfl, .inl (h₂.2.trans h₁.2)⟩
  have hentry : Spares .target targetAuthKeys (ensureKnownHostsEntry cfg attempt.entry attempt.key_id.digits) := by
    refine Prog.Only.bind (spares_ofSftp (avoids_readExisting _)) fun existing => ?_
    refine Prog.Only.bind spares_encode fun bytes => Prog.Only.ite trivial (spares_writeFile fun h => by cases h)
  have hfate := h₂.1.fate.congr h₁.1.symm rfl
  have hhosts := h₂.2.trans h₁.2
  refine wp_bind_of (wp_and (hentry.ensures rfl) (ensures_ensureKnownHostsEntry _ _)) (fun _ w₃ h₃ => ?_) fun e w₃ h₃ =>
    ⟨hfate.congr rfl h₃.1, h₃.2.fate.congr hhosts.symm rfl⟩
  have hend : ∀ {w₄ : World}, w₄.servers .target targetAuthKeys = w₃.servers .target targetAuthKeys ∧
      w₄.servers .source sourceKnownHosts = w₃.servers .source sourceKnownHosts →
      AuthFate key w.servers w₄.servers ∧ HostsFate attempt.entry w.servers w₄.servers := fun h =>
    ⟨hfate.congr rfl (h.1.trans h₃.1), h₃.2.fate.congr hhosts.symm h.2⟩
  refine wp_bind_of (wp_and ((spares_runProbe _).ensures rfl) ((spares_runProbe _).ensures rfl)) (fun outcome w₄ h₄ => ?_)
    fun e w₄ h₄ => hend h₄
  obtain ⟨ok, detail⟩ := outcome
  exact wp_ite (fun _ => hend h₄) fun _ => hend h₄

/-- What an attempt came to, and what it did to the two files. -/
structure Attempted (pair : Pair) (attempt : Attempt) (v : Servers) (outcome : Outcome) (v' : Servers) : Prop where
  /-- An attempt that does not know its key has left both files. -/
  auth_same : outcome.key = none → v' .target targetAuthKeys = v .target targetAuthKeys
  hosts_same : outcome.key = none → v' .source sourceKnownHosts = v .source sourceKnownHosts
  named : ∀ key, outcome.key = some key → Named pair key
  auth : ∀ key, outcome.key = some key → AuthFate key v v'
  hosts : ∀ key, outcome.key = some key → HostsFate attempt.entry v v'

lemma ensures_catchAll {α : Type} {p : Auth α} {R : Except Raised α → World → Prop}
    {Q : Except Raised (Except Raised α) → World → Prop} (hp : Ensures cfg p R w)
    (h : ∀ r w', R r w' → Q (.ok r) w') : Ensures cfg (catchAll p) Q w :=
  wp_catching hp (fun a w' hr => h _ w' hr) (fun e w' _ hr => h _ w' hr) fun e w' hk => by cases hk

/-- Whatever happens in steps 3 to 8. -/
lemma ensures_attemptSteps (attempt : Attempt) : Ensures cfg (attemptSteps cfg pair attempt)
    (fun r w' => ∃ outcome, r = .ok outcome ∧ Attempted pair attempt w.servers outcome w'.servers) w := by
  rw [attemptSteps]
  refine wp_bind_of (R := fun r w' => ∃ r', r = .ok r' ∧
      w'.servers .target targetAuthKeys = w.servers .target targetAuthKeys ∧
      w'.servers .source sourceKnownHosts = w.servers .source sourceKnownHosts ∧ ∀ key, r' = .ok key → Named pair key)
    (ensures_catchAll (ensures_prepareKey attempt) fun r w' h => ⟨r, rfl, h⟩) (fun r w₁ h₁ => ?_) fun e w₁ h₁ => by
      obtain ⟨r', hr, -⟩ := h₁
      cases hr
  obtain ⟨r', hr, hauth, hhosts, hnamed⟩ := h₁
  obtain rfl := Except.ok.inj hr
  cases r with
  | error e =>
    have hnone : ∀ {P : PublicKey → Prop} (key : PublicKey), (none : Option PublicKey) = some key → P key := by
      intro P key h
      cases h
    exact ⟨_, rfl, fun _ => hauth, fun _ => hhosts, hnone, hnone, hnone⟩
  | ok key =>
    have hkey := hnamed key rfl
    have hdone : ∀ {w' : World} (is_open : Bool) (failed : Option Raised),
        AuthFate key w.servers w'.servers ∧ HostsFate attempt.entry w.servers w'.servers →
        ∃ outcome : Outcome, (.ok ⟨some key, is_open, failed⟩ : Except Raised Outcome) = .ok outcome ∧
          Attempted pair attempt w.servers outcome w'.servers := by
      intro w' is_open failed h
      have hsame : ∀ {key' : PublicKey}, some key = some key' → key' = key := fun hk => (Option.some.inj hk).symm
      refine ⟨_, rfl, (fun h => by cases h), (fun h => by cases h), fun key' hk => ?_, fun key' hk => ?_, fun key' hk => ?_⟩
      · obtain rfl := hsame hk
        exact hkey
      · obtain rfl := hsame hk
        exact h.1
      · exact h.2
    refine wp_bind_of (R := fun r w' => ∃ r', r = .ok r' ∧ w' = w₁)
      (ensures_catchAll (ensures_talk (o := .openSession .target) trivial) fun r w' h => ⟨r, rfl, h⟩) (fun r w₂ h₂ => ?_)
      fun e w₂ h₂ => by
        obtain ⟨r', hr, -⟩ := h₂
        cases hr
    obtain ⟨r', hr, rfl⟩ := h₂
    obtain rfl := Except.ok.inj hr
    cases r with
    | error e => exact hdone false (some e) ⟨.inl hauth, .inl hhosts⟩
    | ok u =>
      refine wp_bind_of (R := fun r w' => ∃ r', r = .ok r' ∧ AuthFate key w.servers w'.servers ∧
          HostsFate attempt.entry w.servers w'.servers)
        (ensures_catchAll (ensures_installKey attempt key) fun r w' h =>
          ⟨r, rfl, h.1.congr hauth.symm rfl, h.2.congr hhosts.symm rfl⟩) (fun r w₃ h₃ => ?_) fun e w₃ h₃ => by
            obtain ⟨r', hr, -⟩ := h₃
            cases hr
      obtain ⟨r', hr, h₃⟩ := h₃
      obtain rfl := Except.ok.inj hr
      cases r with
      | error e =>
        refine wp_ite (fun _ => ?_) fun _ => hdone true (some e) h₃
        refine wp_bind_of (R := fun r w' => ∃ r', r = .ok r' ∧ w' = w₃)
          (ensures_catchAll ensures_closing fun r w' h => ⟨r, rfl, h⟩) (fun r w₄ h₄ => ?_) fun e' w₄ h₄ => by
            obtain ⟨r', hr, -⟩ := h₄
            cases hr
        obtain ⟨r', hr, rfl⟩ := h₄
        obtain rfl := Except.ok.inj hr
        cases r with
        | ok u => exact hdone false (some e) h₃
        | error e' => exact hdone true (some e') h₃
      | ok u =>
        -- the row is no file of a server
        have hput : ∀ record : PairMetadata, Ensures cfg (call (.put record)) (fun _ w' => w'.servers = w₃.servers) w₃ := by
          intro record
          refine ensures_call fun c _ => ?_
          simp only [AuthOp.act]
          cases c.raises <;> rfl
        refine wp_bind_of (R := fun r w' => ∃ r', r = .ok r' ∧ w'.servers = w₃.servers)
          (ensures_catchAll (hput _) fun r w' h => ⟨r, rfl, h⟩) (fun r w₄ h₄ => ?_) fun e' w₄ h₄ => by
            obtain ⟨r', hr, -⟩ := h₄
            cases hr
        obtain ⟨r', hr, hsame⟩ := h₄
        obtain rfl := Except.ok.inj hr
        rw [← hsame] at h₃
        cases r with
        | error e => exact hdone true (some e) h₃
        | ok u => exact hdone true none h₃

/-! ### Removing the materials -/

lemma spares_removeFromTarget {q : Text} {record : PairMetadata} : Spares .source q (removeFromTarget cfg record) := by
  rw [removeFromTarget_eq]
  refine Prog.Only.bind (spares_trying (spares_talk trivial)) fun r => ?_
  cases r with
  | error e => trivial
  | ok u =>
    refine Prog.Only.andFinally (Prog.Only.bind (spares_trying (spares_removeLine fun h => by cases h)) fun r => ?_)
      spares_closing
    cases r with
    | error e => trivial
    | ok u => trivial

/-- What a removal leaves of `authorized_keys`. -/
def AuthRemoved (cfg : Config) (record : PairMetadata) (v v' : Servers) : Prop :=
  Erased .target targetAuthKeys (recordLine cfg record) v v' ∨ v' .target targetAuthKeys = v .target targetAuthKeys ∨
    v' .target targetAuthKeys = none

lemma Erased.congr_right {s : Side} {path : Text} {p : Bytes → Bool} {v v' v'' : Servers} (h : v'' s path = v' s path)
    (he : Erased s path p v v') : Erased s path p v v'' := by
  rwa [Erased, h, content_congr h]

lemma AuthRemoved.congr {record : PairMetadata} {v v' v'' : Servers}
    (h : v'' .target targetAuthKeys = v' .target targetAuthKeys) (hr : AuthRemoved cfg record v v') :
    AuthRemoved cfg record v v'' := by
  rcases hr with he | he | he
  · exact .inl (he.congr_right h)
  · exact .inr (.inl (h.trans he))
  · exact .inr (.inr (h.trans he))

/-- A removal that notes no failure has taken out the line and both key files. -/
structure Removed (cfg : Config) (pair : Pair) (record : PairMetadata) (blob : Option Text) (v v' : Servers) : Prop where
  auth : Erased .target targetAuthKeys (recordLine cfg record) v v'
  keys : KeysGone pair v'
  hosts : HostsErased blob v v'

lemma removePairMaterials_eq (record : PairMetadata) (blob : Option Text) : removePairMaterials cfg record blob =
    (removeFromTarget cfg record).bind fun failures =>
      (removeFromSource cfg record blob).bind fun more => .ret (failures ++ more) := rfl

lemma ensures_removePairMaterials {record : PairMetadata} (hrec : OfPair pair record) (blob : Option Text) :
    Ensures cfg (removePairMaterials cfg record blob)
      (fun r w' => AuthRemoved cfg record w.servers w'.servers ∧
        (r = .ok [] → Removed cfg pair record blob w.servers w'.servers)) w := by
  rw [removePairMaterials_eq]
  refine wp_bind_of (wp_and (ensures_removeFromTarget record) ((spares_removeFromTarget (q := sourceKnownHosts)).ensures rfl)) (fun failures w₁ h₁ => ?_)
    fun e w₁ h₁ => ⟨?_, fun h => by cases h⟩
  · obtain ⟨hline, hhosts⟩ := h₁
    have hauth : AuthRemoved cfg record w.servers w₁.servers := hline.imp id fun h => h.2
    refine wp_bind_of (wp_and (ensures_removeFromSource hrec blob) ((spares_removeFromSource (q := targetAuthKeys)).ensures rfl))
      (fun more w₂ h₂ => ⟨?_, fun hr => ?_⟩) fun e w₂ h₂ => ⟨?_, fun h => by cases h⟩
    · exact hauth.congr h₂.2
    · obtain ⟨rfl, rfl⟩ := List.append_eq_nil_iff.1 (Except.ok.inj hr)
      obtain ⟨hgone, hkh⟩ := h₂.1 rfl
      refine ⟨?_, hgone, hkh.congr hhosts⟩
      rcases hline with h | ⟨h, -⟩
      · exact h.congr_right h₂.2
      · exact absurd rfl (h ())
    · exact hauth.congr h₂.2
  · exact h₁.1.imp id fun h => h.2

end Attempts

end SshGpuConsole.DirectAuth
