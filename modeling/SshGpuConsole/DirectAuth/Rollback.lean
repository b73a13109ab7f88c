import SshGpuConsole.DirectAuth.Attempts

/-!
# Rolling a failed setup back

A run of `setup_key` whose attempt fails and whose rollback notes no failure: what the rollback looks for
against what the attempt has written, and exactly when the two files are as they were.
-/

namespace SshGpuConsole.DirectAuth
open Shell (Text)
open Effect PosixPath PyText PyLines Ssh Planner

/-! ### The phases of a setup -/

section Phases
variable (cfg : Config) (pair : Pair)

/-- A fresh setup up to the open session of the source: an answer, or the attempt. -/
def openAttempt : Auth (Status ⊕ Attempt) := do
  let key_id ← call .uuid
  match ← consoleReachable .source with
  | some reason => pure (.inl (.unavailable reason))
  | none =>
    match ← consoleReachable .target with
    | some reason => pure (.inl (.unavailable reason))
    | none =>
      let params ← call .resolveParams
      match ← trying (call .verifiedHostKey) with
      | .error _ | .ok none => pure (.inl (.unavailable Reason.hostKeyUnknown.value))
      | .ok (some verified) =>
        match ← trying (call (.openSession .source)) with
        | .error _ => pure (.inl (.unavailable Reason.unknown.value))
        | .ok _ => pure (.inr ⟨key_id, params, verified⟩)

/-- What follows. -/
def endAttempt : Status ⊕ Attempt → Auth Status
  | .inl status => pure status
  | .inr attempt => do
    let outcome ← attemptSteps cfg pair attempt
    finishAttempt cfg pair attempt outcome

/-- `setup_key` up to the attempt. -/
def beginSetup : Auth (Status ⊕ Attempt) := do
  if cfg.casefold pair.source_id = cfg.casefold pair.target_id then
    throw (.failure (.other "source and target servers are the same".toList))
  else
    call (.server .source)
    call (.server .target)
    match ← decideSetup pair with
    | .answer status => pure (.inl status)
    | .fresh => openAttempt
    | .repair existing => do
      repair cfg pair existing
      openAttempt

lemma freshSetup_eq : freshSetup cfg pair = openAttempt.bind (endAttempt cfg pair) := by
  rw [freshSetup, openAttempt]
  simp only [Prog.bind_eq, Prog.pure_eq, Prog.bind_assoc]
  refine congrArg (Prog.bind (call .uuid)) (funext fun key_id => ?_)
  refine congrArg (Prog.bind (consoleReachable .source)) (funext fun r => ?_)
  cases r with
  | some reason => rfl
  | none =>
    dsimp only
    rw [Prog.bind_assoc]
    refine congrArg (Prog.bind (consoleReachable .target)) (funext fun r => ?_)
    cases r with
    | some reason => rfl
    | none =>
      dsimp only
      rw [Prog.bind_assoc]
      refine congrArg (Prog.bind (call .resolveParams)) (funext fun params => ?_)
      rw [Prog.bind_assoc]
      refine congrArg (Prog.bind (trying (call .verifiedHostKey))) (funext fun r => ?_)
      cases r with
      | error e => rfl
      | ok verified =>
        cases verified with
        | none => rfl
        | some verified =>
          dsimp only
          rw [Prog.bind_assoc]
          refine congrArg (Prog.bind (trying (call (.openSession .source)))) (funext fun r => ?_)
          cases r <;> rfl

/-- A setup is its phases. -/
lemma setupKey_eq : setupKey cfg pair = (beginSetup cfg pair).bind (endAttempt cfg pair) := by
  rw [setupKey, beginSetup]
  split
  · rfl
  · simp only [Prog.bind_eq, Prog.pure_eq, Prog.bind_assoc]
    refine congrArg (Prog.bind (call (.server .source))) (funext fun _ => ?_)
    refine congrArg (Prog.bind (call (.server .target))) (funext fun _ => ?_)
    refine congrArg (Prog.bind (decideSetup pair)) (funext fun decision => ?_)
    cases decision with
    | answer status => rfl
    | fresh => exact freshSetup_eq cfg pair
    | repair existing =>
      dsimp only
      rw [Prog.bind_assoc]
      exact congrArg (Prog.bind (repair cfg pair existing)) (funext fun _ => freshSetup_eq cfg pair)

end Phases

/-! ### Runs that fail and are rolled back -/

section Runs
variable {cfg : Config} {pair : Pair} {w : World} {c : ℕ → AuthChoice}

/-- The key a rollback looks for in `known_hosts`. -/
def Outcome.rollbackBlob (outcome : Outcome) : Option Text :=
  (outcome.key.map PublicKey.line).bind fun line => (split line)[1]?

/-- A run of `setup_key` whose attempt fails, with a rollback that notes no failure. -/
structure RolledBack (cfg : Config) (pair : Pair) (w : World) (c : ℕ → AuthChoice) where
  attempt : Attempt
  /-- Where the attempt starts. -/
  start : World
  started : ℕ → AuthChoice
  begins : exec (environment cfg) (beginSetup cfg pair) w c = (.ok (.inr attempt), start, started)
  outcome : Outcome
  /-- Where it stopped. -/
  stop : World
  stopped : ℕ → AuthChoice
  steps : exec (environment cfg) (attemptSteps cfg pair attempt) start started = (.ok outcome, stop, stopped)
  failure : Raised
  fails : outcome.failed = some failure
  caught : failure.isException = true
  /-- What the rollback left. -/
  rolled : World
  rest : ℕ → AuthChoice
  removal : exec (environment cfg)
    (removePairMaterials cfg (rowOf pair attempt.key_id.digits []) outcome.rollbackBlob) stop stopped = (.ok [], rolled, rest)

namespace RolledBack

/-- The file of authorized keys at a point of the run. -/
def auth (w : World) : Option Bytes := (w.servers .target).content targetAuthKeys

/-- The console's `known_hosts` at a point of the run. -/
def hosts (w : World) : Option Bytes := (w.servers .source).content sourceKnownHosts

/-- The comment the rollback looks for. -/
def comment (run : RolledBack cfg pair w c) : Text :=
  DirectAuth.comment pair.source_id pair.target_id run.attempt.key_id.digits

/-- No cancellation arrives while the sessions are closed. -/
def ClosesUndisturbed (run : RolledBack cfg pair w c) : Prop :=
  (run.outcome.target_open = true → (run.rest 0).raises ≠ some .cancelled) ∧
    (run.rest (if run.outcome.target_open = true then 1 else 0)).raises ≠ some .cancelled

/-- The clean-up of a setup, in the order of the closings. -/
def closings (outcome : Outcome) : Auth Unit := do
  if outcome.target_open then suppressing (call (.closeSession .target))
  suppressing (call (.closeSession .source))

lemma exec_closings (run : RolledBack cfg pair w c) : ∃ r c',
    exec (environment cfg) (closings run.outcome) run.rolled run.rest = (r, run.rolled, c') ∧
      (run.ClosesUndisturbed → r = .ok ()) ∧ (¬run.ClosesUndisturbed → r = .error (.failure .cancelled)) := by
  have hlast : ∀ c₁ : ℕ → AuthChoice, exec (environment cfg) (suppressing (call (.closeSession .source))) run.rolled c₁ =
      (if (c₁ 0).raises = some .cancelled then .error (.failure .cancelled) else .ok (), run.rolled, later c₁) :=
    exec_closeSession cfg .source run.rolled
  rw [closings, ClosesUndisturbed]
  cases run.outcome.target_open with
  | false =>
    refine ⟨_, _, hlast run.rest, fun h => if_neg h.2, fun h => if_pos ?_⟩
    by_contra hne
    exact h ⟨(fun h => by cases h), hne⟩
  | true =>
    have hfirst := exec_closeSession cfg .target run.rolled run.rest
    by_cases h0 : (run.rest 0).raises = some .cancelled
    · rw [if_pos h0] at hfirst
      exact ⟨_, _, exec_bind_of_error hfirst, fun h => absurd h0 (h.1 rfl), fun _ => rfl⟩
    · rw [if_neg h0] at hfirst
      refine ⟨_, _, (exec_bind_of_ok hfirst).trans (hlast (later run.rest)), fun h => if_neg h.2, fun h => if_pos ?_⟩
      by_contra hne
      exact h ⟨fun _ => h0, hne⟩

/-- Closing the sessions is all that happens behind the rollback. -/
lemma exec_setupKey (run : RolledBack cfg pair w c) : ∃ r c',
    exec (environment cfg) (setupKey cfg pair) w c = (r, run.rolled, c') ∧
      (run.ClosesUndisturbed → r = .ok (.unavailable (failureReason run.failure).value)) ∧
      (¬run.ClosesUndisturbed → ∃ e, r = .error e) := by
  have hroll : exec (environment cfg) (rollbackAttempt cfg pair run.attempt (run.outcome.key.map PublicKey.line)) run.stop
      run.stopped = (.ok (), run.rolled, run.rest) :=
    exec_suppress_of_ok (exec_bind_of_ok run.removal)
  obtain ⟨r, c', hclose, hquiet, hloud⟩ := run.exec_closings
  have hrun : exec (environment cfg) (setupKey cfg pair) w c =
      exec (environment cfg) (finishAttempt cfg pair run.attempt run.outcome) run.stop run.stopped := by
    rw [setupKey_eq, exec_bind_of_ok run.begins]
    exact exec_bind_of_ok run.steps
  rw [hrun, finishAttempt, run.fails]
  dsimp only
  rw [if_pos run.caught]
  cases r with
  | ok u => exact ⟨_, c', exec_andFinally_of_ok (exec_bind_of_ok hroll) hclose, fun _ => rfl, fun h => by cases hloud h⟩
  | error e =>
    refine ⟨_, c', exec_andFinally_of_error (exec_bind_of_ok hroll) hclose, fun h => ?_, fun _ => ⟨e, rfl⟩⟩
    cases hquiet h

/-- What the steps of the attempt did. -/
lemma attempted (run : RolledBack cfg pair w c) (hc : ∀ n, Honest (c n).sftp) :
    Attempted pair run.attempt run.start.servers run.outcome run.stop.servers := by
  obtain ⟨n, hn⟩ := exec_rest (M := environment cfg) (beginSetup cfg pair) w c
  rw [run.begins] at hn
  have hspec : Ensures cfg (attemptSteps cfg pair run.attempt) _ run.start := ensures_attemptSteps run.attempt
  have hm := wp_exec hspec
    (meets_of_forall (c := run.started) fun i _ _ => by rw [show run.started = fun i => c (i + n) from hn]; exact hc _)
  rw [run.steps] at hm
  obtain ⟨outcome, ho, h⟩ := hm
  rwa [Except.ok.inj ho]

/-- What the rollback did. -/
lemma removed (run : RolledBack cfg pair w c) (hc : ∀ n, Honest (c n).sftp) :
    Removed cfg pair (rowOf pair run.attempt.key_id.digits []) run.outcome.rollbackBlob run.stop.servers
      run.rolled.servers := by
  obtain ⟨n, hn⟩ := exec_rest (M := environment cfg) (beginSetup cfg pair) w c
  rw [run.begins] at hn
  obtain ⟨m, hm⟩ := exec_rest (M := environment cfg) (attemptSteps cfg pair run.attempt) run.start run.started
  rw [run.steps, show run.started = fun i => c (i + n) from hn] at hm
  have hrow : OfPair pair (rowOf pair run.attempt.key_id.digits []) := ⟨rfl, rfl⟩
  have hspec : Ensures cfg (removePairMaterials cfg (rowOf pair run.attempt.key_id.digits []) run.outcome.rollbackBlob) _
      run.stop := ensures_removePairMaterials hrow run.outcome.rollbackBlob
  have hr := wp_exec hspec
    (meets_of_forall (c := run.stopped) fun i _ _ => by
      rw [show run.stopped = fun i => c (i + m + n) from hm]
      exact hc _)
  rw [run.removal] at hr
  exact hr.2 rfl

/-- A line of the file carries a key. -/
def CarriesKey (blob : Text) (content : Bytes) : Prop := ∃ fields ∈ entries content, blob ∈ fields.tail

/-- The verified host key's entry does not carry the pair's key. -/
def Distinct (run : RolledBack cfg pair w c) : Prop :=
  ∀ key line, run.outcome.key = some key → encodeAscii run.attempt.entry = some line → ¬CarriesKey key.blob (line ++ [10])

/-- The rollback looks for the pair's key. -/
lemma rollbackBlob_eq {outcome : Outcome} {key : PublicKey} (hkey : outcome.key = some key) (hnamed : Named pair key) :
    outcome.rollbackBlob = some key.blob := by
  rw [Outcome.rollbackBlob, hkey]
  show (split (key.key_type ++ ' ' :: key.blob))[1]? = some key.blob
  rw [split_cons hnamed.key_type, split_word hnamed.blob.2 hnamed.blob.1]
  rfl

/-- What the removal of a line comes to, read as contents. -/
lemma erased_content {s : Side} {path : Text} {p : Bytes → Bool} {v v' : Servers} (h : Erased s path p v v') :
    (v s).content path = none ∧ (v' s).content path = none ∨
      ∃ b, (v s).content path = some b ∧ (v' s).content path = some ((byteBreaks.keepLines b).eraseP p).flatten := by
  rcases h with ⟨h, h'⟩ | h
  · exact .inl ⟨by rw [Server.content, h], by rw [Server.content, h']⟩
  · exact .inr h

/-- A file that was left, without the first line of a kind. -/
lemma restored_same_iff {p : Bytes → Bool} {q : List Text → Bool} (hpq : ∀ line, p line = (entryOf line).any q)
    {before after : Option Bytes} (h : before = none ∧ after = none ∨
      ∃ b, before = some b ∧ after = some ((byteBreaks.keepLines b).eraseP p).flatten) :
    Restored before after ↔ ∀ fields ∈ entries (before.getD []), q fields = false := by
  rcases h with ⟨rfl, rfl⟩ | ⟨b, rfl, rfl⟩
  · exact iff_of_true (.inl rfl) fun fields hf => absurd hf List.not_mem_nil
  · exact restored_eraseP_iff hpq b

/-- The kind of the authorized line, in the fields of a line. -/
def commentIs (cm : Text) (fields : List Text) : Bool := entryComment fields = some cm

lemma recordLine_eq (attempt : Attempt) (line : Bytes) :
    recordLine cfg (rowOf pair attempt.key_id.digits []) line =
      (entryOf line).any (commentIs (DirectAuth.comment pair.source_id pair.target_id attempt.key_id.digits)) := by
  show isLineOf cfg none _ line = _
  rw [isLineOf, lineComment_eq, Bool.and_true]
  cases entryOf line with
  | none => rfl
  | some fields => rfl

lemma not_hasComment_iff (cm : Text) (content : Bytes) :
    ¬HasComment cm content ↔ ∀ fields ∈ entries content, commentIs cm fields = false := by
  constructor
  · exact fun h fields hf => Bool.eq_false_iff.2 fun hx => h ⟨fields, hf, of_decide_eq_true hx⟩
  · rintro h ⟨fields, hf, hcm⟩
    have hx := h fields hf
    rw [show commentIs cm fields = true from decide_eq_true hcm] at hx
    cases hx

/-- A file the service reads, as a content. -/
lemma old_content {s : Side} {path : Text} {v : Servers} {old : Bytes} (h : Old s path v old) :
    (v s).content path = none ∧ old = [] ∨ (v s).content path = some old :=
  h.imp (fun h => ⟨by rw [Server.content, h.1], h.2⟩) id

lemma appendLine_ne {before : Option Bytes} {old line : Bytes} (h : before = none ∧ old = [] ∨ before = some old) :
    some (appendLine old line) ≠ before := by
  intro he
  rcases h with ⟨rfl, -⟩ | rfl
  · cases he
  · have hlen := congrArg List.length (Option.some.inj he)
    rw [appendLine, List.length_append, List.length_append, List.length_singleton] at hlen
    split at hlen
    · omega
    · rw [List.length_append] at hlen
      omega

/-- When `authorized_keys` is as it was: the attempt's comment is on no line of the file, the file was not lost,
and what was added, if anything, has the attempt's comment. -/
lemma auth_restored_iff (run : RolledBack cfg pair w c) (hc : ∀ n, Honest (c n).sftp) :
    Restored (auth run.start) (auth run.rolled) ↔
      ((auth run.start).isSome → (auth run.stop).isSome) ∧
      (∀ key, auth run.stop ≠ auth run.start → run.outcome.key = some key → key.comment = run.comment) ∧
      ¬HasComment run.comment ((auth run.start).getD []) := by
  have hfacts := run.attempted hc
  have herased := erased_content (run.removed hc).auth
  have hq : ∀ line, recordLine cfg (rowOf pair run.attempt.key_id.digits []) line =
      (entryOf line).any (commentIs run.comment) := recordLine_eq run.attempt
  rw [not_hasComment_iff]
  have hsame : auth run.stop = auth run.start → (Restored (auth run.start) (auth run.rolled) ↔
      ((auth run.start).isSome → (auth run.stop).isSome) ∧
      (∀ key, auth run.stop ≠ auth run.start → run.outcome.key = some key → key.comment = run.comment) ∧
      ∀ fields ∈ entries ((auth run.start).getD []), commentIs run.comment fields = false) := by
    intro h
    rw [← h]
    have hiff := restored_same_iff hq herased
    rw [show Restored (auth run.stop) (auth run.rolled) ↔ _ from hiff]
    exact ⟨fun hno => ⟨id, fun _ hne => absurd rfl hne, hno⟩, fun h => h.2.2⟩
  cases hkey : run.outcome.key with
  | none =>
    rw [← hkey]
    exact hsame (content_congr (hfacts.auth_same hkey))
  | some key =>
    rw [← hkey]
    have hnamed := hfacts.named key hkey
    rcases hfacts.auth key hkey with h | ⟨old, line, hold, hno, henc, h⟩
    · exact hsame (content_congr h)
    · have hold := old_content hold
      obtain ⟨id, hid, hcomment⟩ := hnamed.comment
      rw [hcomment] at henc
      rcases h with h | h
      · -- the line was added
        have hne : auth run.stop ≠ auth run.start := by
          rw [auth, h]
          exact appendLine_ne hold
        have hafter : auth run.rolled = some ((byteBreaks.keepLines (appendLine old line)).eraseP
            (recordLine cfg (rowOf pair run.attempt.key_id.digits []))).flatten := by
          rcases herased with ⟨hx, -⟩ | ⟨b, hb, hx⟩
          · rw [h] at hx
            cases hx
          · obtain rfl := Option.some.inj (h.symm.trans hb)
            exact hx
        have hentries : entries (line ++ [10]) = [[restrictedOptions, key.key_type, key.blob,
            DirectAuth.comment pair.source_id pair.target_id id]] :=
          entries_restricted hnamed.key_type hnamed.blob (token_comment hid) henc
        rw [hafter]
        by_cases hown : key.comment = run.comment
        · have hforeign : ∀ fields ∈ entries old, commentIs run.comment fields = false := by
            rw [← hown]
            exact (not_hasComment_iff _ _).1 hno
          refine iff_of_true (restored_appended hq hold (keepLines_restricted hnamed.key_type hnamed.blob (token_comment hid) henc) ?_ hforeign)
            ⟨fun _ => ?_, fun key' _ hk => ?_, fun fields hf => hforeign fields ?_⟩
          · rw [hq]
            -- the line that was added is the one that is looked for
            have hmem : [restrictedOptions, key.key_type, key.blob, DirectAuth.comment pair.source_id pair.target_id id] ∈
                entries (line ++ [10]) := by
              rw [hentries]
              exact List.mem_singleton_self _
            obtain ⟨l, hl, he⟩ := List.mem_filterMap.1 hmem
            rw [keepLines_restricted hnamed.key_type hnamed.blob (token_comment hid) henc] at hl
            rw [← List.mem_singleton.1 hl, he]
            show commentIs run.comment _ = true
            rw [← hown, hcomment]
            exact decide_eq_true rfl
          · rw [auth, h]
            rfl
          · obtain rfl := Option.some.inj (hk.symm.trans hkey)
            exact hown
          · rcases hold with ⟨hn, rfl⟩ | hs
            · rw [auth, hn] at hf
              exact hf
            · rw [auth, hs] at hf
              exact hf
        · refine iff_of_false (not_restored_appended hq hold ?_ ?_) fun hx => hown (hx.2.1 key hne hkey)
          · rintro rfl
            cases hentries
          · intro fields hf
            rw [hentries, List.mem_singleton] at hf
            subst hf
            refine decide_eq_false fun hx => hown ?_
            rw [hcomment]
            exact Option.some.inj hx
      · -- the file was lost
        have hstop : auth run.stop = none := by rw [auth, Server.content, h]
        cases hb : auth run.start with
        | none => exact hb ▸ hsame (hstop.trans hb.symm)
        | some b =>
          have hrolled : auth run.rolled = none := by
            rcases herased with ⟨-, hx⟩ | ⟨b', hb', -⟩
            · exact hx
            · rw [show (run.stop.servers .target).content targetAuthKeys = none from hstop] at hb'
              cases hb'
          refine iff_of_false (fun hr => ?_) fun hx => ?_
          · rw [hrolled] at hr
            rcases hr with hr | hr <;> cases hr
          · have := hx.1 rfl
            rw [hstop] at this
            cases this

lemma not_carriesKey_iff (blob : Text) (content : Bytes) :
    ¬CarriesKey blob content ↔ ∀ fields ∈ entries content, fields.tail.contains blob = false := by
  constructor
  · exact fun h fields hf => Bool.eq_false_iff.2 fun hx => h ⟨fields, hf, List.contains_iff_mem.1 hx⟩
  · rintro h ⟨fields, hf, hb⟩
    have hx := h fields hf
    rw [List.contains_iff_mem.2 hb] at hx
    cases hx

/-- An entry is not empty. -/
lemma entry_ne_nil (attempt : Attempt) {line : Bytes} (h : encodeAscii attempt.entry = some line) : line ≠ [] := by
  rintro rfl
  have hmap := (mem_encodeAscii h).1
  have hentry : attempt.entry ≠ [] := by
    rw [Attempt.entry, VerifiedHostKey.knownHostsEntry]
    exact fun hn => by cases (List.append_eq_nil_iff.1 hn).2
  exact hentry (List.map_eq_nil_iff.1 hmap.symm)

/-- When `known_hosts` is as it was: the attempt did not write it, and the pair's key is on none of its lines. -/
lemma hosts_restored_iff (run : RolledBack cfg pair w c) (hc : ∀ n, Honest (c n).sftp) (hd : run.Distinct) :
    Restored (hosts run.start) (hosts run.rolled) ↔ hosts run.stop = hosts run.start ∧
      ∀ key, run.outcome.key = some key → ¬CarriesKey key.blob ((hosts run.start).getD []) := by
  have hfacts := run.attempted hc
  have hremoved := (run.removed hc).hosts
  cases hkey : run.outcome.key with
  | none =>
    -- the rollback leaves the file when the key is not known
    have hblob : run.outcome.rollbackBlob = none := by rw [Outcome.rollbackBlob, hkey]; rfl
    rw [hblob] at hremoved
    have hstop : hosts run.stop = hosts run.start := content_congr (hfacts.hosts_same hkey)
    have hrolled : hosts run.rolled = hosts run.stop := content_congr hremoved
    rw [hrolled, hstop]
    exact iff_of_true (Restored.refl _) ⟨rfl, fun key h => by cases h⟩
  | some key =>
    have hnamed := hfacts.named key hkey
    rw [rollbackBlob_eq hkey hnamed] at hremoved
    have herased : Erased .source sourceKnownHosts (carries key.blob) run.stop.servers run.rolled.servers := by
      obtain ⟨z, zs, hz⟩ := List.exists_cons_of_ne_nil hnamed.blob.1
      rw [hz] at hremoved ⊢
      exact hremoved
    have herased := erased_content herased
    have hq := carries_eq key.blob
    have hone : (∀ key', some key = some key' → ¬CarriesKey key'.blob ((hosts run.start).getD [])) ↔
        ∀ fields ∈ entries ((hosts run.start).getD []), fields.tail.contains key.blob = false := by
      rw [← not_carriesKey_iff]
      exact ⟨fun h => h key rfl, fun h key' hk => by rwa [← Option.some.inj hk]⟩
    rw [hone]
    have hsame : hosts run.stop = hosts run.start → (Restored (hosts run.start) (hosts run.rolled) ↔
        hosts run.stop = hosts run.start ∧
        ∀ fields ∈ entries ((hosts run.start).getD []), fields.tail.contains key.blob = false) := by
      intro h
      rw [← h]
      have hiff := restored_same_iff hq herased
      rw [show Restored (hosts run.stop) (hosts run.rolled) ↔ _ from hiff]
      exact ⟨fun hno => ⟨rfl, hno⟩, fun hx => hx.2⟩
    rcases hfacts.hosts key hkey with h | ⟨old, line, hold, henc, h⟩
    · exact hsame (content_congr h)
    · have hold := old_content hold
      rcases h with h | h
      · -- the entry was added, and nothing looks for it
        have hafter : hosts run.rolled =
            some ((byteBreaks.keepLines (appendLine old line)).eraseP (carries key.blob)).flatten := by
          rcases herased with ⟨hx, -⟩ | ⟨b, hb, hx⟩
          · rw [h] at hx
            cases hx
          · obtain rfl := Option.some.inj (h.symm.trans hb)
            exact hx
        rw [hafter]
        refine iff_of_false (not_restored_appended hq hold (entry_ne_nil run.attempt henc)
          ((not_carriesKey_iff _ _).1 (hd key line hkey henc))) fun hx => ?_
        have hne := hx.1
        rw [hosts, h] at hne
        exact appendLine_ne hold hne
      · -- the file was lost
        have hstop : hosts run.stop = none := by rw [hosts, Server.content, h]
        cases hb : hosts run.start with
        | none => exact hb ▸ hsame (hstop.trans hb.symm)
        | some b =>
          have hrolled : hosts run.rolled = none := by
            rcases herased with ⟨-, hx⟩ | ⟨b', hb', -⟩
            · exact hx
            · rw [show (run.stop.servers .source).content sourceKnownHosts = none from hstop] at hb'
              cases hb'
          refine iff_of_false (fun hr => ?_) fun hx => ?_
          · rw [hrolled] at hr
            rcases hr with hr | hr <;> cases hr
          · rw [hstop] at hx
            cases hx.1

/-- The law: the answer is that the pair is not configured, both files are as they were, and the key files the
attempt made are gone. -/
structure LeavesNothing (run : RolledBack cfg pair w c) (r : Except Raised Status) (after : World) : Prop where
  answers : ∃ status, r = .ok status ∧ status.configured = false
  auth : Restored (auth run.start) (auth after)
  hosts : Restored (hosts run.start) (hosts after)
  private_key : run.start.servers .source (privatePath pair) = none → after.servers .source (privatePath pair) = none
  public_key : run.start.servers .source (pubPath (privatePath pair)) = none →
    after.servers .source (pubPath (privatePath pair)) = none

/-- Nothing the attempt did is out of the rollback's reach. -/
structure InReach (run : RolledBack cfg pair w c) : Prop where
  closes : run.ClosesUndisturbed
  /-- The rollback takes out the attempt's own line, and only that. -/
  own_comment : ∀ key, RolledBack.auth run.stop ≠ RolledBack.auth run.start → run.outcome.key = some key →
    key.comment = run.comment
  foreign_comment : ¬HasComment run.comment ((RolledBack.auth run.start).getD [])
  /-- The entry of `known_hosts` carries the host key, and the rollback looks for the pair's key. -/
  hosts_unwritten : RolledBack.hosts run.stop = RolledBack.hosts run.start
  foreign_key : ∀ key, run.outcome.key = some key → ¬CarriesKey key.blob ((RolledBack.hosts run.start).getD [])
  /-- A rename that fails half way loses the file. -/
  auth_kept : (RolledBack.auth run.start).isSome → (RolledBack.auth run.stop).isSome

/-- A failed setup whose rollback notes no failure leaves nothing of its own exactly when the attempt stopped
before it wrote `known_hosts`, and the line it added to `authorized_keys`, if any, is the one with its comment. -/
theorem leavesNothing_iff (run : RolledBack cfg pair w c) (hc : ∀ n, Honest (c n).sftp) (hd : run.Distinct) :
    run.LeavesNothing (exec (environment cfg) (setupKey cfg pair) w c).1
      (exec (environment cfg) (setupKey cfg pair) w c).2.1 ↔ run.InReach := by
  obtain ⟨r, c', hrun, hquiet, hloud⟩ := run.exec_setupKey
  rw [hrun]
  have hkeys := (run.removed hc).keys
  constructor
  · intro h
    obtain ⟨hkept, hown, hforeign⟩ := (run.auth_restored_iff hc).1 h.auth
    obtain ⟨hunwritten, hkey⟩ := (run.hosts_restored_iff hc hd).1 h.hosts
    refine ⟨?_, hown, hforeign, hunwritten, hkey, hkept⟩
    by_contra hclose
    obtain ⟨e, he⟩ := hloud hclose
    obtain ⟨status, hs, -⟩ := h.answers
    cases he.symm.trans hs
  · intro h
    refine ⟨⟨_, hquiet h.closes, rfl⟩, ?_, ?_, fun _ => hkeys.1, fun _ => hkeys.2⟩
    · exact (run.auth_restored_iff hc).2 ⟨h.auth_kept, h.own_comment, h.foreign_comment⟩
    · exact (run.hosts_restored_iff hc hd).2 ⟨h.hosts_unwritten, h.foreign_key⟩

end RolledBack

end Runs

/-! ### A refused final check -/

/-- The answers of servers on which everything works; the host key is not the pair's key. -/
def working : AuthChoice where
  sftp := .ok
  raises := none
  steps := 0
  result := ⟨0, "ssh-ed25519 AAAA".toList⟩
  key_files := ([1], [2])
  params := { host := ['b'] }
  host_key := some ⟨"ssh-ed25519".toList, "ssh-ed25519 BBBB".toList, "SHA256:BBBB".toList⟩
  digits := failing.digits

/-- Everything works but the check that decides. -/
def refusedCheck : ℕ → AuthChoice := fun n =>
  if n = 45 then { working with result := ⟨255, "Connection refused".toList⟩ } else working

/-- Servers without a file. -/
def emptyWorld : World := ⟨fun _ _ => none, {}⟩

/-- The attempt. -/
def refusedAttempt : Attempt :=
  ⟨working.digits, working.params, ⟨"ssh-ed25519".toList, "ssh-ed25519 BBBB".toList, "SHA256:BBBB".toList⟩⟩

/-- What it comes to: the key is known and the check failed. -/
def refusedOutcome : Outcome :=
  ⟨some ⟨comment ['a'] ['b'] "0123abcd".toList, "ssh-ed25519".toList, "AAAA".toList, "SHA256:AAAA".toList⟩, false,
    some (.setup .routeUnreachable)⟩

/-- Where it starts. -/
def refusedStart := (exec (environment plainConfig) (beginSetup plainConfig abPair) emptyWorld refusedCheck).2

/-- Where it stops. -/
def refusedStop := (exec (environment plainConfig) (attemptSteps plainConfig abPair refusedAttempt) refusedStart.1
  refusedStart.2).2

/-- The rollback. -/
def refusedRemoval := exec (environment plainConfig)
  (removePairMaterials plainConfig (rowOf abPair refusedAttempt.key_id.digits []) refusedOutcome.rollbackBlob)
  refusedStop.1 refusedStop.2

lemma refusedRemoval_eq : refusedRemoval = (.ok [], refusedRemoval.2.1, refusedRemoval.2.2) := by
  have h : refusedRemoval.1 = .ok [] := by decide +kernel
  rw [← h]

/-- The run. -/
def refusedRun : RolledBack plainConfig abPair emptyWorld refusedCheck where
  attempt := refusedAttempt
  start := refusedStart.1
  started := refusedStart.2
  begins := exec_of_result (by decide +kernel)
  outcome := refusedOutcome
  stop := refusedStop.1
  stopped := refusedStop.2
  steps := exec_of_result (by decide +kernel)
  failure := .setup .routeUnreachable
  fails := rfl
  caught := rfl
  rolled := refusedRemoval.2.1
  rest := refusedRemoval.2.2
  removal := refusedRemoval_eq

lemma refusedCheck_honest (n : ℕ) : Honest (refusedCheck n).sftp := by
  intro e he
  unfold refusedCheck at he
  split at he <;> cases he

/-- The entry of the host key has its own key. -/
lemma refusedRun_distinct : refusedRun.Distinct := by
  have hentry : (encodeAscii refusedAttempt.entry).map (fun line => entries (line ++ [10])) =
      some [["b".toList, "ssh-ed25519".toList, "BBBB".toList]] := by
    decide +kernel
  rintro key line hkey hline ⟨fields, hf, hb⟩
  obtain rfl := Option.some.inj hkey
  rw [show encodeAscii refusedAttempt.entry = some line from hline] at hentry
  have hone : entries (line ++ [10]) = [["b".toList, "ssh-ed25519".toList, "BBBB".toList]] := Option.some.inj hentry
  rw [hone, List.mem_singleton] at hf
  subst hf
  revert hb
  decide

namespace RolledBack

/-- The law at that run. -/
theorem leavesNothing_refused :
    refusedRun.LeavesNothing (exec (environment plainConfig) (setupKey plainConfig abPair) emptyWorld refusedCheck).1
      (exec (environment plainConfig) (setupKey plainConfig abPair) emptyWorld refusedCheck).2.1 ↔ refusedRun.InReach :=
  refusedRun.leavesNothing_iff refusedCheck_honest refusedRun_distinct

/-- The rollback looks for the pair's key, and the host key's entry stays. -/
theorem rollback_keeps_host_key :
    ¬∀ (cfg : Config) (pair : Pair) (w : World) (c : ℕ → AuthChoice) (run : RolledBack cfg pair w c),
      (∀ n, Honest (c n).sftp) → run.Distinct →
      run.LeavesNothing (exec (environment cfg) (setupKey cfg pair) w c).1
        (exec (environment cfg) (setupKey cfg pair) w c).2.1 := by
  intro h
  have hhosts := (h _ _ _ _ refusedRun refusedCheck_honest refusedRun_distinct).hosts
  have hafter : hosts (exec (environment plainConfig) (setupKey plainConfig abPair) emptyWorld refusedCheck).2.1 =
      some ("b ssh-ed25519 BBBB\n".toList.map fun c => UInt8.ofNat c.toNat) := by
    decide +kernel
  have hbefore : hosts refusedStart.1 = none := by decide +kernel
  rw [hafter, show hosts refusedRun.start = none from hbefore] at hhosts
  rcases hhosts with hx | hx <;> cases hx

end RolledBack

end SshGpuConsole.DirectAuth
