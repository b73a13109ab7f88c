import SshGpuConsole.DirectAuth.Changes

/-!
# The edits of `authorized_keys`

`_ensure_authorized_line` appends one line behind the lines that are there, and `_remove_authorized_line` takes it out
again: what is left is the file as it was, with the final newline that it lacked (`edits_undo`).
-/

namespace SshGpuConsole.DirectAuth
open Shell (Text)
open Effect PosixPath PyText PyLines Ssh Planner

/-! ### Lines -/

/-- A file with its final newline. -/
def newlined (content : Bytes) : Bytes :=
  if content = [] ∨ content.getLast? = some 10 then content else content ++ [10]

lemma newlined_cases (content : Bytes) : newlined content = content ∧ (content = [] ∨ content.getLast? = some 10) ∨
    newlined content = content ++ [10] ∧ content ≠ [] ∧ content.getLast? ≠ some 10 := by
  unfold newlined
  split
  · rename_i h
    exact .inl ⟨rfl, h⟩
  · rename_i h
    exact .inr ⟨rfl, not_or.1 h⟩

lemma newlined_closed (content : Bytes) : newlined content = [] ∨ (newlined content).getLast? = some byteBreaks.lf := by
  obtain ⟨heq, hclosed⟩ | ⟨heq, -⟩ := newlined_cases content
  · rw [heq]
    exact hclosed
  · rw [heq]
    exact .inr List.getLast?_concat

lemma lines_newlined (content : Bytes) : byteBreaks.lines (newlined content) = byteBreaks.lines content := by
  obtain ⟨heq, -⟩ | ⟨heq, hne, hlast⟩ := newlined_cases content
  · rw [heq]
  · rw [heq]
    exact Breaks.lines_missing_lf byteBreaks_onlyLfCr hne hlast

lemma appendLine_eq (existing line : Bytes) : appendLine existing line = newlined existing ++ (line ++ [10]) := by
  unfold appendLine newlined
  rw [List.append_assoc]
  by_cases h : existing = [] ∨ existing.getLast? = some 10
  · rw [if_pos h, if_pos (by simpa using h)]
  · rw [if_neg h, if_neg (by simpa using h)]

section Edits
variable {cfg : Config} {key_type blob cm fingerprint : Text} {line old : Bytes}

/-- What the lines of a file are behind an edit. -/
lemma keepLines_appendLine (hline : byteBreaks.keepLines (line ++ [10]) = [line ++ [10]]) (old : Bytes) :
    byteBreaks.keepLines (appendLine old line) = byteBreaks.keepLines (newlined old) ++ [line ++ [10]] := by
  rw [appendLine_eq, Breaks.keepLines_append (newlined_closed old), hline]

lemma chop_of_unbroken (h : ∀ b ∈ line, byteBreaks.isBreak b = false) : byteBreaks.chop (line ++ [10]) = line := by
  have hlast : ∀ b, line.getLast? = some b → byteBreaks.isBreak b = false := fun b hb => h b (List.mem_of_getLast? hb)
  have hlf : line.getLast? ≠ some byteBreaks.lf := by
    intro hl
    have hbreak := hlast _ hl
    rw [byteBreaks.lf_break] at hbreak
    cases hbreak
  have hchop : byteBreaks.chop (line ++ [10]) = byteBreaks.chop line := Breaks.chop_missing_lf byteBreaks_onlyLfCr hlf
  rw [hchop, Breaks.chop, if_neg]
  intro hany
  obtain ⟨b, hb, hbreak⟩ := (Option.any_eq_true _ _).1 hany
  rw [hlast b hb] at hbreak
  cases hbreak

/-- No line has the comment, in whichever way the file is split. -/
def Free (cm : Text) (content : Bytes) : Prop := ∀ line ∈ byteBreaks.lines content, lineComment line ≠ some cm

lemma Free.keepLines (h : Free cm old) : ∀ l ∈ byteBreaks.keepLines (newlined old), lineComment l ≠ some cm := by
  intro l hl
  have hmem : byteBreaks.chop l ∈ byteBreaks.lines old := lines_newlined old ▸ List.mem_map_of_mem hl
  have hsame : lineComment (byteBreaks.chop l) = lineComment l := by
    rw [lineComment_eq, entryOf_chop, ← lineComment_eq]
  exact hsame ▸ h _ hmem

lemma lineComment_restricted (hk : Token key_type) (hb : Token blob) (hcm : Token cm)
    (henc : encodeAscii (restrictedText key_type blob cm) = some line) :
    lineComment line = some cm ∧ lineBlob line = some blob := by
  have hentry := entryOf_restricted hk hb hcm henc
  rw [lineComment_eq, lineBlob_eq, hentry]
  exact ⟨rfl, rfl⟩

/-- Lines without the comment are passed. -/
lemma dropAuthorized_append (fingerprint : Option Text) {ls : List Bytes} (hfree : ∀ l ∈ ls, lineComment l ≠ some cm)
    (rest : List Bytes) : dropAuthorized cfg fingerprint cm (ls ++ rest) =
      (dropAuthorized cfg fingerprint cm rest).map (ls ++ ·) := by
  induction ls with
  | nil => exact Option.map_id'.symm
  | cons l ls ih =>
    have hskip : dropAuthorized cfg fingerprint cm (l :: (ls ++ rest)) =
        (dropAuthorized cfg fingerprint cm (ls ++ rest)).map (l :: ·) := by
      conv_lhs => unfold dropAuthorized
      exact if_neg (hfree l List.mem_cons_self)
    rw [List.cons_append, hskip, ih fun m hm => hfree m (List.mem_cons_of_mem l hm), Option.map_map]
    rfl

/-- The appended line is the one that goes. -/
lemma dropAuthorized_appendLine (hk : Token key_type) (hb : Token blob) (hcm : Token cm)
    (henc : encodeAscii (restrictedText key_type blob cm) = some line)
    (hfingerprint : cfg.opensshFingerprint blob = some fingerprint) (hfree : Free cm old) :
    dropAuthorized cfg (some fingerprint) cm (byteBreaks.keepLines (appendLine old line)) =
      some (byteBreaks.keepLines (newlined old)) := by
  have hread : lineComment (line ++ [10]) = some cm ∧ lineBlob (line ++ [10]) = some blob := by
    have hlf : entryOf (line ++ [10]) = entryOf line := entryOf_lf line
    rw [lineComment_eq, lineBlob_eq, hlf, ← lineComment_eq, ← lineBlob_eq]
    exact lineComment_restricted hk hb hcm henc
  have hgone : dropAuthorized cfg (some fingerprint) cm [line ++ [10]] = some [] := by
    unfold dropAuthorized
    rw [if_pos hread.1]
    dsimp only
    rw [hread.2]
    dsimp only
    rw [hfingerprint]
    exact if_neg (not_not.2 rfl)
  rw [keepLines_appendLine (keepLines_restricted hk hb hcm henc), dropAuthorized_append _ hfree.keepLines, hgone]
  exact congrArg some (List.append_nil _)

/-- A line with the comment, and another key. -/
def OtherKey (cfg : Config) (cm fingerprint : Text) (l : Bytes) : Prop :=
  lineComment l = some cm ∧ (lineBlob l).bind cfg.opensshFingerprint ≠ some fingerprint

instance : DecidablePred (OtherKey cfg cm fingerprint) := fun _ => inferInstanceAs (Decidable (_ ∧ _))

lemma filter_eraseP_of_not {α : Type} {p q : α → Bool} (h : ∀ a, p a = true → q a = false) (l : List α) :
    (l.eraseP p).filter q = l.filter q := by
  induction l with
  | nil => rfl
  | cons a l ih =>
    by_cases ha : p a = true
    · rw [List.eraseP_cons_of_pos ha, List.filter_cons_of_neg (Bool.eq_false_iff.1 (h a ha))]
    · rw [List.eraseP_cons_of_neg ha, List.filter_cons, List.filter_cons, ih]

/-- No line with another key goes. -/
lemma otherKeys_kept (ls : List Bytes) :
    (ls.eraseP (isLineOf cfg (some fingerprint) cm)).filter (OtherKey cfg cm fingerprint) =
      ls.filter (OtherKey cfg cm fingerprint) := by
  refine filter_eraseP_of_not (fun l hl => decide_eq_false fun hother => hother.2 ?_) ls
  rw [isLineOf, Bool.and_eq_true] at hl
  exact of_decide_eq_true hl.2

/-! ### Runs -/

/-- The content of `authorized_keys`. -/
def authorizedKeys (w : World) : Option Bytes := (w.servers .target).content targetAuthKeys

/-- What the two operations do to a file that has no line with the comment. -/
structure EditsUndo (cfg : Config) (key_type blob cm fingerprint : Text) (line old : Bytes) : Prop where
  /-- Every line is there as it was, and one line behind them. -/
  lines : byteBreaks.lines (appendLine old line) = byteBreaks.lines old ++ [line]
  /-- And no byte of the file changes. -/
  bytes : old <+: appendLine old line
  added : ∀ w tag, authorizedKeys w = some old →
    Ensures cfg (ensureAuthorizedLine cfg (key_type ++ ' ' :: blob) cm tag)
      (fun r w' => r = .ok () → authorizedKeys w' = some (appendLine old line)) w
  again : ∀ w tag, authorizedKeys w = some (appendLine old line) →
    Ensures cfg (ensureAuthorizedLine cfg (key_type ++ ' ' :: blob) cm tag)
      (fun _ w' => authorizedKeys w' = authorizedKeys w) w
  removed : ∀ w tag, authorizedKeys w = some (appendLine old line) →
    Ensures cfg (removeAuthorizedLine cfg cm (some fingerprint) tag)
      (fun r w' => r = .ok () → authorizedKeys w' = some (newlined old)) w

lemma old_of_content {w : World} {content old' : Bytes} (h : authorizedKeys w = some content)
    (hold : Old .target targetAuthKeys w.servers old') : old' = content := by
  cases hold with
  | inl hnone =>
    rw [authorizedKeys, Server.content, hnone.1] at h
    cases h
  | inr hsome => exact Option.some.inj (hsome.symm.trans h)

lemma hasComment_iff (content : Bytes) : HasComment cm content ↔ ¬Free cm content := by
  rw [← any_lines_comment, List.any_eq_true, Free]
  push Not
  exact exists_congr fun l => and_congr_right fun _ => decide_eq_true_iff

lemma erased_of_removed {p : Bytes → Bool} {w w' : World} {r : Except Raised Unit}
    (h : LineRemoved .target targetAuthKeys p w r w') (hr : r = .ok ()) :
    Erased .target targetAuthKeys p w.servers w'.servers := by
  cases h with
  | inl herased => exact herased
  | inr hraised => exact absurd hr (hraised.1 ())

lemma editsUndo (hk : Token key_type) (hb : Token blob) (hcm : Token cm)
    (henc : encodeAscii (restrictedText key_type blob cm) = some line)
    (hfingerprint : cfg.opensshFingerprint blob = some fingerprint) (hfree : Free cm old) :
    EditsUndo cfg key_type blob cm fingerprint line old := by
  have hlines : byteBreaks.lines (appendLine old line) = byteBreaks.lines old ++ [line] := by
    rw [Breaks.lines, keepLines_appendLine (keepLines_restricted hk hb hcm henc), List.map_append, List.map_singleton,
      chop_of_unbroken (restricted_unbroken hk hb hcm henc)]
    exact congrArg (· ++ [line]) (lines_newlined old)
  have hthere : HasComment cm (appendLine old line) := by
    refine (hasComment_iff _).2 fun hnone => hnone line ?_ (lineComment_restricted hk hb hcm henc).1
    rw [hlines]
    exact List.mem_append_right _ (List.mem_singleton_self line)
  constructor
  · exact hlines
  · rw [appendLine_eq]
    obtain ⟨heq, -⟩ | ⟨heq, -⟩ := newlined_cases old
    · rw [heq]
      exact List.prefix_append _ _
    · rw [heq, List.append_assoc]
      exact List.prefix_append _ _
  · intro w tag hw
    refine wp_mono (fun r w' h hr => ?_) (ensures_ensureAuthorizedLine _ cm tag)
    obtain ⟨-, hsame⟩ | ⟨old', line', hold, -, henc', happended⟩ := h
    · obtain ⟨old', hold, hcomment⟩ := hsame () hr
      rw [old_of_content hw hold] at hcomment
      exact absurd hfree ((hasComment_iff old).1 hcomment)
    · have hline : line' = line := Option.some.inj (henc'.symm.trans henc)
      rw [old_of_content hw hold, hline] at happended
      obtain ⟨-, hraised⟩ | hwritten | ⟨hraised, -⟩ := happended
      · exact absurd hr (hraised ())
      · exact hwritten
      · exact absurd hr (hraised ())
  · intro w tag hw
    refine wp_mono (fun r w' h => ?_) (ensures_ensureAuthorizedLine _ cm tag)
    obtain ⟨hsame, -⟩ | ⟨old', -, hold, hno, -⟩ := h
    · rw [authorizedKeys, authorizedKeys, Server.content, Server.content, hsame]
    · rw [old_of_content hw hold] at hno
      exact absurd hthere hno
  · intro w tag hw
    refine wp_mono (fun r w' h hr => ?_) (ensures_removeAuthorizedLine cm (some fingerprint) tag)
    obtain ⟨hnone, -⟩ | ⟨content, hcontent, hkept⟩ := erased_of_removed h hr
    · rw [authorizedKeys, Server.content, hnone] at hw
      cases hw
    · obtain rfl : content = appendLine old line := Option.some.inj (hcontent.symm.trans hw)
      rw [authorizedKeys, hkept, ← dropAuthorized_eraseP (dropAuthorized_appendLine hk hb hcm henc hfingerprint hfree),
        Breaks.flatten_keepLines]

/-- A removal that returns leaves every line with the comment and another key. -/
lemma otherKeys_remain {w : World} {content : Bytes} (tag : Text) (hw : authorizedKeys w = some content) :
    Ensures cfg (removeAuthorizedLine cfg cm (some fingerprint) tag)
      (fun r w' => r = .ok () → ∃ kept : List Bytes, authorizedKeys w' = some kept.flatten ∧
        kept.Sublist (byteBreaks.keepLines content) ∧
        kept.filter (OtherKey cfg cm fingerprint) =
          (byteBreaks.keepLines content).filter (OtherKey cfg cm fingerprint)) w := by
  refine wp_mono (fun r w' h hr => ?_) (ensures_removeAuthorizedLine cm (some fingerprint) tag)
  obtain ⟨hnone, -⟩ | ⟨content', hcontent, hkept⟩ := erased_of_removed h hr
  · rw [authorizedKeys, Server.content, hnone] at hw
    cases hw
  · obtain rfl : content' = content := Option.some.inj (hcontent.symm.trans hw)
    exact ⟨_, hkept, List.eraseP_sublist, otherKeys_kept _⟩

end Edits

/-- The bytes of an ASCII text. -/
def asciiBytes (t : Text) : Bytes := t.map fun c => UInt8.ofNat c.toNat

/-- A file with a key of its user, and no final newline. -/
def userFile : Bytes := asciiBytes "ssh-rsa BBBB user@host".toList

/-- The line of the pair of two servers. -/
def pairLine : Bytes :=
  asciiBytes (restrictedText "ssh-ed25519".toList "AAAA".toList (comment ['a'] ['b'] "0123abcd".toList))

end SshGpuConsole.DirectAuth
