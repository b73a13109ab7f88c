import SshGpuConsole.DirectAuth.Operations

/-!
# Lines of the two files

`authorized_keys` and the console's `known_hosts` as the lists of fields the service sees in them: what a
line appended puts there, what the first line taken out leaves, and that the line of an attempt is read back
as its comment and its key.
-/

namespace SshGpuConsole.DirectAuth
open Shell (Text)
open Effect PosixPath PyText PyLines Ssh Planner

/-! ### The entries of a file -/

/-- The fields of a line that is not blank. -/
def entryOf (line : Bytes) : Option (List Text) := (lineFields line).bind fun fields => if fields = [] then none else some fields

/-- What the service sees in a file. -/
def entries (content : Bytes) : List (List Text) := (byteBreaks.keepLines content).filterMap entryOf

/-- The comment among the fields of a line. -/
def entryComment (fields : List Text) : Option Text := if 3 ≤ fields.length then fields.getLast? else none

/-- The key among the fields of a line. -/
def entryBlob (fields : List Text) : Option Text := if 3 ≤ fields.length then fields.dropLast.getLast? else none

lemma lineComment_eq (line : Bytes) : lineComment line = (entryOf line).bind entryComment := by
  rw [lineComment, entryOf]
  cases lineFields line with
  | none => rfl
  | some fields => cases fields <;> rfl

lemma lineBlob_eq (line : Bytes) : lineBlob line = (entryOf line).bind entryBlob := by
  rw [lineBlob, entryOf]
  cases lineFields line with
  | none => rfl
  | some fields => cases fields <;> rfl

lemma carries_eq (blob : Text) (line : Bytes) :
    carries blob line = (entryOf line).any fun fields => fields.tail.contains blob := by
  rw [carries, entryOf]
  cases lineFields line with
  | none => rfl
  | some fields => cases fields <;> rfl

lemma entryOf_blank : entryOf [byteBreaks.lf] = none := rfl

lemma lineFields_lf (line : Bytes) : lineFields (line ++ [byteBreaks.lf]) = lineFields line := by
  have h : stripBytes (line ++ [byteBreaks.lf]) = stripBytes line := stripBytes_break line (.inl rfl)
  rw [lineFields, h, lineFields]

lemma entryOf_lf (line : Bytes) : entryOf (line ++ [byteBreaks.lf]) = entryOf line := by
  rw [entryOf, lineFields_lf, entryOf]

lemma entryOf_chop (line : Bytes) : entryOf (byteBreaks.chop line) = entryOf line := by
  rw [entryOf, lineFields, stripBytes_chop, entryOf, lineFields]

/-- The entries of lines put together. -/
lemma entries_flatten {ls : List Bytes} (h : byteBreaks.Split ls) : entries ls.flatten = ls.filterMap entryOf :=
  Breaks.filterMap_keepLines_flatten entryOf_blank entryOf_lf h

lemma entries_lf (content : Bytes) : entries (content ++ [10]) = entries content :=
  Breaks.filterMap_keepLines_lf entryOf_blank entryOf_lf content

/-- An appended line adds its entries. -/
lemma entries_appendLine (existing line : Bytes) :
    entries (appendLine existing line) = entries existing ++ entries (line ++ [10]) := by
  rw [appendLine]
  by_cases h : existing = [] ∨ existing.getLast? = some 10
  · rw [if_pos (by simpa using h), List.append_assoc, entries, Breaks.keepLines_append h, List.filterMap_append]
    rfl
  · have hlf : existing ++ [10] = [] ∨ (existing ++ [10]).getLast? = some 10 :=
      .inr (by rw [List.getLast?_append]; rfl)
    rw [if_neg (by simpa using h), List.append_assoc, entries, Breaks.keepLines_append hlf, List.filterMap_append]
    rw [show (byteBreaks.keepLines (existing ++ [10])).filterMap entryOf = entries existing from entries_lf existing]
    rfl

lemma filterMap_eraseP {α β : Type} {f : α → Option β} {p : α → Bool} {q : β → Bool} (h : ∀ a, p a = (f a).any q)
    (l : List α) : (l.eraseP p).filterMap f = (l.filterMap f).eraseP q := by
  have hp : p = fun a => match f a with
      | some b => q b
      | none => false := by
    funext a
    rw [h]
    cases f a <;> rfl
  rw [hp]
  exact List.eraseP_filterMap.symm

/-- The file without the first line a property of its fields holds of. -/
lemma entries_eraseP {p : Bytes → Bool} {q : List Text → Bool} (h : ∀ line, p line = (entryOf line).any q)
    (content : Bytes) : entries ((byteBreaks.keepLines content).eraseP p).flatten = (entries content).eraseP q := by
  rw [entries_flatten ((Breaks.split_keepLines content).sublist List.eraseP_sublist), filterMap_eraseP h]
  rfl

/-! ### Fields without white space -/

/-- A text `str.split` leaves whole. -/
def Token (t : Text) : Prop := t ≠ [] ∧ ∀ c ∈ t, isSpace c = false

lemma not_isSpace_of_mem_splitOnP {t w : Text} (h : w ∈ t.splitOnP isSpace) : ∀ c ∈ w, isSpace c = false := by
  induction t generalizing w with
  | nil =>
    obtain rfl := List.mem_singleton.1 h
    exact fun c hc => absurd hc List.not_mem_nil
  | cons c t ih =>
    rw [List.splitOnP_cons_eq_if_modifyHead] at h
    split at h
    · rcases List.mem_cons.1 h with rfl | h
      · exact fun c hc => absurd hc List.not_mem_nil
      · exact ih h
    · rename_i hc
      obtain ⟨v, vs, hv⟩ := List.exists_cons_of_ne_nil (List.splitOnP_ne_nil isSpace t)
      rw [hv] at h ih
      rcases List.mem_cons.1 h with rfl | h
      · intro d hd
        rcases List.mem_cons.1 hd with rfl | hd
        · exact Bool.eq_false_iff.2 hc
        · exact ih List.mem_cons_self d hd
      · exact ih (List.mem_cons_of_mem _ h)

lemma token_of_mem_split {t w : Text} (h : w ∈ split t) : Token w := by
  obtain ⟨hw, hne⟩ := List.mem_filter.1 h
  exact ⟨of_decide_eq_true hne, not_isSpace_of_mem_splitOnP hw⟩

/-- Fields with one space between them. -/
lemma split_cons {a b : Text} (h : Token a) : split (a ++ ' ' :: b) = a :: split b := by
  rw [split_append a b rfl, split_word h.2 h.1]
  rfl

/-- The fields of a public key line are whole, and the key is what follows the key type. -/
lemma token_of_parsePublicLine {text : Text} {want : Bool} {key_type blob : Text} {c : Option Text}
    (h : parsePublicLine text want = .ok (key_type, blob, c)) : Token key_type ∧ Token blob := by
  unfold parsePublicLine at h
  dsimp only at h
  split at h
  · cases h
  · rename_i line hline
    split at h
    · rename_i kt b rest hsplit
      split at h
      · cases h
        have hmem : ∀ w ∈ split line, Token w := fun w hw => token_of_mem_split hw
        rw [hsplit] at hmem
        exact ⟨hmem _ List.mem_cons_self, hmem _ (List.mem_cons_of_mem _ List.mem_cons_self)⟩
      · cases h
    · cases h

/-! ### Comments -/

/-- The digits of key ids. -/
def hexDigits : Text := "0123456789abcdef".toList

/-- A text that can be the id of a key. -/
def KeyId (id : Text) : Prop := id ≠ [] ∧ ∀ c ∈ id, c ∈ hexDigits

lemma keyId_hexId (id : HexId) : KeyId id.digits := by
  refine ⟨fun h => ?_, fun c hc => ?_⟩
  · have hl := id.length
    rw [h] at hl
    cases hl
  · have := List.all_eq_true.1 id.hex c hc
    exact List.contains_iff_mem.1 this

lemma keyId_of_valid {id : Text} (h : validKeyId id = true) : KeyId id := by
  rw [validKeyId, Bool.and_eq_true, Bool.and_eq_true] at h
  exact ⟨of_decide_eq_true h.1.1, fun c hc => List.contains_iff_mem.1 (List.all_eq_true.1 h.2 c hc)⟩

lemma hexDigit_plain {c : Char} (h : c ∈ hexDigits) : isSpace c = false ∧ 32 < c.toNat ∧ c.toNat < 128 := by
  have hall : hexDigits.all (fun d => !isSpace d && decide (32 < d.toNat) && decide (d.toNat < 128)) = true := rfl
  have hc := List.all_eq_true.1 hall c h
  simp only [Bool.and_eq_true, Bool.not_eq_true', decide_eq_true_eq] at hc
  exact ⟨hc.1.1, hc.1.2, hc.2⟩

/-- The characters of a text that is written out. -/
lemma not_isSpace_of_all {t : Text} (h : t.all (fun c => !isSpace c) = true) : ∀ c ∈ t, isSpace c = false := by
  intro c hc
  simpa using List.all_eq_true.1 h c hc

lemma slugChar_not_space (c : Char) : isSpace (slugChar c) = false := by
  rw [slugChar]
  split
  · rename_i h
    have hn : c.toNat < 128 := by
      simp only [Bool.or_eq_true, Bool.and_eq_true, decide_eq_true_eq] at h
      rcases h with ((h | rfl) | rfl) | rfl
      · exact h.1
      · decide
      · decide
      · decide
    have hall : ∀ n < 128, ((decide ((Char.ofNat n).toNat < 128) && (Char.ofNat n).isAlphanum ||
        decide (Char.ofNat n = '.') || decide (Char.ofNat n = '_') || decide (Char.ofNat n = '-')) = true →
        isSpace (Char.ofNat n) = false) := by decide +kernel
    have := hall c.toNat hn
    rw [Char.ofNat_toNat] at this
    exact this h
  · rfl

/-- No character of the text is white space. -/
def Solid (t : Text) : Prop := ∀ c ∈ t, isSpace c = false

lemma Solid.append {a b : Text} (ha : Solid a) (hb : Solid b) : Solid (a ++ b) := fun c hc =>
  (List.mem_append.1 hc).elim (ha c) (hb c)

lemma Solid.orElse {a b : Text} (ha : Solid a) (hb : Solid b) : Solid (if a = [] then b else a) := by
  split
  · exact hb
  · exact ha

lemma Solid.edges {a : Text} (ha : Solid a) (edge : Char → Bool) :
    Solid ((a.dropWhile edge).reverse.dropWhile edge).reverse := fun c hc =>
  ha c ((List.dropWhile_sublist _).subset
    (List.mem_reverse.1 ((List.dropWhile_sublist _).subset (List.mem_reverse.1 hc))))

lemma solid_slug (value : Text) : Solid (slug value) := by
  have hid : Solid "id".toList := not_isSpace_of_all rfl
  have hcleaned : Solid ((value.map slugChar).take 40) := by
    intro c hc
    obtain ⟨d, -, rfl⟩ := List.mem_map.1 (List.mem_of_mem_take hc)
    exact slugChar_not_space d
  exact Solid.orElse (Solid.edges (hcleaned.orElse hid) _) hid

lemma solid_commentPrefix (source target : Text) : Solid (commentPrefix source target) := by
  have hlit : Solid "sgc-direct:".toList := not_isSpace_of_all rfl
  have hcolon : Solid [':'] := not_isSpace_of_all rfl
  have htarget : Solid (':' :: slug target) := hcolon.append (solid_slug target)
  exact ((hlit.append (solid_slug source)).append htarget).append hcolon

lemma token_comment {source target id : Text} (h : KeyId id) : Token (comment source target id) := by
  refine ⟨fun hn => h.1 (List.append_eq_nil_iff.1 hn).2, fun c hc => ?_⟩
  rcases List.mem_append.1 hc with hc | hc
  · exact solid_commentPrefix source target c hc
  · exact (hexDigit_plain (h.2 c hc)).1

/-- Different ids have different comments. -/
lemma comment_inj {source target id id' : Text} (h : comment source target id = comment source target id') : id = id' :=
  List.append_cancel_left h

/-! ### The restricted line -/

lemma token_restrictedOptions : Token restrictedOptions := ⟨(fun h => by cases h), not_isSpace_of_all rfl⟩

/-- A byte of an encoded character. -/
lemma mem_encodeAscii {t : Text} {b : Bytes} (h : encodeAscii t = some b) :
    b = t.map (fun c => UInt8.ofNat c.toNat) ∧ ∀ c ∈ t, c.toNat < 128 := by
  rw [encodeAscii] at h
  split at h
  · rename_i hall
    exact ⟨(Option.some.inj h).symm, fun c hc => of_decide_eq_true (List.all_eq_true.1 hall c hc)⟩
  · cases h

lemma toNat_ofNat_char {c : Char} (h : c.toNat < 128) : (UInt8.ofNat c.toNat).toNat = c.toNat := by
  rw [UInt8.toNat_ofNat']
  exact Nat.mod_eq_of_lt (by omega)

/-- An ASCII character that `str.split` keeps is a byte that `bytes.strip` keeps. -/
lemma spaceByte_of_not_isSpace {c : Char} (hascii : c.toNat < 128) (hc : isSpace c = false) :
    spaceByte (UInt8.ofNat c.toNat) = false := by
  have hall : ∀ n < 128, isSpace (Char.ofNat n) = false → spaceByte (UInt8.ofNat n) = false := by decide +kernel
  exact hall c.toNat hascii (by rwa [Char.ofNat_toNat])

/-- The restricted line of a key under a comment. -/
def restrictedText (key_type blob cm : Text) : Text := restrictedLine (key_type ++ ' ' :: blob) cm

lemma restrictedText_eq (key_type blob cm : Text) : restrictedText key_type blob cm =
    restrictedOptions ++ ' ' :: (key_type ++ ' ' :: (blob ++ ' ' :: cm)) := by
  rw [restrictedText, restrictedLine]
  simp

section Restricted
variable {key_type blob cm : Text} {line : Bytes}

/-- No byte of a restricted line ends a line. -/
lemma restricted_unbroken (hk : Token key_type) (hb : Token blob) (hcm : Token cm)
    (h : encodeAscii (restrictedText key_type blob cm) = some line) : ∀ b ∈ line, byteBreaks.isBreak b = false := by
  obtain ⟨hline, hascii⟩ := mem_encodeAscii h
  intro b hb'
  rw [hline] at hb'
  obtain ⟨c, hc, rfl⟩ := List.mem_map.1 hb'
  have hc32 : c = ' ' ∨ isSpace c = false := by
    rw [restrictedText_eq] at hc
    rcases List.mem_append.1 hc with hc | hc
    · exact .inr (token_restrictedOptions.2 c hc)
    · rcases List.mem_cons.1 hc with hc | hc
      · exact .inl hc
      · rcases List.mem_append.1 hc with hc | hc
        · exact .inr (hk.2 c hc)
        · rcases List.mem_cons.1 hc with hc | hc
          · exact .inl hc
          · rcases List.mem_append.1 hc with hc | hc
            · exact .inr (hb.2 c hc)
            · rcases List.mem_cons.1 hc with hc | hc
              · exact .inl hc
              · exact .inr (hcm.2 c hc)
  have hne : c.toNat ≠ 10 ∧ c.toNat ≠ 13 := by
    rcases hc32 with rfl | hs
    · decide
    · constructor
      · intro h10
        have hx : c = Char.ofNat 10 := by rw [← h10, Char.ofNat_toNat]
        rw [hx] at hs
        cases hs
      · intro h13
        have hx : c = Char.ofNat 13 := by rw [← h13, Char.ofNat_toNat]
        rw [hx] at hs
        cases hs
  have ht := toNat_ofNat_char (hascii c hc)
  have h10 : UInt8.ofNat c.toNat ≠ 10 := fun hx => hne.1 (by rw [← ht, hx]; rfl)
  have h13 : UInt8.ofNat c.toNat ≠ 13 := fun hx => hne.2 (by rw [← ht, hx]; rfl)
  simp [byteBreaks, h10, h13]

lemma keepLines_restricted (hk : Token key_type) (hb : Token blob) (hcm : Token cm)
    (h : encodeAscii (restrictedText key_type blob cm) = some line) :
    byteBreaks.keepLines (line ++ [10]) = [line ++ [10]] :=
  Breaks.keepLines_line (restricted_unbroken hk hb hcm h)

/-- A restricted line reads back as four fields. -/
lemma entryOf_restricted (hk : Token key_type) (hb : Token blob) (hcm : Token cm)
    (h : encodeAscii (restrictedText key_type blob cm) = some line) :
    entryOf line = some [restrictedOptions, key_type, blob, cm] := by
  obtain ⟨hline, hascii⟩ := mem_encodeAscii h
  have hfields : split (restrictedText key_type blob cm) = [restrictedOptions, key_type, blob, cm] := by
    rw [restrictedText_eq, split_cons token_restrictedOptions, split_cons hk, split_cons hb, split_word hcm.2 hcm.1]
  -- the line starts with the options and ends with the comment
  obtain ⟨m, z, hz, hm⟩ : ∃ m z, z ∈ cm ∧ restrictedText key_type blob cm = 'n' :: m ++ [z] := by
    obtain ⟨ds, z, rfl⟩ : ∃ ds z, cm = ds ++ [z] := ⟨_, _, (List.dropLast_concat_getLast hcm.1).symm⟩
    refine ⟨restrictedOptions.tail ++ ' ' :: (key_type ++ ' ' :: (blob ++ ' ' :: ds)), z,
      List.mem_append_right _ (List.mem_singleton_self z), ?_⟩
    have hn : restrictedOptions = 'n' :: restrictedOptions.tail := rfl
    rw [restrictedText_eq]
    conv_lhs => rw [hn]
    simp
  have hstrip : stripBytes line = line := by
    have hzc : spaceByte (UInt8.ofNat z.toNat) = false :=
      spaceByte_of_not_isSpace (hascii z (hm ▸ List.mem_append_right _ (List.mem_singleton_self z))) (hcm.2 z hz)
    rw [hline, hm, List.map_append]
    exact stripBytes_id (by decide) hzc
  rw [entryOf, lineFields, hstrip, decodeAscii_encodeAscii h]
  show (some (split (restrictedText key_type blob cm))).bind _ = _
  rw [hfields]
  rfl

lemma entries_restricted (hk : Token key_type) (hb : Token blob) (hcm : Token cm)
    (h : encodeAscii (restrictedText key_type blob cm) = some line) :
    entries (line ++ [10]) = [[restrictedOptions, key_type, blob, cm]] := by
  have hentry : entryOf (line ++ [10]) = some [restrictedOptions, key_type, blob, cm] :=
    (entryOf_lf line).trans (entryOf_restricted hk hb hcm h)
  rw [entries, keepLines_restricted hk hb hcm h, List.filterMap_cons_some hentry]
  rfl

end Restricted

/-! ### A file as it was -/

/-- A file has its previous content, up to an added final newline; a file that was made may stay empty. -/
def Restored (before after : Option Bytes) : Prop :=
  match before with
  | none => after = none ∨ after = some []
  | some b => after = some b ∨ after = some (b ++ [10])

lemma Restored.refl (content : Option Bytes) : Restored content content := by
  cases content with
  | none => exact .inl rfl
  | some b => exact .inl rfl

/-- A file that is as it was has the entries it had. -/
lemma Restored.entries {before after : Option Bytes} (h : Restored before after) :
    entries (after.getD []) = DirectAuth.entries (before.getD []) := by
  cases before with
  | none => rcases h with rfl | rfl <;> rfl
  | some b =>
    rcases h with rfl | rfl
    · rfl
    · exact entries_lf b

/-- A kind of line is seen in the entries. -/
lemma not_of_entries {p : Bytes → Bool} {q : List Text → Bool} (h : ∀ line, p line = (entryOf line).any q) {b : Bytes}
    (hno : ∀ fields ∈ DirectAuth.entries b, q fields = false) : ∀ l ∈ byteBreaks.keepLines b, ¬p l = true := by
  intro l hl hp
  rw [h] at hp
  cases he : entryOf l with
  | none =>
    rw [he] at hp
    cases hp
  | some fields =>
    rw [he] at hp
    have hq := hno fields (List.mem_filterMap.2 ⟨l, hl, he⟩)
    rw [show q fields = true from hp] at hq
    cases hq

/-- A file without the first line of a kind is as it was exactly when it had no line of the kind. -/
lemma restored_eraseP_iff {p : Bytes → Bool} {q : List Text → Bool} (h : ∀ line, p line = (entryOf line).any q) (b : Bytes) :
    Restored (some b) (some ((byteBreaks.keepLines b).eraseP p).flatten) ↔ ∀ fields ∈ DirectAuth.entries b, q fields = false := by
  constructor
  · intro hr fields hf
    have he : (DirectAuth.entries b).eraseP q = DirectAuth.entries b := (entries_eraseP h b).symm.trans hr.entries
    exact Bool.eq_false_iff.2 (List.eraseP_eq_self_iff.1 he fields hf)
  · intro hno
    rw [List.eraseP_of_forall_not (not_of_entries h hno), Breaks.flatten_keepLines]
    exact .inl rfl

/-- Taking out one element of a kind does not undo adding elements that are not of the kind. -/
lemma eraseP_append_ne {α : Type} {q : α → Bool} {l m : List α} {a : α} (ha : a ∈ l) (hq : q a = true)
    (hm : ∀ b ∈ m, q b = false) : (l ++ m).eraseP q ≠ l := by
  intro he
  rw [List.eraseP_append_left hq m ha] at he
  obtain ⟨a', l₁, l₂, -, hq', hl, herase⟩ := List.exists_of_eraseP ha hq
  rw [herase] at he
  have hcount := congrArg (List.countP q) (he.trans hl)
  have hzero : m.countP q = 0 := List.countP_eq_zero.2 fun b hb => by rw [hm b hb]; exact Bool.false_ne_true
  rw [List.countP_append, List.countP_append, List.countP_append, List.countP_cons_of_pos hq', hzero] at hcount
  omega

/-- Taking out a line of a kind does not undo adding a line that is not of the kind. -/
lemma not_restored_appended {p : Bytes → Bool} {q : List Text → Bool} (h : ∀ line, p line = (entryOf line).any q)
    {before : Option Bytes} {old line : Bytes} (hold : before = none ∧ old = [] ∨ before = some old) (hline : line ≠ [])
    (hno : ∀ fields ∈ DirectAuth.entries (line ++ [10]), q fields = false) :
    ¬Restored before (some ((byteBreaks.keepLines (appendLine old line)).eraseP p).flatten) := by
  intro hr
  have hbefore : before.getD [] = old := by
    rcases hold with ⟨rfl, rfl⟩ | rfl <;> rfl
  have he := hr.entries
  rw [Option.getD_some, entries_eraseP h, entries_appendLine, hbefore] at he
  by_cases hq : ∃ fields ∈ DirectAuth.entries old, q fields = true
  · obtain ⟨fields, hf, hq⟩ := hq
    exact eraseP_append_ne hf hq hno he
  · -- nothing is taken out, and the line is there
    have hkeep : ∀ fields ∈ DirectAuth.entries (appendLine old line), q fields = false := by
      rw [entries_appendLine]
      intro fields hf
      rcases List.mem_append.1 hf with hf | hf
      · exact Bool.eq_false_iff.2 fun hx => hq ⟨fields, hf, hx⟩
      · exact hno fields hf
    have hpos := List.length_pos_of_ne_nil hline
    have hlong : ((byteBreaks.keepLines (appendLine old line)).eraseP p).flatten.length > old.length + 1 := by
      have hbytes : ((byteBreaks.keepLines (appendLine old line)).eraseP p).flatten.length ≥ (appendLine old line).length := by
        rcases (restored_eraseP_iff h (appendLine old line)).2 hkeep with hx | hx
        · rw [Option.some.inj hx]
        · rw [Option.some.inj hx, List.length_append]
          omega
      have hadd : (appendLine old line).length > old.length + 1 := by
        rw [appendLine]
        split
        · rw [List.length_append, List.length_append, List.length_singleton]
          omega
        · rw [List.length_append, List.length_append, List.length_append, List.length_singleton]
          omega
      omega
    rcases hold with ⟨rfl, rfl⟩ | rfl
    · rcases hr with hx | hx
      · cases hx
      · rw [Option.some.inj hx] at hlong
        cases hlong
    · rcases hr with hx | hx
      · rw [Option.some.inj hx] at hlong
        omega
      · rw [Option.some.inj hx, List.length_append, List.length_singleton] at hlong
        omega

/-- Taking out the line that was added leaves the file as it was, up to the newline in front of it. -/
lemma restored_appended {p : Bytes → Bool} {q : List Text → Bool} (h : ∀ line, p line = (entryOf line).any q)
    {before : Option Bytes} {old line : Bytes} (hold : before = none ∧ old = [] ∨ before = some old)
    (hlines : byteBreaks.keepLines (line ++ [10]) = [line ++ [10]]) (hp : p (line ++ [10]) = true)
    (hno : ∀ fields ∈ DirectAuth.entries old, q fields = false) :
    Restored before (some ((byteBreaks.keepLines (appendLine old line)).eraseP p).flatten) := by
  obtain ⟨base, happ, hbase, hlf⟩ : ∃ base, appendLine old line = base ++ (line ++ [10]) ∧
      (base = old ∨ old ≠ [] ∧ base = old ++ [10]) ∧ (base = [] ∨ base.getLast? = some 10) := by
    rw [appendLine]
    by_cases hx : old = [] ∨ old.getLast? = some 10
    · exact ⟨old, by rw [if_pos (by simpa using hx), List.append_assoc], .inl rfl, hx⟩
    · refine ⟨old ++ [10], by rw [if_neg (by simpa using hx), List.append_assoc], .inr ⟨fun hn => hx (.inl hn), rfl⟩, .inr ?_⟩
      rw [List.getLast?_append]
      rfl
  have hkeep : ∀ l ∈ byteBreaks.keepLines base, ¬p l = true := by
    have hb : DirectAuth.entries base = DirectAuth.entries old := by
      rcases hbase with rfl | ⟨-, rfl⟩
      · rfl
      · exact entries_lf old
    exact not_of_entries h (hb ▸ hno)
  have hflat : ((byteBreaks.keepLines (appendLine old line)).eraseP p).flatten = base := by
    rw [happ, Breaks.keepLines_append hlf, hlines, List.eraseP_append_right _ hkeep, List.eraseP_cons_of_pos hp,
      List.append_nil, Breaks.flatten_keepLines]
  rw [hflat]
  rcases hold with ⟨rfl, rfl⟩ | rfl
  · rcases hbase with rfl | ⟨hne, -⟩
    · exact .inr rfl
    · exact absurd rfl hne
  · rcases hbase with rfl | ⟨-, rfl⟩
    · exact .inl rfl
    · exact .inr rfl

end SshGpuConsole.DirectAuth
