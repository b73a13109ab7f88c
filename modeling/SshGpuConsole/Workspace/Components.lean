import SshGpuConsole.Workspace.Paths

/-!
# Safe components

What `sanitize_component` returns, for any length it is given: a component that the shell and the file system take
as it stands, and that is sanitized to itself. Between the parts of an artifact's leaf stands the first `--` of it,
so the leaf determines them.
-/

namespace SshGpuConsole.Workspace
open Shell PyText

/-- What `sanitize_component` raises. -/
inductive Unsanitized where
  /-- `ValueError`: "max_length must be at least 1" -/
  | maxLength
  | conflict (c : Conflict)
  deriving DecidableEq, Repr

/-- `sanitize_component`. -/
def sanitizeComponentTo (category : Category) (max_length : ℤ) (text : Text) : Except Unsanitized Text :=
  if max_length < 1 then .error .maxLength
  else
    let candidate := strip text
    if candidate = [] then .error (.conflict .emptyComponent)
    else
      let dashed := collapseDashes (candidate.map fun c => if isKept category c then c else '-')
      let cleaned := (dashed.dropWhile isDashDot).rdropWhile isDashDot
      if cleaned = [] || cleaned.all (· = '.') then .error (.conflict (.unusable text))
      else if max_length < cleaned.length then .ok ((cleaned.take max_length.toNat).rdropWhile isDashDot)
      else .ok cleaned

/-- What the Unicode database says of the characters the function is about: the letters and numbers among the ASCII
characters, and that no white space and no control character is one. -/
structure Category.Documented (category : Category) : Prop where
  ascii : ∀ c : Char, c.toNat < 128 → category c ∈ ['L', 'N'] → c.isAlphanum = true
  space : ∀ c : Char, isSpace c = true → category c ∉ ['L', 'N']
  control : ∀ c : Char, c.toNat < 32 ∨ 127 ≤ c.toNat ∧ c.toNat < 160 → category c ∉ ['L', 'N']

/-- The ASCII characters the shell acts on. -/
def shellActive : List Char :=
  [';', '&', '|', '<', '>', '(', ')', '$', '\x60', '\\', '"', '\'', '*', '?', '[', ']', '\x7b', '\x7d', '~', '!', '#',
    '%', '^', '=', ':', ',', '@', '+']

/-- A component that is safe, and no longer than the limit. -/
structure SafeComponent (max_length : ℤ) (component : Text) : Prop where
  nonempty : component ≠ []
  short : component.length ≤ max_length
  no_slash : '/' ∉ component
  unspaced : ∀ c ∈ component, isSpace c = false
  printing : ∀ c ∈ component, ¬(c.toNat < 32 ∨ 127 ≤ c.toNat ∧ c.toNat < 160)
  inactive : ∀ c ∈ component, c ∉ shellActive
  no_run : ¬['-', '-'] <:+: component
  starts : ∀ c, component.head? = some c → c ≠ '-' ∧ c ≠ '.'
  ends : ∀ c, component.getLast? = some c → c ≠ '-' ∧ c ≠ '.'

/-! ### Runs of dashes -/

/-- No two dashes stand next to each other. -/
def SingleDashes (t : Text) : Prop := t.IsChain fun a b => ¬(a = '-' ∧ b = '-')

lemma head_collapseDashes (t : Text) : (collapseDashes t).head? = t.head? := by
  induction t with
  | nil => rfl
  | cons c t ih =>
    rw [collapseDashes]
    split
    · rename_i h
      rw [Bool.and_eq_true, decide_eq_true_iff, decide_eq_true_iff] at h
      rw [ih, h.2, List.head?_cons, h.1]
    · rfl

lemma singleDashes_collapseDashes (t : Text) : SingleDashes (collapseDashes t) := by
  induction t with
  | nil => exact List.isChain_nil
  | cons c t ih =>
    rw [collapseDashes]
    split
    · exact ih
    · rename_i h
      refine List.isChain_cons.2 ⟨fun d hd hcd => h ?_, ih⟩
      rw [Option.mem_def, head_collapseDashes] at hd
      rw [Bool.and_eq_true, decide_eq_true_iff, decide_eq_true_iff, hd, hcd.2]
      exact ⟨hcd.1, rfl⟩

lemma collapseDashes_of_singleDashes {t : Text} (h : SingleDashes t) : collapseDashes t = t := by
  induction t with
  | nil => rfl
  | cons c t ih =>
    obtain ⟨hhead, htail⟩ := List.isChain_cons.1 h
    have hrun : ¬(c = '-' && t.head? = some '-') = true := by
      rw [Bool.and_eq_true, decide_eq_true_iff, decide_eq_true_iff]
      exact fun hc => hhead '-' hc.2 ⟨hc.1, rfl⟩
    rw [collapseDashes, if_neg hrun, ih htail]

lemma singleDashes_iff {t : Text} : SingleDashes t ↔ ¬['-', '-'] <:+: t := by
  constructor
  · intro h hin
    have hpair : SingleDashes ['-', '-'] := List.IsChain.infix h hin
    exact (List.isChain_cons.1 hpair).1 '-' rfl ⟨rfl, rfl⟩
  · intro h
    refine List.IsChain.imp (fun a b hab hdash => h ?_) (List.isChain_isInfix t)
    rw [hdash.1, hdash.2] at hab
    exact hab

lemma mem_collapseDashes {t : Text} {c : Char} (h : c ∈ collapseDashes t) : c ∈ t := by
  induction t with
  | nil => exact h
  | cons d t ih =>
    rw [collapseDashes] at h
    split at h
    · exact List.mem_cons_of_mem d (ih h)
    · rcases List.mem_cons.1 h with rfl | h
      · exact List.mem_cons_self
      · exact List.mem_cons_of_mem d (ih h)

/-! ### The characters that are kept -/

section Kept
variable {category : Category}

lemma isKept_dash : isKept category '-' = true := rfl

/-- An ASCII character that is kept is a letter, a digit or one of three marks. -/
lemma ascii_of_kept (hcat : category.Documented) {c : Char} (h : isKept category c = true) (ha : c.toNat < 128) :
    c.isAlphanum = true ∨ c ∈ ['.', '_', '-'] := by
  rw [isKept, Bool.or_eq_true, Bool.and_eq_true, Bool.or_eq_true, decide_eq_true_iff, decide_eq_true_iff,
    decide_eq_true_iff] at h
  rcases h with h | h
  · exact h.2
  · exact .inl (hcat.ascii c ha h)

/-- The codes of these characters. -/
lemma code_of_ascii {c : Char} (h : c.isAlphanum = true ∨ c ∈ ['.', '_', '-']) :
    (48 ≤ c.toNat ∧ c.toNat ≤ 57) ∨ (65 ≤ c.toNat ∧ c.toNat ≤ 90) ∨ (97 ≤ c.toNat ∧ c.toNat ≤ 122) ∨
      c.toNat ∈ [46, 95, 45] := by
  rcases h with h | h
  · simp only [Char.isAlphanum, Char.isAlpha, Char.isUpper, Char.isLower, Char.isDigit, Bool.or_eq_true,
      Bool.and_eq_true, decide_eq_true_iff, UInt32.le_iff_toNat_le] at h
    rcases h with (h | h) | h
    · exact .inr (.inl h)
    · exact .inr (.inr (.inl h))
    · exact .inl h
  · rw [List.mem_cons, List.mem_cons, List.mem_singleton] at h
    rcases h with rfl | rfl | rfl <;> exact .inr (.inr (.inr (by decide)))

lemma not_active_of_kept (hcat : category.Documented) {c : Char} (h : isKept category c = true) :
    c ≠ '/' ∧ c ∉ shellActive := by
  have hactive : ('/' :: shellActive).all
      (fun d => d.toNat < 128 && !d.isAlphanum && !(['.', '_', '-'] : List Char).contains d) = true := by decide +kernel
  have hnot : c ∉ '/' :: shellActive := by
    intro hc
    have hd := List.all_eq_true.1 hactive c hc
    simp only [Bool.and_eq_true, decide_eq_true_iff, Bool.not_eq_true', ← Bool.not_eq_true, List.contains_iff_mem] at hd
    rcases ascii_of_kept hcat h hd.1.1 with hk | hk
    · exact hd.1.2 hk
    · exact hd.2 hk
  exact ⟨fun hc => hnot (hc ▸ List.mem_cons_self), fun hc => hnot (List.mem_cons_of_mem _ hc)⟩

lemma unspaced_of_kept (hcat : category.Documented) {c : Char} (h : isKept category c = true) : isSpace c = false := by
  by_contra hs
  rw [Bool.not_eq_false] at hs
  by_cases ha : c.toNat < 128
  · have hcode := code_of_ascii (ascii_of_kept hcat h ha)
    simp only [isSpace, Bool.or_eq_true, Bool.and_eq_true, decide_eq_true_iff] at hs
    simp only [List.mem_cons, List.not_mem_nil, or_false] at hcode
    omega
  · rw [isKept, Bool.or_eq_true, Bool.and_eq_true, decide_eq_true_iff, decide_eq_true_iff] at h
    exact hcat.space c hs (h.resolve_left fun hk => ha hk.1)

lemma printing_of_kept (hcat : category.Documented) {c : Char} (h : isKept category c = true) :
    ¬(c.toNat < 32 ∨ 127 ≤ c.toNat ∧ c.toNat < 160) := by
  intro hc
  by_cases ha : c.toNat < 128
  · have hcode := code_of_ascii (ascii_of_kept hcat h ha)
    simp only [List.mem_cons, List.not_mem_nil, or_false] at hcode
    omega
  · rw [isKept, Bool.or_eq_true, Bool.and_eq_true, decide_eq_true_iff, decide_eq_true_iff] at h
    exact hcat.control c hc (h.resolve_left fun hk => ha hk.1)

end Kept

/-! ### What is returned -/

/-- The form of every component that is returned. -/
structure Shaped (category : Category) (max_length : ℤ) (component : Text) : Prop where
  nonempty : component ≠ []
  short : component.length ≤ max_length
  kept : ∀ c ∈ component, isKept category c = true
  singleDashes : SingleDashes component
  starts : component.dropWhile isDashDot = component
  ends : component.rdropWhile isDashDot = component

section Sanitized
variable {category : Category} {max_length : ℤ} {text component : Text}

/-- Dashes and dots come off both ends, and what is left is kept and singleDashes. -/
lemma shaped_cleaned (candidate : Text) {cleaned : Text}
    (h : ((collapseDashes (candidate.map fun c => if isKept category c then c else '-')).dropWhile isDashDot).rdropWhile
      isDashDot = cleaned) (hne : cleaned ≠ []) : Shaped category cleaned.length cleaned := by
  have hinitial : cleaned <+: (collapseDashes (candidate.map fun c => if isKept category c then c else '-')).dropWhile
      isDashDot := h ▸ List.rdropWhile_prefix isDashDot _
  have hwithin : cleaned <:+: collapseDashes (candidate.map fun c => if isKept category c then c else '-') :=
    hinitial.isInfix.trans (List.dropWhile_suffix isDashDot).isInfix
  refine ⟨hne, le_refl _, fun c hc => ?_, List.IsChain.infix (singleDashes_collapseDashes _) hwithin, ?_, ?_⟩
  · obtain ⟨d, -, rfl⟩ := List.mem_map.1 (mem_collapseDashes (hwithin.mem hc))
    split
    · assumption
    · exact isKept_dash
  · exact dropWhile_of_prefix hinitial (List.dropWhile_idempotent isDashDot _)
  · rw [← h]
    exact List.rdropWhile_idempotent isDashDot _

/-- The cut of a shaped component does not reach its first character. -/
lemma shaped_take {cleaned : Text} (h : Shaped category cleaned.length cleaned) (hpos : 1 ≤ max_length) :
    Shaped category max_length ((cleaned.take max_length.toNat).rdropWhile isDashDot) := by
  have hinitial : (cleaned.take max_length.toNat).rdropWhile isDashDot <+: cleaned :=
    (List.rdropWhile_prefix isDashDot _).trans (List.take_prefix _ _)
  refine ⟨fun hnil => ?_, ?_, fun c hc => h.kept c (hinitial.mem hc), List.IsChain.prefix h.singleDashes hinitial,
    dropWhile_of_prefix hinitial h.starts, List.rdropWhile_idempotent isDashDot _⟩
  · obtain ⟨c, rest, rfl⟩ := List.exists_cons_of_ne_nil h.nonempty
    obtain ⟨n, hn⟩ := Nat.exists_eq_succ_of_ne_zero (show max_length.toNat ≠ 0 by omega)
    have hc : c ∈ (c :: rest).take max_length.toNat := by
      rw [hn]
      exact List.mem_cons_self
    have hdash : isDashDot c = true := List.rdropWhile_eq_nil_iff.1 hnil c hc
    have hdrop := h.starts
    rw [List.dropWhile_cons_of_pos hdash] at hdrop
    have hlength := congrArg List.length hdrop
    have hle : (rest.dropWhile isDashDot).length ≤ rest.length := (List.dropWhile_sublist isDashDot).length_le
    rw [List.length_cons] at hlength
    omega
  · have hle := (List.rdropWhile_prefix isDashDot (cleaned.take max_length.toNat)).length_le
    rw [List.length_take] at hle
    omega

lemma shaped_of_sanitize (h : sanitizeComponentTo category max_length text = .ok component) :
    1 ≤ max_length ∧ Shaped category max_length component := by
  rw [sanitizeComponentTo] at h
  split at h
  · cases h
  · rename_i hpos
    have hone : 1 ≤ max_length := by omega
    dsimp only at h
    split at h
    · cases h
    · split at h
      · cases h
      · rename_i hcleaned
        rw [Bool.or_eq_true, not_or, decide_eq_true_iff] at hcleaned
        have hshaped := shaped_cleaned (strip text) rfl hcleaned.1
        split at h
        · cases h
          exact ⟨hone, shaped_take hshaped hone⟩
        · rename_i hle
          cases h
          exact ⟨hone, { hshaped with short := not_lt.1 hle }⟩

/-- The ends of a shaped component. -/
lemma Shaped.head_plain (h : Shaped category max_length component) {c : Char} (hc : component.head? = some c) :
    isDashDot c = false := by
  obtain ⟨rest, hrest⟩ : ∃ rest, component = c :: rest := by
    cases component with
    | nil => cases hc
    | cons d rest => exact ⟨rest, congrArg (· :: rest) (Option.some.inj hc)⟩
  have hstarts := h.starts
  rw [hrest, List.dropWhile_eq_self_iff] at hstarts
  exact Bool.eq_false_iff.2 (hstarts (Nat.succ_pos _))

lemma Shaped.last_plain (h : Shaped category max_length component) {c : Char} (hc : component.getLast? = some c) :
    isDashDot c = false := by
  have hends := List.rdropWhile_eq_self_iff.1 h.ends h.nonempty
  rw [List.getLast?_eq_some_getLast h.nonempty] at hc
  rw [Option.some.inj hc] at hends
  exact Bool.eq_false_iff.2 hends

lemma not_dashDot {c : Char} (h : isDashDot c = false) : c ≠ '-' ∧ c ≠ '.' := by
  rw [isDashDot, decide_eq_false_iff_not, List.mem_pair, not_or] at h
  exact h

/-- A shaped component is safe. -/
lemma safe_of_shaped (hcat : category.Documented) (h : Shaped category max_length component) :
    SafeComponent max_length component where
  nonempty := h.nonempty
  short := h.short
  no_slash hc := (not_active_of_kept hcat (h.kept _ hc)).1 rfl
  unspaced c hc := unspaced_of_kept hcat (h.kept c hc)
  printing c hc := printing_of_kept hcat (h.kept c hc)
  inactive c hc := (not_active_of_kept hcat (h.kept c hc)).2
  no_run := singleDashes_iff.1 h.singleDashes
  starts _ hc := not_dashDot (h.head_plain hc)
  ends _ hc := not_dashDot (h.last_plain hc)

/-- A shaped component is sanitized to itself. -/
lemma sanitize_of_shaped (hcat : category.Documented) (h : Shaped category max_length component)
    (hpos : 1 ≤ max_length) : sanitizeComponentTo category max_length component = .ok component := by
  have hstrip : strip component = component := by
    have hall := unspaced_of_kept hcat (h.kept _ (List.head_mem h.nonempty))
    have hlast := unspaced_of_kept hcat (h.kept _ (List.getLast_mem h.nonempty))
    have hstrip := strip_append h.nonempty hall hlast (e := []) fun c hc => absurd hc List.not_mem_nil
    rwa [List.append_nil] at hstrip
  have hmap : (component.map fun c => if isKept category c then c else '-') = component := by
    conv_rhs => rw [← List.map_id component]
    exact List.map_congr_left fun c hc => if_pos (h.kept c hc)
  have hdots : ¬(component.all (· = '.')) = true := by
    intro hall
    have hc := of_decide_eq_true (List.all_eq_true.1 hall _ (List.head_mem h.nonempty))
    have hplain := not_dashDot (h.head_plain (List.head?_eq_some_head h.nonempty))
    exact hplain.2 hc
  have hkeep : ¬(component = [] || component.all (· = '.')) = true := by
    rw [Bool.or_eq_true, decide_eq_true_iff, not_or]
    exact ⟨h.nonempty, hdots⟩
  rw [sanitizeComponentTo, if_neg (by omega)]
  dsimp only
  rw [hstrip, if_neg h.nonempty, hmap, collapseDashes_of_singleDashes h.singleDashes, h.starts, h.ends, if_neg hkeep,
    if_neg (not_lt.2 h.short)]

/-- The function with its default. -/
lemma sanitizeComponent_eq (text : Text) :
    sanitizeComponentTo category 80 text = (sanitizeComponent category text).mapError .conflict := by
  rw [sanitizeComponentTo, sanitizeComponent, if_neg (by decide)]
  dsimp only
  split
  · rfl
  · split
    · rfl
    · split
      · rename_i hlong
        rw [if_pos (by omega)]
        rfl
      · rename_i hshort
        rw [if_neg (by omega)]
        rfl

lemma shaped_of_sanitizeComponent (h : sanitizeComponent category text = .ok component) :
    Shaped category 80 component := by
  have hto : sanitizeComponentTo category 80 text = .ok component := by
    rw [sanitizeComponent_eq, h]
    rfl
  exact (shaped_of_sanitize hto).2

/-! ### The leaf of an artifact -/

/-- The version as it is sanitized for the leaf, or none. -/
def sanitizedVersion (category : Category) : Option Text → Except Conflict (Option Text)
  | none | some [] => .ok none
  | some version => (sanitizeComponent category version).map some

/-- The leaf with the two parts. -/
def joinedLeaf (base : Text) : Option Text → Text
  | none => base
  | some version => base ++ "--".toList ++ version

lemma safeArtifactLeaf_ok {name leaf : Text} {version : Option Text}
    (h : safeArtifactLeaf category name version = .ok leaf) :
    ∃ base part, sanitizeComponent category name = .ok base ∧ sanitizedVersion category version = .ok part ∧
      leaf = joinedLeaf base part := by
  rw [safeArtifactLeaf] at h
  obtain ⟨base, hbase, h⟩ := Except.ok_of_bind h
  refine ⟨base, ?_⟩
  rcases version with - | - | ⟨c, version⟩
  · cases h
    exact ⟨none, hbase, rfl, rfl⟩
  · cases h
    exact ⟨none, hbase, rfl, rfl⟩
  · obtain ⟨part, hpart, h⟩ := Except.ok_of_bind h
    cases h
    refine ⟨some part, hbase, ?_, rfl⟩
    show (sanitizeComponent category (c :: version)).map some = .ok (some part)
    rw [hpart]
    rfl

/-- The first `--` of a leaf with a version stands behind the name. -/
lemma joinedLeaf_split {base base' rest rest' : Text} (h : SingleDashes base) (hl : base.getLast? ≠ some '-')
    (h' : SingleDashes base') (hl' : base'.getLast? ≠ some '-')
    (he : base ++ '-' :: '-' :: rest = base' ++ '-' :: '-' :: rest') : base = base' ∧ rest = rest' := by
  -- a name that goes on behind the other one holds its first dash, as its last character or before another one
  have hlonger : ∀ {a t r r' : Text}, SingleDashes (a ++ t) → (a ++ t).getLast? ≠ some '-' →
      '-' :: '-' :: r = t ++ '-' :: '-' :: r' → t = [] := by
    intro a t r r' ha hlast ht
    rcases t with - | ⟨c, - | ⟨d, t⟩⟩
    · rfl
    · cases ht
      rw [List.getLast?_concat] at hlast
      exact absurd rfl hlast
    · cases ht
      exact absurd (List.infix_append a ['-', '-'] t) (by simpa using singleDashes_iff.1 ha)
  rcases List.append_eq_append_iff.1 he with ⟨t, rfl, ht⟩ | ⟨t, rfl, ht⟩
  · obtain rfl := hlonger h' hl' ht
    rw [List.append_nil]
    exact ⟨rfl, by simpa using ht⟩
  · obtain rfl := hlonger h hl ht
    rw [List.append_nil]
    exact ⟨rfl, by simpa using ht.symm⟩

lemma Shaped.last_ne_dash (h : Shaped category max_length component) : component.getLast? ≠ some '-' := fun hd =>
  (not_dashDot (h.last_plain hd)).1 rfl

/-- The leaf determines its parts. -/
lemma joinedLeaf_inj {base base' : Text} {part part' : Option Text} {n n' : ℤ} (h : Shaped category n base)
    (h' : Shaped category n' base') (he : joinedLeaf base part = joinedLeaf base' part') :
    base = base' ∧ part = part' := by
  have hrun : ∀ b r : Text, ['-', '-'] <:+: b ++ '-' :: '-' :: r := fun b r =>
    ⟨b, r, by rw [List.append_assoc]; rfl⟩
  have hjoin : ∀ b v : Text, joinedLeaf b (some v) = b ++ '-' :: '-' :: v := fun b v => by
    rw [joinedLeaf, List.append_assoc]
    rfl
  cases part with
  | none =>
    cases part' with
    | none => exact ⟨he, rfl⟩
    | some version' =>
      have hbase : base = base' ++ '-' :: '-' :: version' := he.trans (hjoin base' version')
      exact absurd (hrun base' version') (hbase ▸ singleDashes_iff.1 h.singleDashes)
  | some version =>
    cases part' with
    | none =>
      have hbase : base' = base ++ '-' :: '-' :: version := he.symm.trans (hjoin base version)
      exact absurd (hrun base version) (hbase ▸ singleDashes_iff.1 h'.singleDashes)
    | some version' =>
      rw [hjoin, hjoin] at he
      obtain ⟨hb, hv⟩ := joinedLeaf_split h.singleDashes h.last_ne_dash h'.singleDashes h'.last_ne_dash he
      exact ⟨hb, congrArg some hv⟩

/-- What is returned is safe and sanitized to itself, and two leaves are equal only when the sanitized names and the
sanitized versions are. -/
theorem components_canonical (hcat : category.Documented) :
    (∀ max_length text component, 1 ≤ max_length → sanitizeComponentTo category max_length text = .ok component →
      SafeComponent max_length component ∧ sanitizeComponentTo category max_length component = .ok component) ∧
    ∀ name name' version version' leaf, safeArtifactLeaf category name version = .ok leaf →
      safeArtifactLeaf category name' version' = .ok leaf →
      sanitizeComponent category name = sanitizeComponent category name' ∧
        sanitizedVersion category version = sanitizedVersion category version' := by
  refine ⟨fun max_length text component _ h => ?_, fun name name' version version' leaf h h' => ?_⟩
  · obtain ⟨hpos, hshaped⟩ := shaped_of_sanitize h
    exact ⟨safe_of_shaped hcat hshaped, sanitize_of_shaped hcat hshaped hpos⟩
  · obtain ⟨base, part, hbase, hpart, rfl⟩ := safeArtifactLeaf_ok h
    obtain ⟨base', part', hbase', hpart', hleaf⟩ := safeArtifactLeaf_ok h'
    obtain ⟨rfl, rfl⟩ := joinedLeaf_inj (shaped_of_sanitizeComponent hbase) (shaped_of_sanitizeComponent hbase') hleaf
    exact ⟨hbase.trans hbase'.symm, hpart.trans hpart'.symm⟩

end Sanitized

/-- The database on ASCII, and nothing else is a letter or a number. -/
def asciiCategory : Category := fun c =>
  if c.isAlpha then 'L' else if c.isDigit then 'N' else if isSpace c then 'Z' else 'P'

lemma asciiCategory_kept {c : Char} (h : asciiCategory c ∈ ['L', 'N']) : c.isAlphanum = true := by
  rw [asciiCategory] at h
  split_ifs at h with hl hd hs
  · rw [Char.isAlphanum, hl]
    rfl
  · rw [Char.isAlphanum, hd, Bool.or_true]
  · exact absurd h (by decide)
  · exact absurd h (by decide)

lemma asciiCategory_documented : asciiCategory.Documented where
  ascii c _ h := asciiCategory_kept h
  space c hs h := by
    have hcode := code_of_ascii (.inl (asciiCategory_kept h))
    simp only [isSpace, Bool.or_eq_true, Bool.and_eq_true, decide_eq_true_iff] at hs
    simp only [List.mem_cons, List.not_mem_nil, or_false] at hcode
    omega
  control c hc h := by
    have hcode := code_of_ascii (.inl (asciiCategory_kept h))
    simp only [List.mem_cons, List.not_mem_nil, or_false] at hcode
    omega

/-- A cut that ends at a dash. -/
theorem components_canonical_cut :
    sanitizeComponentTo asciiCategory 6 " My se/t v1".toList = .ok "My-se".toList ∧
      SafeComponent 6 "My-se".toList ∧ sanitizeComponentTo asciiCategory 6 "My-se".toList = .ok "My-se".toList :=
  ⟨by decide +kernel, (components_canonical asciiCategory_documented).1 6 " My se/t v1".toList "My-se".toList
    (by decide) (by decide +kernel)⟩

end SshGpuConsole.Workspace
