import SshGpuConsole.Lib.PyLines

/-!
# Columns

Lines of columns with blanks between them, as commands print them, and how `str.split` takes them apart again. The
columns in front hold no white space; what stands behind them is any text.
-/

namespace PyColumns
open Shell (Text)
open PyText PyLines

/-- A word: a text with no white space in it. -/
def IsWord (t : Text) : Prop := t ≠ [] ∧ ∀ c ∈ t, isSpace c = false

/-- Blanks between two columns. -/
def IsGap (t : Text) : Prop := t ≠ [] ∧ ∀ c ∈ t, c = ' ' ∨ c = '\t'

/-- A column of a line, with the blanks behind it. -/
structure Column where
  word : Text
  gap : Text
  isWord : IsWord word
  isGap : IsGap gap

def Column.text (column : Column) : Text := column.word ++ column.gap

/-- Words with one blank between each two. -/
def SingleSpaced (t : Text) : Prop := ∃ ws, ws ≠ [] ∧ (∀ w ∈ ws, IsWord w) ∧ t = [' '].intercalate ws

/-- No line ends in the text: it stands on one line. -/
def Unbroken (t : Text) : Prop := ∀ c ∈ t, charBreaks.isBreak c = false

/-- `str.split(None, n)`: the first words, and the rest behind the white space. -/
def splitMax : ℕ → Text → List Text
  | 0, t =>
    match t.dropWhile isSpace with
    | [] => []
    | c :: rest => [c :: rest]
  | n + 1, t =>
    match t.dropWhile isSpace with
    | [] => []
    | c :: rest => (c :: rest).takeWhile (fun d => !isSpace d) :: splitMax n ((c :: rest).dropWhile fun d => !isSpace d)

/-- What Python makes of the numbers in columns. -/
structure Numerals (φ : Type) where
  /-- `int`, unless it raises -/
  int : Text → Option ℤ
  /-- `float`, unless it raises -/
  float : Text → Option φ
  /-- `math.isfinite(x) and x >= 0` -/
  isMeasure : φ → Bool
  /-- `0 <= x <= 100` -/
  isPercentage : φ → Bool
  /-- `round(x, 1)` -/
  round : φ → φ
  int_decimal (n : ℕ) : int (Nat.toDigits 10 n) = some n

/-! ### Words and blanks -/

lemma isSpace_of_break {c : Char} (h : charBreaks.isBreak c = true) : isSpace c = true := by
  simp only [charBreaks, isSpace, Bool.or_eq_true, Bool.and_eq_true, decide_eq_true_iff] at h ⊢
  omega

lemma IsGap.isSpace {t : Text} (h : IsGap t) : ∀ c ∈ t, isSpace c = true := by
  intro c hc
  rcases h.2 c hc with rfl | rfl
  · rfl
  · rfl

lemma IsWord.unbroken {t : Text} (h : IsWord t) : Unbroken t := by
  intro c hc
  cases hb : charBreaks.isBreak c with
  | false => rfl
  | true => cases (h.2 c hc).symm.trans (isSpace_of_break hb)

lemma IsGap.unbroken {t : Text} (h : IsGap t) : Unbroken t := by
  intro c hc
  rcases h.2 c hc with rfl | rfl
  · rfl
  · rfl

lemma unbroken_of_all {t : Text} (h : (t.all fun c => !charBreaks.isBreak c) = true) : Unbroken t := by
  intro c hc
  simpa using List.all_eq_true.1 h c hc

lemma unbroken_append {a b : Text} (ha : Unbroken a) (hb : Unbroken b) : Unbroken (a ++ b) := by
  intro c hc
  rcases List.mem_append.1 hc with hc | hc
  · exact ha c hc
  · exact hb c hc

lemma unbroken_columns (columns : List Column) : Unbroken (columns.flatMap Column.text) := by
  intro c hc
  obtain ⟨column, -, hc⟩ := List.mem_flatMap.1 hc
  exact unbroken_append column.isWord.unbroken column.isGap.unbroken c hc

/-- Lines that are printed one after the other. -/
def printed (lines : List Text) : Text := lines.flatMap fun line => line ++ ['\n']

lemma lines_printed {lines : List Text} (h : ∀ line ∈ lines, Unbroken line) :
    charBreaks.lines (printed lines) = lines := by
  induction lines with
  | nil => rfl
  | cons line lines ih =>
    have hrest := ih fun l hl => h l (List.mem_cons_of_mem _ hl)
    rw [printed, List.flatMap_cons, List.append_assoc]
    refine (Breaks.lines_cons (h line List.mem_cons_self) _ rfl).trans ?_
    exact congrArg (line :: ·) hrest

/-! ### `str.split` -/

/-- White space in front is skipped. -/
lemma split_spaces {g : Text} (hg : ∀ c ∈ g, isSpace c = true) (t : Text) : split (g ++ t) = split t := by
  induction g with
  | nil => rfl
  | cons c g ih =>
    have hc := split_append [] (g ++ t) (hg c List.mem_cons_self)
    exact hc.trans (ih fun d hd => hg d (List.mem_cons_of_mem _ hd))

lemma split_column (column : Column) (t : Text) : split (column.text ++ t) = column.word :: split t := by
  obtain ⟨c, g, hgap⟩ := List.exists_cons_of_ne_nil column.isGap.1
  have hspaces := column.isGap.isSpace
  rw [Column.text, hgap, List.append_assoc, List.cons_append]
  rw [hgap] at hspaces
  rw [split_append _ _ (hspaces c List.mem_cons_self), split_word column.isWord.2 column.isWord.1,
    split_spaces fun d hd => hspaces d (List.mem_cons_of_mem _ hd)]
  rfl

lemma split_columns (columns : List Column) (t : Text) :
    split (columns.flatMap Column.text ++ t) = columns.map Column.word ++ split t := by
  induction columns with
  | nil => rfl
  | cons column columns ih => rw [List.flatMap_cons, List.append_assoc, split_column, ih, List.map_cons, List.cons_append]

/-- No white space is in a piece between white space. -/
lemma unspaced_of_mem_splitOnP {t w : Text} (h : w ∈ t.splitOnP isSpace) : ∀ c ∈ w, isSpace c = false := by
  induction t generalizing w with
  | nil =>
    obtain rfl := List.mem_singleton.1 h
    exact fun c hc => absurd hc List.not_mem_nil
  | cons c t ih =>
    rw [List.splitOnP_cons_eq_if_modifyHead] at h
    split at h
    · rcases List.mem_cons.1 h with rfl | h
      · exact fun c hc => absurd hc List.not_mem_nil
      · exact ih h
    · rename_i hc
      obtain ⟨v, vs, hv⟩ := List.exists_cons_of_ne_nil (List.splitOnP_ne_nil isSpace t)
      rw [hv] at h ih
      rcases List.mem_cons.1 h with rfl | h
      · intro d hd
        rcases List.mem_cons.1 hd with rfl | hd
        · exact Bool.eq_false_iff.2 hc
        · exact ih List.mem_cons_self d hd
      · exact ih (List.mem_cons_of_mem _ h)

/-- What `str.split` returns are words. -/
lemma isWord_of_mem_split {t w : Text} (h : w ∈ split t) : IsWord w := by
  obtain ⟨hw, hne⟩ := List.mem_filter.1 h
  exact ⟨of_decide_eq_true hne, unspaced_of_mem_splitOnP hw⟩

lemma split_intercalate {ws : List Text} (h : ∀ w ∈ ws, IsWord w) : split ([' '].intercalate ws) = ws := by
  induction ws with
  | nil => rfl
  | cons w ws ih =>
    have hw := h w List.mem_cons_self
    have hrest := ih fun v hv => h v (List.mem_cons_of_mem _ hv)
    cases ws with
    | nil =>
      rw [List.intercalate_singleton]
      exact split_word hw.2 hw.1
    | cons v ws =>
      have hjoin : [' '].intercalate (w :: v :: ws) = w ++ ' ' :: [' '].intercalate (v :: ws) := rfl
      rw [hjoin, split_append _ _ rfl, split_word hw.2 hw.1, hrest]
      rfl

/-- The words with single blanks are the text exactly when it has no other white space. -/
lemma intercalate_split_iff {t : Text} (hne : split t ≠ []) : [' '].intercalate (split t) = t ↔ SingleSpaced t := by
  constructor
  · exact fun h => ⟨split t, hne, fun w hw => isWord_of_mem_split hw, h.symm⟩
  · rintro ⟨ws, -, hws, rfl⟩
    rw [split_intercalate hws]

/-- A word in front stays in front. -/
lemma intercalate_split_append {w : Text} (hw : IsWord w) (t : Text) :
    ∃ rest, [' '].intercalate (split (w ++ t)) = w ++ rest := by
  have hjoin : ∀ (v : Text) (vs : List Text), ∃ rest, [' '].intercalate (v :: vs) = v ++ rest := by
    intro v vs
    cases vs with
    | nil => exact ⟨[], by rw [List.intercalate_singleton, List.append_nil]⟩
    | cons u vs => exact ⟨' ' :: [' '].intercalate (u :: vs), rfl⟩
  have hunspaced : ∀ c ∈ w ++ t.takeWhile (fun c => !isSpace c), isSpace c = false := by
    intro c hc
    rcases List.mem_append.1 hc with hc | hc
    · exact hw.2 c hc
    · have hplain := List.mem_takeWhile_imp hc
      simpa using hplain
  have hne : w ++ t.takeWhile (fun c => !isSpace c) ≠ [] := List.append_ne_nil_of_left_ne_nil hw.1 _
  have hsplit : ∃ vs, split (w ++ t) = (w ++ t.takeWhile fun c => !isSpace c) :: vs := by
    rw [← List.takeWhile_append_dropWhile (p := fun c => !isSpace c) (l := t), ← List.append_assoc,
      List.takeWhile_append_dropWhile]
    cases hv : t.dropWhile fun c => !isSpace c with
    | nil =>
      rw [List.append_nil, split_word hunspaced hne]
      exact ⟨[], rfl⟩
    | cons c v =>
      have hc : isSpace c = true := by
        have hhead := List.head?_dropWhile_not (fun c => !isSpace c) t
        rw [hv] at hhead
        simpa using hhead
      rw [split_append _ _ hc, split_word hunspaced hne]
      exact ⟨_, rfl⟩
  obtain ⟨vs, hvs⟩ := hsplit
  obtain ⟨rest, hrest⟩ := hjoin (w ++ t.takeWhile fun c => !isSpace c) vs
  rw [hvs, hrest, List.append_assoc]
  exact ⟨_, rfl⟩

/-! ### `str.split` with a limit -/

lemma splitMax_spaces {g : Text} (hg : ∀ c ∈ g, isSpace c = true) (n : ℕ) (t : Text) :
    splitMax n (g ++ t) = splitMax n t := by
  have hdrop : (g ++ t).dropWhile isSpace = t.dropWhile isSpace := List.dropWhile_append_of_pos hg
  cases n with
  | zero => rw [splitMax, splitMax, hdrop]
  | succ n => rw [splitMax, splitMax, hdrop]

/-- A word and what stands behind it, when that begins with white space. -/
lemma splitMax_word {w t : Text} (hw : IsWord w) (ht : ∀ c, t.head? = some c → isSpace c = true) (n : ℕ) :
    splitMax (n + 1) (w ++ t) = w :: splitMax n t := by
  obtain ⟨c, w, rfl⟩ := List.exists_cons_of_ne_nil hw.1
  have hfront : (c :: w ++ t).dropWhile isSpace = c :: (w ++ t) := by
    rw [List.cons_append, List.dropWhile_cons_of_neg]
    rw [hw.2 c List.mem_cons_self]
    exact Bool.false_ne_true
  have htake : (c :: (w ++ t)).takeWhile (fun d => !isSpace d) = c :: w ∧
      (c :: (w ++ t)).dropWhile (fun d => !isSpace d) = t := by
    have hall : ∀ d ∈ c :: w, (!isSpace d) = true := fun d hd => by rw [hw.2 d hd]; rfl
    rw [← List.cons_append, List.takeWhile_append_of_pos hall, List.dropWhile_append_of_pos hall]
    cases t with
    | nil => exact ⟨List.append_nil _, rfl⟩
    | cons d t =>
      have hd := ht d rfl
      rw [List.takeWhile_cons_of_neg (by rw [hd]; decide), List.dropWhile_cons_of_neg (by rw [hd]; decide)]
      exact ⟨List.append_nil _, rfl⟩
  rw [splitMax, hfront]
  dsimp only
  rw [htake.1, htake.2]

/-- What comes first is a word. -/
lemma isWord_of_splitMax {n : ℕ} {t w : Text} {ws : List Text} (h : splitMax (n + 1) t = w :: ws) : IsWord w := by
  rw [splitMax] at h
  split at h
  · cases h
  · rename_i c rest hrest
    obtain ⟨rfl, -⟩ := List.cons.inj h
    have hc : isSpace c = false := by
      have hhead := List.head?_dropWhile_not isSpace t
      rw [hrest] at hhead
      simpa using hhead
    refine ⟨?_, fun d hd => ?_⟩
    · rw [List.takeWhile_cons_of_pos (by rw [hc]; rfl)]
      exact List.cons_ne_nil _ _
    · have hd' := List.mem_takeWhile_imp hd
      simpa using hd'

lemma dropWhile_of_splitMax {n : ℕ} {t : Text} (h : splitMax n t = []) : t.dropWhile isSpace = [] := by
  cases n with
  | zero =>
    rw [splitMax] at h
    split at h
    · assumption
    · cases h
  | succ n =>
    rw [splitMax] at h
    split at h
    · assumption
    · cases h

lemma splitMax_columns (columns : List Column) (n : ℕ) (t : Text) :
    splitMax (columns.length + n) (columns.flatMap Column.text ++ t) = columns.map Column.word ++ splitMax n t := by
  induction columns with
  | nil => rw [List.length_nil, Nat.zero_add]; rfl
  | cons column columns ih =>
    have hgap := column.isGap.isSpace
    rw [List.flatMap_cons, List.length_cons, Nat.succ_add, Column.text, List.append_assoc, List.append_assoc,
      splitMax_word column.isWord, splitMax_spaces hgap, ih, List.map_cons, List.cons_append]
    intro c hc
    obtain ⟨d, g, hd⟩ := List.exists_cons_of_ne_nil column.isGap.1
    rw [hd, List.cons_append, List.head?_cons] at hc
    cases hc
    exact hgap _ (hd ▸ List.mem_cons_self)

/-! ### Whole numbers -/

/-- The number that a text of digits writes. -/
def natural (t : Text) : Option ℕ := if t ≠ [] && t.all Char.isDigit then some (Nat.ofDigitChars 10 t 0) else none

lemma natural_decimal (n : ℕ) : natural (Nat.toDigits 10 n) = some n := by
  have hdigits : (Nat.toDigits 10 n ≠ [] && (Nat.toDigits 10 n).all Char.isDigit) = true := by
    rw [Bool.and_eq_true, decide_eq_true_iff, List.all_eq_true]
    exact ⟨Nat.toDigits_ne_nil, fun c hc => Nat.isDigit_of_mem_toDigits (by decide) (by decide) hc⟩
  rw [natural, if_pos hdigits, Nat.ofDigitChars_ten_toDigits]

/-- Numbers without sign, point and exponent. -/
def wholeNumbers : Numerals ℕ where
  int t := (natural t).map Int.ofNat
  float := natural
  isMeasure _ := true
  isPercentage n := n ≤ 100
  round n := n
  int_decimal n := by rw [natural_decimal]; rfl

lemma isGap_blank : IsGap [' '] := ⟨List.cons_ne_nil _ _, fun _ hc => .inl (List.mem_singleton.1 hc)⟩

/-- A word with a blank behind it. -/
def spaced (word : String) (h : (word.toList ≠ [] && word.toList.all fun c => !isSpace c) = true) : Column where
  word := word.toList
  gap := [' ']
  isWord := by
    rw [Bool.and_eq_true, decide_eq_true_iff, List.all_eq_true] at h
    exact ⟨h.1, fun c hc => by simpa using h.2 c hc⟩
  isGap := isGap_blank

/-- The number a hundred as a column. -/
def hundred : Column := spaced "100" rfl

end PyColumns
