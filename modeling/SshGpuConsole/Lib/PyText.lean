import SshGpuConsole.Lib.Shell

/-!
# Python text functions

The parts of Python's `str`, `shlex` and `posixpath` that text-handling code leans on, on character
lists. `strip` removes the characters of `str.isspace`; `quote` is `shlex.quote`, with the rule that
makes it useful: its result reads as one shell word whose only field is the quoted text
(`Reads.quote`, `fields_quoteWord`).
-/

namespace PyText
open Shell

/-- `str.isspace` for one character: the Unicode classes WS, B, S and Zs. -/
def isSpace (c : Char) : Bool :=
  let n := c.toNat
  (9 ≤ n && n ≤ 13) || (28 ≤ n && n ≤ 32) || n = 0x85 || n = 0xa0 || n = 0x1680 ||
    (0x2000 ≤ n && n ≤ 0x200a) || n = 0x2028 || n = 0x2029 || n = 0x202f || n = 0x205f || n = 0x3000

/-- `str.strip()`. -/
def strip (t : Text) : Text := ((t.dropWhile isSpace).reverse.dropWhile isSpace).reverse

/-- `str.startswith`. -/
def startsWith (pre t : Text) : Bool := pre.isPrefixOf t

/-- `str.endswith` for one character. -/
def endsWith (t : Text) (c : Char) : Bool := t.getLast? = some c

/-- `str(n)` of an integer. -/
def ofInt (n : Int) : Text := (toString n).toList

/-- The characters `shlex.quote` leaves unquoted: ASCII word characters and `@ % + = : , . / -`. -/
def isSafe (c : Char) : Bool :=
  (c.toNat < 128 && c.isAlphanum) || c ∈ ['_', '@', '%', '+', '=', ':', ',', '.', '/', '-']

/-- The body of a quoted text: every single quote is put between double quotes. -/
def escapeQuotes (t : Text) : Text := t.flatMap fun c => if c = '\'' then "'\"'\"'".toList else [c]

/-- `shlex.quote`. -/
def quote (t : Text) : Text :=
  if t.isEmpty then "''".toList
  else if t.all isSafe then t
  else '\'' :: escapeQuotes t ++ ['\'']

/-- The shell word a quoted text is read as. -/
def quoteWord (t : Text) : Word := lits (t.isEmpty || !t.all isSafe) t

/-- A safe character means nothing to the shell, wherever in a word it stands. -/
lemma isSafe_plain {c : Char} (h : isSafe c = true) :
    isPlain c = true ∧ c ≠ '#' ∧ c ≠ '~' ∧ c ∉ ['*', '?', '['] := by
  have key : ∀ d : Char, isSafe d = false → c ≠ d := by
    rintro d hd rfl
    rw [hd] at h
    cases h
  refine ⟨?_, key '#' (by decide), key '~' (by decide), ?_⟩
  · simp only [isPlain, isTerminator, isBlank, isOperator, isQuoting, Bool.and_eq_true,
      Bool.not_eq_true', Bool.or_eq_false_iff, decide_eq_false_iff_not, List.mem_cons,
      List.not_mem_nil, not_or, or_false]
    refine ⟨⟨⟨?_, ?_⟩, ?_, ?_, ?_, ?_, ?_, ?_, ?_, ?_⟩, ?_, ?_, ?_, ?_, ?_⟩ <;>
      exact key _ (by decide)
  · simp only [List.mem_cons, List.not_mem_nil, not_or, or_false]
    exact ⟨key _ (by decide), key _ (by decide), key _ (by decide)⟩

/-- Between the single quotes of a quoted text the lexer collects the text. -/
lemma run_escapeQuotes (t : Text) (w : Word) :
    run (.single w) (escapeQuotes t ++ ['\'']) = some (.bare (w ++ lits true t), []) := by
  induction t generalizing w with
  | nil => simp [escapeQuotes, run, step, lits]
  | cons c t ih =>
    by_cases hc : c = '\''
    · -- out of the single quotes, through `"'"`, and back in
      subst hc
      have hstep : run (.single w) "'\"'\"'".toList = some (.single (w ++ [.lit true '\'']), []) := rfl
      have hsplit : escapeQuotes ('\'' :: t) ++ ['\''] = "'\"'\"'".toList ++ (escapeQuotes t ++ ['\'']) := by
        simp [escapeQuotes]
      rw [hsplit, run_append, hstep]
      simp [ih, lits]
    · have hsplit : escapeQuotes (c :: t) ++ ['\''] = c :: (escapeQuotes t ++ ['\'']) := by
        simp [escapeQuotes, hc]
      simp [hsplit, run, step, hc, ih, lits]

/-- A quoted text reads as one word. -/
lemma Reads.quote (t : Text) : Reads (PyText.quote t) (quoteWord t) := by
  intro g
  cases t with
  | nil => cases g <;> rfl
  | cons c t =>
    by_cases hs : (c :: t).all isSafe = true
    · have hsafe : ∀ d ∈ c :: t, isSafe d = true := by simpa using hs
      have hr := Reads.bare (fun d hd => (isSafe_plain (hsafe d hd)).1) (isSafe_plain (hsafe c (by simp))).2.1
      simpa [PyText.quote, quoteWord, hs] using hr g
    · have hq : step (.gap g) '\'' = some (.single [], []) := rfl
      have hrun := run_escapeQuotes (c :: t) []
      simp only [PyText.quote, quoteWord, hs, List.isEmpty_cons, Bool.false_eq_true, if_false,
        List.cons_append, run, hq, hrun]
      rfl

/-- A quoted text extends the unquoted word it is read in by its quoted characters. -/
lemma run_bare_quote (t : Text) (w : Word) :
    run (.bare w) (quote t) = some (.bare (w ++ quoteWord t), []) := by
  cases t with
  | nil =>
    have h : run (.bare w) "''".toList = some (.bare w, []) := rfl
    simpa [quote, quoteWord, lits] using h
  | cons c t =>
    by_cases hs : (c :: t).all isSafe = true
    · have hsafe : ∀ d ∈ c :: t, isSafe d = true := by simpa using hs
      have hr := run_bare_inert (fun d hd => (isSafe_plain (hsafe d hd)).1) w
      simpa [quote, quoteWord, hs] using hr
    · have hq : step (.bare w) '\'' = some (.single w, []) := rfl
      have hrun := run_escapeQuotes (c :: t) w
      simp only [quote, quoteWord, hs, List.isEmpty_cons, Bool.false_eq_true, if_false,
        List.cons_append, run, hq, hrun]
      rfl

/-- The only field of a quoted text is the text. -/
lemma fields_quoteWord (dir : List Text) (t : Text) : fields dir (quoteWord t) = some [t] := by
  by_cases hs : (t.isEmpty || !t.all isSafe) = true
  · rw [quoteWord, hs]
    exact fields_quoted dir t
  · have hsafe : ∀ c ∈ t, isSafe c = true := by
      simp only [Bool.or_eq_true, not_or, Bool.not_eq_true', Bool.not_eq_false] at hs
      simpa using hs.2
    have hw : quoteWord t = lits false t := by
      rw [quoteWord, Bool.eq_false_iff.2 hs]
    have hp : isPattern (t.map fun c => (false, c)) = false := by
      simp only [isPattern, List.any_map, List.any_eq_false]
      intro c hc
      have := (isSafe_plain (hsafe c hc)).2.2.2
      simpa using this
    rw [hw, fields_bare dir]
    · simp [expand, hp, Function.comp_def]
    · intro hh
      have hmem : '~' ∈ t := List.mem_of_mem_head? hh
      exact (isSafe_plain (hsafe _ hmem)).2.2.1 rfl

/-! ### UTF-8 -/

/-- `s.encode("utf-8")`. -/
def encodeUtf8 (t : Text) : List UInt8 := t.flatMap String.utf8EncodeChar

/-- `b.decode("utf-8")`; none when the bytes are not valid. -/
def decodeUtf8 (b : List UInt8) : Option Text := b.toByteArray.utf8Decode?.map Array.toList

lemma decodeUtf8_encodeUtf8 (t : Text) : decodeUtf8 (encodeUtf8 t) = some t := by
  have h : (encodeUtf8 t).toByteArray = t.utf8Encode := rfl
  rw [decodeUtf8, h, List.utf8Decode?_utf8Encode]
  rfl

/-- An ASCII text has one byte for each character. -/
lemma take_encodeUtf8 {t : Text} (h : ∀ c ∈ t, c.toNat < 128) (n : Nat) :
    (encodeUtf8 t).take n = encodeUtf8 (t.take n) := by
  induction t generalizing n with
  | nil => rw [List.take_nil]; exact List.take_nil
  | cons c t ih =>
    have hc : (String.utf8EncodeChar c).length = 1 := by
      have hlt : c.val.toNat < 128 := h c List.mem_cons_self
      rw [String.length_utf8EncodeChar, Char.utf8Size_eq_one_iff]
      exact UInt32.le_iff_toNat_le.2 (Nat.le_of_lt_succ hlt)
    obtain ⟨b, hb⟩ := List.length_eq_one_iff.1 hc
    cases n with
    | zero => rfl
    | succ n =>
      have ih' := ih (fun d hd => h d (List.mem_cons_of_mem _ hd)) n
      simp only [encodeUtf8, List.flatMap_cons, hb, List.singleton_append, List.take_succ_cons] at ih' ⊢
      rw [ih']

/-! ### Stripping -/

lemma strip_eq (t : Text) : strip t = (t.dropWhile isSpace).rdropWhile isSpace := rfl

lemma dropWhile_of_prefix {p : Char → Bool} {u v : Text} (h : v <+: u) (hu : u.dropWhile p = u) :
    v.dropWhile p = v := by
  cases v with
  | nil => rfl
  | cons c v =>
    obtain ⟨w, rfl⟩ := h
    refine List.dropWhile_eq_self_iff.2 fun _ => ?_
    exact List.dropWhile_eq_self_iff.1 hu (Nat.succ_pos _)

/-- A character that is no space stays. -/
lemma strip_ne_nil {t : Text} {c : Char} (hc : c ∈ t) (hspace : isSpace c = false) : strip t ≠ [] := by
  have hfront : c ∈ t.dropWhile isSpace := by
    have hmem : c ∈ t.takeWhile isSpace ++ t.dropWhile isSpace := by rwa [List.takeWhile_append_dropWhile]
    refine (List.mem_append.1 hmem).resolve_left fun htake => ?_
    have hall := List.mem_takeWhile_imp htake
    cases hall.symm.trans hspace
  rw [strip_eq]
  intro hnil
  have hback := List.rdropWhile_eq_nil_iff.1 hnil c hfront
  cases hback.symm.trans hspace

lemma strip_strip (t : Text) : strip (strip t) = strip t := by
  have hl : (strip t).dropWhile isSpace = strip t :=
    dropWhile_of_prefix (List.rdropWhile_prefix isSpace _) (List.dropWhile_idempotent isSpace t)
  rw [strip_eq (strip t), hl, strip_eq, List.rdropWhile_idempotent]

/-- What `rdropWhile` takes off, where it stops in the back part. -/
lemma rdropWhile_append {p : Char → Bool} (a : Text) {b : Text} (h : b.rdropWhile p ≠ []) :
    (a ++ b).rdropWhile p = a ++ b.rdropWhile p := by
  have hne : ¬(b.reverse.dropWhile p).isEmpty = true := by
    rw [List.isEmpty_iff]
    exact fun he => h (by rw [List.rdropWhile, he]; rfl)
  rw [List.rdropWhile, List.reverse_append, List.dropWhile_append, if_neg hne, List.reverse_append,
    List.reverse_reverse, List.rdropWhile]

/-- A text between two characters that are no spaces stays, and the spaces behind it go. -/
lemma strip_append {t e : Text} (hne : t ≠ []) (hhead : isSpace (t.head hne) = false)
    (hlast : isSpace (t.getLast hne) = false) (he : ∀ c ∈ e, isSpace c = true) : strip (t ++ e) = t := by
  have hfront : (t ++ e).dropWhile isSpace = t ++ e := by
    obtain ⟨c, t, rfl⟩ := List.exists_cons_of_ne_nil hne
    rw [List.cons_append, List.dropWhile_cons_of_neg]
    rw [List.head_cons] at hhead
    rw [hhead]
    exact Bool.false_ne_true
  have hback : (t ++ e).rdropWhile isSpace = t.rdropWhile isSpace := by
    rw [List.rdropWhile, List.reverse_append, List.dropWhile_append_of_pos, List.rdropWhile]
    exact fun c hc => he c (List.mem_reverse.1 hc)
  rw [strip_eq, hfront, hback, List.rdropWhile_eq_self_iff]
  intro h
  rw [hlast]
  exact Bool.false_ne_true

end PyText
