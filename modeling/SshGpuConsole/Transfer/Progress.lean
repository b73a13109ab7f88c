import SshGpuConsole.Lib.PyLines
import Mathlib.Data.Rat.Floor
import Mathlib.Algebra.Order.Archimedean.Basic
import Mathlib.Data.List.Infix

/-!
# The progress of an rsync command

`parse_progress2` (`transfer/planner.py`) on the chunks in which the output of the command comes in, with the callback
of `_run_rsync` (`transfer/service.py`) that caps what was read. A chunk is read line by line, and what is left of a
line that a chunk cuts is read as a line of its own. Rates and estimates are left out.
-/

namespace SshGpuConsole.Progress
open Shell (Text)
open PyLines PyText

/-! ### Reading a line -/

/-- `\d` of what the command writes. -/
def isDigit (c : Char) : Bool := '0' ≤ c && c ≤ '9'

/-- The number that the digits of a text write. -/
def decimal (t : Text) : ℕ := (t.filter isDigit).foldl (fun n c => 10 * n + (c.toNat - '0'.toNat)) 0

/-- `_PROGRESS_RE` at the start of a text, its group as an exact number. -/
def percentAt (t : Text) : Option ℚ :=
  let whole := t.takeWhile isDigit
  if whole = [] then none
  else
    match t.dropWhile isDigit with
    | '%' :: _ => some (decimal whole)
    | '.' :: rest =>
      let fraction := rest.takeWhile isDigit
      if fraction ≠ [] ∧ (rest.dropWhile isDigit).head? = some '%' then
        some (decimal whole + decimal fraction / 10 ^ fraction.length)
      else none
    | _ => none

/-- `_PROGRESS_RE.search` -/
def percentIn (line : Text) : Option ℚ := line.tails.findSome? percentAt

/-- The characters of the counter. -/
def isGrouped (c : Char) : Bool := isDigit c || c = ','

/-- `_PROGRESS_BYTES_RE.match`: its first group. -/
def counterAt (line : Text) : Option Text :=
  let line := line.dropWhile isSpace
  let group := line.takeWhile isGrouped
  let behind := line.dropWhile isGrouped
  if group ≠ [] ∧ behind.head?.any isSpace = true ∧ (percentAt (behind.dropWhile isSpace)).isSome then some group
  else none

/-- What a line says. -/
inductive Reading where
  | counter (bytes : ℕ)
  /-- A percentage without a counter. -/
  | percent (value : ℚ)
  /-- A counter without a digit, which `int` refuses. -/
  | refused
  | nothing
  deriving DecidableEq, Repr

def reading (line : Text) : Reading :=
  match counterAt line with
  | some group => if group.any isDigit then .counter (decimal group) else .refused
  | none =>
    match percentIn line with
    | some value => .percent value
    | none => .nothing

/-! ### Reading the output -/

/-- One round of the loop of `parse_progress2`, on `bytes_done`; nothing when `int` raises. -/
def parseLine (bytes_total : Option ℕ) (bytes_done : ℕ) (line : Text) : Option ℕ :=
  match reading line with
  | .counter bytes => some (max bytes_done bytes)
  | .percent value =>
    match bytes_total with
    | some total => some (if total > 0 then ⌊total * value / 100⌋₊ else bytes_done)
    | none => some bytes_done
  | .refused => none
  | .nothing => some bytes_done

/-- `parse_progress2` -/
def parseProgress2 (bytes_total : Option ℕ) (bytes_done : ℕ) (chunk : Text) : Option ℕ :=
  (charBreaks.lines chunk).foldlM (parseLine bytes_total) bytes_done

/-- What the bar shows: no more than the total. -/
def cap (bytes_total : Option ℕ) (bytes_done : ℕ) : ℕ :=
  match bytes_total with
  | some total => if bytes_done > total then total else bytes_done
  | none => bytes_done

/-- `_on_stdout` -/
def onStdout (bytes_total : Option ℕ) (bytes_done : ℕ) (chunk : Text) : Option ℕ := do
  return cap bytes_total (← parseProgress2 bytes_total bytes_done chunk)

/-- The assignments to `bytes_done`: a line is read, or the chunk is at its end. -/
inductive Step where
  | line (text : Text)
  | capped
  deriving DecidableEq, Repr

def step (bytes_total : Option ℕ) (bytes_done : ℕ) : Step → Option ℕ
  | .line text => parseLine bytes_total bytes_done text
  | .capped => some (cap bytes_total bytes_done)

def steps (chunks : List Text) : List Step :=
  chunks.flatMap fun chunk => (charBreaks.lines chunk).map Step.line ++ [.capped]

/-- The callback makes these assignments. -/
lemma foldlM_onStdout (bytes_total : Option ℕ) (chunks : List Text) (bytes_done : ℕ) :
    chunks.foldlM (onStdout bytes_total) bytes_done = (steps chunks).foldlM (step bytes_total) bytes_done := by
  induction chunks generalizing bytes_done with
  | nil => rfl
  | cons chunk chunks ih =>
    have hlines : ((charBreaks.lines chunk).map Step.line).foldlM (step bytes_total) bytes_done =
        parseProgress2 bytes_total bytes_done chunk := by
      rw [List.foldlM_map]
      rfl
    show _ = ((charBreaks.lines chunk).map Step.line ++ [Step.capped] ++ steps chunks).foldlM (step bytes_total) bytes_done
    rw [List.foldlM_cons, List.append_assoc, List.foldlM_append, hlines]
    unfold onStdout
    cases parseProgress2 bytes_total bytes_done chunk with
    | none => rfl
    | some done => exact ih (cap bytes_total done)

/-! ### What the command writes -/

def IsSeparator (c : Char) : Prop := c = '\r' ∨ c = '\n'

/-- A line of progress. -/
structure Line where
  lead : Text
  counter : Text
  gap : Text
  percent : Text
  /-- The rate, the time and what else there is. -/
  rest : Text
  lead_blank : ∀ c ∈ lead, c = ' '
  counter_grouped : ∀ c ∈ counter, isGrouped c = true
  counter_ends : counter.getLast?.any isDigit = true
  gap_blank : ∀ c ∈ gap, c = ' '
  gap_ne : gap ≠ []
  percent_number : ∀ c ∈ percent, isDigit c = true ∨ c = '.'
  rest_plain : ∀ c ∈ rest, c ≠ '%'

def Line.text (l : Line) : Text := l.lead ++ l.counter ++ l.gap ++ l.percent ++ '%' :: l.rest

/-- The bytes that the line counts. -/
def Line.bytes (l : Line) : ℕ := decimal l.counter

/-- The output of a command: lines that separators are between. -/
structure Output where
  start : Text
  /-- The lines, each with the separators behind it. -/
  lines : List (Line × Text)
  start_separates : ∀ c ∈ start, IsSeparator c
  separates : ∀ l ∈ lines, ∀ c ∈ l.2, IsSeparator c
  apart : ∀ l ∈ lines.dropLast, l.2 ≠ []
  ne : lines ≠ []
  sorted : (lines.map fun l => l.1.bytes).Pairwise (· ≤ ·)

def Output.text (o : Output) : Text := o.start ++ o.lines.flatMap fun l => l.1.text ++ l.2

/-- The bytes that the last line counts. -/
def Output.last (o : Output) : ℕ := (o.lines.getLast o.ne).1.bytes

/-- An output, and the chunks in which it comes in. -/
structure Delivery where
  output : Output
  chunks : List Text
  whole : chunks.flatten = output.text

/-- The bar never goes back, and it ends at the last line's counter. -/
structure Faithful (d : Delivery) (bytes_total : Option ℕ) : Prop where
  monotone : ∀ before s after, steps d.chunks = before ++ s :: after → ∀ done done',
    before.foldlM (step bytes_total) 0 = some done → step bytes_total done s = some done' →
    cap bytes_total done ≤ cap bytes_total done'
  ends : d.chunks.foldlM (onStdout bytes_total) 0 = some (cap bytes_total d.output.last)

/-- What the lines of the chunks say. -/
def readings (d : Delivery) : List Reading := (d.chunks.flatMap charBreaks.lines).map reading

/-- The last counter is read, if it is not zero, and a percentage without a counter says nothing: it is zero, and no
counter above zero was read before it. -/
def CutsApart (d : Delivery) : Prop :=
  (d.output.last = 0 ∨ .counter d.output.last ∈ readings d) ∧
    ∀ before value after, readings d = before ++ .percent value :: after →
      value = 0 ∧ ∀ bytes, .counter bytes ∈ before → bytes = 0

/-! ### What is left of a line -/

variable {d : Delivery} {bytes_total : Option ℕ} {t p g : Text}

lemma not_space_of_grouped {c : Char} (h : isGrouped c = true) : isSpace c = false := by
  unfold isGrouped isDigit at h
  rw [Bool.or_eq_true, Bool.and_eq_true, decide_eq_true_iff, decide_eq_true_iff, decide_eq_true_iff] at h
  rcases h with ⟨h0, h9⟩ | rfl
  · have h0 : 48 ≤ c.toNat := h0
    have h9 : c.toNat ≤ 57 := h9
    unfold isSpace
    simp only [Bool.or_eq_false_iff, Bool.and_eq_false_iff, decide_eq_false_iff_not]
    omega
  · decide

/-- What a percentage is written with. -/
def IsNumber (c : Char) : Prop := isDigit c = true ∨ c = '.'

lemma not_space_of_number {c : Char} (h : IsNumber c) : isSpace c = false := by
  rcases h with h | rfl
  · exact not_space_of_grouped (by rw [isGrouped, h, Bool.true_or])
  · decide

lemma percentAt_spec (h : (percentAt t).isSome) : ∃ n r, t = n ++ '%' :: r ∧ ∀ c ∈ n, IsNumber c := by
  have hsplit := List.takeWhile_append_dropWhile (p := isDigit) (l := t)
  have hdigits : ∀ (u : Text), ∀ c ∈ u.takeWhile isDigit, IsNumber c := fun u c hc => .inl (List.mem_takeWhile_imp hc)
  unfold percentAt at h
  dsimp only at h
  split at h
  · cases h
  · split at h
    · rename_i r hr
      exact ⟨t.takeWhile isDigit, r, by rw [← hr, hsplit], hdigits t⟩
    · rename_i rest hr
      split at h
      · rename_i hcond
        obtain ⟨r, hr'⟩ := List.head?_eq_some_iff.1 hcond.2
        have hrest := List.takeWhile_append_dropWhile (p := isDigit) (l := rest)
        refine ⟨t.takeWhile isDigit ++ '.' :: rest.takeWhile isDigit, r, ?_, fun c hc => ?_⟩
        · rw [List.append_assoc, List.cons_append, ← hr', hrest, ← hr, hsplit]
        · rcases List.mem_append.1 hc with hc | hc
          · exact hdigits t c hc
          · rcases List.mem_cons.1 hc with rfl | hc
            · exact .inr rfl
            · exact hdigits rest c hc
      · cases h
    · cases h

/-- A line with a counter: blanks, the counter, blanks, the percentage. -/
lemma counterAt_spec (h : counterAt t = some g) : ∃ b s n r, t = b ++ g ++ s ++ n ++ '%' :: r ∧ g ≠ [] ∧
    (∀ c ∈ g, isGrouped c = true) ∧ s ≠ [] ∧ (∀ c ∈ s, isSpace c = true) ∧ ∀ c ∈ n, IsNumber c := by
  unfold counterAt at h
  dsimp only at h
  split at h
  · rename_i hcond
    obtain rfl := Option.some.inj h
    obtain ⟨hne, hblank, hpercent⟩ := hcond
    obtain ⟨n, r, hn, hnumber⟩ := percentAt_spec hpercent
    have hlead := List.takeWhile_append_dropWhile (p := isSpace) (l := t)
    have hgroup := List.takeWhile_append_dropWhile (p := isGrouped) (l := t.dropWhile isSpace)
    have hgap := List.takeWhile_append_dropWhile (p := isSpace) (l := (t.dropWhile isSpace).dropWhile isGrouped)
    refine ⟨t.takeWhile isSpace, ((t.dropWhile isSpace).dropWhile isGrouped).takeWhile isSpace, n, r, ?_, hne,
      fun c hc => List.mem_takeWhile_imp hc, ?_, fun c hc => List.mem_takeWhile_imp hc, hnumber⟩
    · rw [List.append_assoc, ← hn, List.append_assoc, hgap, List.append_assoc, hgroup, hlead]
    · cases hb : (t.dropWhile isSpace).dropWhile isGrouped with
      | nil =>
        rw [hb] at hblank
        cases hblank
      | cons c rest =>
        rw [hb] at hblank
        have hc : isSpace c = true := hblank
        rw [List.takeWhile_cons_of_pos hc]
        exact List.cons_ne_nil _ _
  · cases h

/-- Behind the last of them, two texts are the same. -/
lemma append_cons_inj {x : Char} {a b c e : Text} (h : a ++ x :: b = c ++ x :: e) (hc : x ∉ c) (he : x ∉ e) :
    a = c ∧ b = e := by
  rcases List.append_eq_append_iff.1 h with ⟨m, rfl, hm⟩ | ⟨m, rfl, hm⟩
  · cases m with
    | nil => exact ⟨(List.append_nil a).symm, (List.cons.inj hm).2⟩
    | cons y m =>
      obtain ⟨rfl, rfl⟩ := List.cons.inj hm
      exact absurd (List.mem_append_right _ List.mem_cons_self) hc
  · cases m with
    | nil => exact ⟨List.append_nil c, (List.cons.inj hm).2.symm⟩
    | cons y m =>
      obtain ⟨rfl, rfl⟩ := List.cons.inj hm
      exact absurd (List.mem_append_right _ List.mem_cons_self) he

/-- Two texts end in the same word, and in the same blanks before it. -/
lemma cut_word {a b s s' n n' : Text} (h : a ++ s ++ n = b ++ s' ++ n')
    (hn : ∀ c ∈ n, isSpace c = false) (hn' : ∀ c ∈ n', isSpace c = false) (hs : ∀ c ∈ s, isSpace c = true)
    (hs' : ∀ c ∈ s', isSpace c = true) (hne : s ≠ []) (hne' : s' ≠ []) (ha : ∀ c ∈ a.getLast?, isSpace c = false)
    (hb : ∀ c ∈ b.getLast?, isSpace c = false) : a = b := by
  have hword : ∀ {a s n : Text}, (∀ c ∈ n, isSpace c = false) → (∀ c ∈ s, isSpace c = true) → s ≠ [] →
      (∀ c ∈ a.getLast?, isSpace c = false) →
      (((a ++ s ++ n).reverse.dropWhile fun c => !isSpace c).dropWhile isSpace) = a.reverse := by
    intro a s n hn hs hne ha
    have hn : ∀ c ∈ n.reverse, (!isSpace c) = true := fun c hc => by rw [hn c (List.mem_reverse.1 hc)]; rfl
    have hs : ∀ c ∈ s.reverse, isSpace c = true := fun c hc => hs c (List.mem_reverse.1 hc)
    obtain ⟨c, rest, hrev⟩ := List.exists_cons_of_ne_nil (List.reverse_ne_nil_iff.2 hne)
    have hc : isSpace c = true := hs c (hrev ▸ List.mem_cons_self)
    have hstop : ((s.reverse ++ a.reverse).dropWhile fun c => !isSpace c) = s.reverse ++ a.reverse := by
      rw [hrev, List.cons_append, List.dropWhile_cons_of_neg (by rw [hc]; exact Bool.false_ne_true)]
    rw [List.reverse_append, List.reverse_append, List.dropWhile_append_of_pos hn, hstop,
      List.dropWhile_append_of_pos hs]
    cases hr : a.reverse with
    | nil => rfl
    | cons c rest =>
      have hlast : a.getLast? = some c := by
        rw [← List.head?_reverse, hr]
        rfl
      exact List.dropWhile_cons_of_neg (by rw [ha c hlast]; exact Bool.false_ne_true)
  have hrev := hword hn hs hne ha
  rw [h, hword hn' hs' hne' hb] at hrev
  exact List.reverse_injective hrev.symm

/-- A counter that is read off a piece of a line is the end of the line's counter. -/
lemma counter_suffix (l : Line) (hp : p <:+: l.text) (h : counterAt p = some g) : g <:+ l.counter := by
  obtain ⟨b, s, n, r, hpiece, hgne, hg, hsne, hs, hn⟩ := counterAt_spec h
  obtain ⟨front, back, htext⟩ := hp
  have hnumber : ∀ c ∈ l.percent, IsNumber c := l.percent_number
  have hcounter : l.counter ≠ [] := by
    intro hnil
    have hends := l.counter_ends
    rw [hnil] at hends
    cases hends
  have hblank : isSpace ' ' = true := by decide
  -- there is one percent sign
  have hsign : (front ++ b ++ g ++ s ++ n) ++ '%' :: (r ++ back) =
      (l.lead ++ l.counter ++ l.gap ++ l.percent) ++ '%' :: l.rest := by
    rw [hpiece] at htext
    unfold Line.text at htext
    rw [← htext]
    simp only [List.append_assoc, List.cons_append]
  have hbefore : '%' ∉ l.lead ++ l.counter ++ l.gap ++ l.percent := by
    intro hmem
    rw [List.mem_append, List.mem_append, List.mem_append] at hmem
    rcases hmem with ((hmem | hmem) | hmem) | hmem
    · exact absurd (l.lead_blank _ hmem) (by decide)
    · exact absurd (l.counter_grouped _ hmem) (by decide)
    · exact absurd (l.gap_blank _ hmem) (by decide)
    · rcases hnumber _ hmem with hmem | hmem
      · exact absurd hmem (by decide)
      · exact absurd hmem (by decide)
  have hword := (append_cons_inj hsign hbefore fun hmem => l.rest_plain _ hmem rfl).1
  -- before it the percentages are one, and the blanks
  have hcut : front ++ b ++ g = l.lead ++ l.counter := by
    refine cut_word hword (fun c hc => not_space_of_number (hn c hc)) (fun c hc => not_space_of_number (hnumber c hc))
      hs (fun c hc => by rw [l.gap_blank c hc]; exact hblank) hsne l.gap_ne (fun c hc => ?_) fun c hc => ?_
    · rw [List.getLast?_append_of_ne_nil _ hgne] at hc
      exact not_space_of_grouped (hg c (List.mem_of_getLast? hc))
    · rw [List.getLast?_append_of_ne_nil _ hcounter] at hc
      exact not_space_of_grouped (l.counter_grouped c (List.mem_of_getLast? hc))
  rcases List.append_eq_append_iff.1 hcut with ⟨m, hlead, hm⟩ | ⟨m, -, hm⟩
  · -- the counter would start in the blanks
    cases m with
    | nil =>
      rw [List.nil_append] at hm
      exact hm ▸ List.suffix_refl _
    | cons c m =>
      have hc : c = ' ' := l.lead_blank c (hlead ▸ List.mem_append_right _ List.mem_cons_self)
      have hgc := hg c (hm ▸ List.mem_append_left _ List.mem_cons_self)
      rw [hc] at hgc
      exact absurd hgc (by decide)
  · exact ⟨m, hm.symm⟩

lemma decimal_le (h : g <:+ t) : decimal g ≤ decimal t := by
  obtain ⟨front, rfl⟩ := h
  unfold decimal
  rw [List.filter_append, List.foldl_append]
  generalize (front.filter isDigit).foldl (fun n c => 10 * n + (c.toNat - '0'.toNat)) 0 = n
  have hmono : ∀ (u : Text) (m n : ℕ), m ≤ n →
      u.foldl (fun n c => 10 * n + (c.toNat - '0'.toNat)) m ≤ u.foldl (fun n c => 10 * n + (c.toNat - '0'.toNat)) n := by
    intro u
    induction u with
    | nil => exact fun m n h => h
    | cons c u ih => exact fun m n h => ih _ _ (Nat.add_le_add_right (Nat.mul_le_mul_left 10 h) _)
  exact hmono _ 0 n (Nat.zero_le n)

/-- A piece of a line says no more than the line's counter, and `int` does not refuse it. -/
lemma reading_piece (l : Line) (hp : p <:+: l.text) :
    reading p ≠ .refused ∧ ∀ bytes, reading p = .counter bytes → bytes ≤ l.bytes := by
  unfold reading
  cases hc : counterAt p with
  | none =>
    dsimp only
    split
    · exact ⟨fun h => Reading.noConfusion h, fun _ h => Reading.noConfusion h⟩
    · exact ⟨fun h => Reading.noConfusion h, fun _ h => Reading.noConfusion h⟩
  | some g =>
    have hsuffix := counter_suffix l hp hc
    have hdigit : g.any isDigit = true := by
      obtain ⟨-, -, -, -, -, hgne, -⟩ := counterAt_spec hc
      obtain ⟨c, hlast⟩ : ∃ c, g.getLast? = some c := ⟨_, List.getLast?_eq_some_getLast hgne⟩
      have hends := l.counter_ends
      obtain ⟨front, hfront⟩ := hsuffix
      rw [← hfront, List.getLast?_append_of_ne_nil _ hgne, hlast] at hends
      exact List.any_eq_true.2 ⟨c, List.mem_of_getLast? hlast, hends⟩
    dsimp only
    rw [if_pos hdigit]
    refine ⟨fun h => Reading.noConfusion h, fun bytes h => ?_⟩
    rw [← Reading.counter.inj h]
    exact decimal_le hsuffix

/-- A piece without the character is on one side of it. -/
lemma infix_append_cons {x : Char} {a b : Text} (h : p <:+: a ++ x :: b) (hx : x ∉ p) : p <:+: a ∨ p <:+: b := by
  obtain ⟨front, back, heq⟩ := h
  rw [List.append_assoc] at heq
  rcases List.append_eq_append_iff.1 heq with ⟨m, rfl, hm⟩ | ⟨m, rfl, hm⟩
  · rcases List.append_eq_append_iff.1 hm with ⟨k, rfl, -⟩ | ⟨k, rfl, hk⟩
    · exact .inl ⟨front, k, List.append_assoc front p k⟩
    · cases k with
      | nil => exact .inl ⟨front, [], by rw [List.append_nil, List.append_nil]⟩
      | cons y k =>
        obtain ⟨rfl, -⟩ := List.cons.inj hk
        exact absurd (List.mem_append_right _ List.mem_cons_self) hx
  · cases m with
    | nil =>
      rw [List.nil_append] at hm
      cases p with
      | nil => exact .inl ⟨[], a, rfl⟩
      | cons y p =>
        obtain ⟨rfl, -⟩ := List.cons.inj hm
        exact absurd List.mem_cons_self hx
    | cons y m =>
      obtain ⟨-, rfl⟩ := List.cons.inj hm
      exact .inr ⟨m, back, List.append_assoc m p back⟩

lemma infix_separators {seps rest : Text} (hseps : ∀ c ∈ seps, IsSeparator c) (hp : ∀ c ∈ p, ¬IsSeparator c)
    (h : p <:+: seps ++ rest) : p <:+: rest := by
  induction seps with
  | nil => exact h
  | cons x seps ih =>
    have hx : x ∉ p := fun hx => hp x hx (hseps x List.mem_cons_self)
    have h : p <:+: [] ++ x :: (seps ++ rest) := h
    rcases infix_append_cons h hx with h | h
    · rw [List.infix_nil.1 h]
      exact List.nil_infix
    · exact ih (fun c hc => hseps c (List.mem_cons_of_mem _ hc)) h

/-- A piece of the lines that no separator is in is a piece of one of them. -/
lemma infix_lines {ls : List (Line × Text)} (hseps : ∀ l ∈ ls, ∀ c ∈ l.2, IsSeparator c)
    (hapart : ∀ l ∈ ls.dropLast, l.2 ≠ []) (hp : ∀ c ∈ p, ¬IsSeparator c)
    (h : p <:+: ls.flatMap fun l => l.1.text ++ l.2) : p = [] ∨ ∃ l ∈ ls, p <:+: l.1.text := by
  induction ls with
  | nil => exact .inl (List.infix_nil.1 h)
  | cons l ls ih =>
    rw [List.flatMap_cons, List.append_assoc] at h
    have hl := hseps l List.mem_cons_self
    have hrest : ∀ m ∈ ls, ∀ c ∈ m.2, IsSeparator c := fun m hm => hseps m (List.mem_cons_of_mem _ hm)
    cases hsep : l.2 with
    | nil =>
      -- the last line, with nothing behind it
      have hls : ls = [] := by
        cases ls with
        | nil => rfl
        | cons m ls => exact absurd hsep (hapart l List.mem_cons_self)
      subst hls
      rw [hsep, List.flatMap_nil, List.append_nil, List.append_nil] at h
      exact .inr ⟨l, List.mem_cons_self, h⟩
    | cons x sep =>
      rw [hsep] at hl h
      have hx : x ∉ p := fun hx => hp x hx (hl x List.mem_cons_self)
      rcases infix_append_cons h hx with h | h
      · exact .inr ⟨l, List.mem_cons_self, h⟩
      · have hapart' : ∀ m ∈ ls.dropLast, m.2 ≠ [] := by
          intro m hm
          cases ls with
          | nil => cases hm
          | cons n ls => exact hapart m (List.mem_cons_of_mem _ hm)
        rcases ih hrest hapart' (infix_separators (fun c hc => hl c (List.mem_cons_of_mem _ hc)) hp h) with h | h
        · exact .inl h
        · obtain ⟨m, hm, h⟩ := h
          exact .inr ⟨m, List.mem_cons_of_mem _ hm, h⟩

/-- No line counts more than the last. -/
lemma bytes_le_last (o : Output) {l : Line × Text} (hl : l ∈ o.lines) : l.1.bytes ≤ o.last := by
  have hsplit := List.dropLast_append_getLast o.ne
  have hsorted := o.sorted
  rw [← hsplit] at hl hsorted
  rw [List.map_append, List.pairwise_append] at hsorted
  rcases List.mem_append.1 hl with hl | hl
  · exact hsorted.2.2 _ (List.mem_map_of_mem hl) _ (List.mem_map_of_mem (List.mem_singleton_self _))
  · rw [List.mem_singleton.1 hl]
    exact Nat.le_refl _

/-- What the chunks are read as: nothing that `int` refuses, and no counter above the last. -/
lemma reading_chunk {chunk : Text} (hchunk : chunk ∈ d.chunks) (hp : p ∈ charBreaks.lines chunk) :
    reading p ≠ .refused ∧ ∀ bytes, reading p = .counter bytes → bytes ≤ d.output.last := by
  obtain ⟨hwithin, hplain⟩ := Breaks.mem_lines hp
  have hp : ∀ c ∈ p, ¬IsSeparator c := by
    rintro c hc (rfl | rfl)
    · exact absurd (hplain _ hc) (by decide)
    · exact absurd (hplain _ hc) (by decide)
  have htext : p <:+: d.output.text := d.whole ▸ hwithin.trans (List.infix_of_mem_flatten hchunk)
  have hlines := infix_separators d.output.start_separates hp htext
  rcases infix_lines d.output.separates d.output.apart hp hlines with rfl | ⟨l, hl, hpiece⟩
  · have hnothing : reading [] = .nothing := by decide
    rw [hnothing]
    exact ⟨fun h => Reading.noConfusion h, fun _ h => Reading.noConfusion h⟩
  · obtain ⟨hok, hle⟩ := reading_piece l.1 hpiece
    exact ⟨hok, fun bytes h => (hle bytes h).trans (bytes_le_last d.output hl)⟩

/-! ### The bar -/

lemma cap_le_cap {m n : ℕ} (h : m ≤ n) : cap bytes_total m ≤ cap bytes_total n := by
  unfold cap
  cases bytes_total with
  | none => exact h
  | some total =>
    dsimp only
    split <;> split <;> omega

lemma cap_cap (n : ℕ) : cap bytes_total (cap bytes_total n) = cap bytes_total n := by
  cases bytes_total with
  | none => rfl
  | some total =>
    unfold cap
    by_cases h : n > total
    · simp only [if_pos h, gt_iff_lt, lt_self_iff_false, if_false]
    · simp only [if_neg h]

lemma cap_zero : cap bytes_total 0 = 0 := by
  cases bytes_total with
  | none => rfl
  | some total =>
    show (if 0 > total then total else 0) = 0
    exact if_neg (Nat.not_lt_zero total)

lemma cap_max (m n : ℕ) : cap bytes_total (max m n) = max (cap bytes_total m) (cap bytes_total n) := by
  rcases Nat.le_total m n with h | h
  · rw [Nat.max_eq_right h, Nat.max_eq_right (cap_le_cap h)]
  · rw [Nat.max_eq_left h, Nat.max_eq_left (cap_le_cap h)]

/-- What a step reads. -/
def Step.said : Step → Option Reading
  | .line text => some (reading text)
  | .capped => none

lemma readings_eq (d : Delivery) : readings d = (steps d.chunks).filterMap Step.said := by
  unfold readings steps
  rw [List.filterMap_flatMap, List.map_flatMap]
  refine congrArg (fun f => d.chunks.flatMap f) (funext fun chunk => ?_)
  rw [List.filterMap_append, List.filterMap_map, List.filterMap_cons_none rfl, List.filterMap_nil, List.append_nil]
  exact (List.filterMap_eq_map (f := reading)).symm ▸ rfl

/-- The highest counter that some steps read. -/
def peak (ss : List Step) : ℕ :=
  ss.foldl (fun m s => match s.said with | some (.counter bytes) => max m bytes | _ => m) 0

lemma peak_concat (ss : List Step) (s : Step) : peak (ss ++ [s]) =
    match s.said with | some (.counter bytes) => max (peak ss) bytes | _ => peak ss := by
  unfold peak
  rw [List.foldl_append]
  rfl

lemma peak_le {ss : List Step} {n : ℕ} (h : ∀ s ∈ ss, ∀ bytes, s.said = some (.counter bytes) → bytes ≤ n) :
    peak ss ≤ n := by
  induction ss using List.reverseRecOn with
  | nil => exact Nat.zero_le n
  | append_singleton ss s ih =>
    have ih := ih fun t ht => h t (List.mem_append_left _ ht)
    rw [peak_concat]
    split
    · rename_i bytes hs
      exact Nat.max_le.2 ⟨ih, h s (List.mem_append_right _ (List.mem_singleton_self s)) bytes hs⟩
    · exact ih

lemma le_peak {ss : List Step} {s : Step} {bytes : ℕ} (hs : s ∈ ss) (h : s.said = some (.counter bytes)) :
    bytes ≤ peak ss := by
  induction ss using List.reverseRecOn with
  | nil => cases hs
  | append_singleton ss t ih =>
    rw [peak_concat]
    rcases List.mem_append.1 hs with hs | hs
    · have ih := ih hs
      split
      · exact ih.trans (Nat.le_max_left _ _)
      · exact ih
    · rw [← List.mem_singleton.1 hs, h]
      exact Nat.le_max_right _ _

lemma said_of_mem {s : Step} (hs : s ∈ steps d.chunks) :
    s.said ≠ some .refused ∧ ∀ bytes, s.said = some (.counter bytes) → bytes ≤ d.output.last := by
  obtain ⟨chunk, hchunk, hs⟩ := List.mem_flatMap.1 hs
  rcases List.mem_append.1 hs with hs | hs
  · obtain ⟨text, htext, rfl⟩ := List.mem_map.1 hs
    obtain ⟨hok, hle⟩ := reading_chunk hchunk htext
    exact ⟨fun h => hok (Option.some.inj h), fun bytes h => hle bytes (Option.some.inj h)⟩
  · rw [List.mem_singleton.1 hs]
    exact ⟨fun h => (by cases h), fun _ h => (by cases h)⟩

lemma mem_readings {r : Reading} : r ∈ readings d ↔ ∃ s ∈ steps d.chunks, s.said = some r := by
  rw [readings_eq, List.mem_filterMap]

/-- Where the cuts are apart from the counters, the bar shows the highest counter so far. -/
lemma run_shows (h : CutsApart d) (bytes_total : Option ℕ) {before after : List Step}
    (hsplit : steps d.chunks = before ++ after) :
    ∃ done, before.foldlM (step bytes_total) 0 = some done ∧ cap bytes_total done = cap bytes_total (peak before) := by
  induction before using List.reverseRecOn generalizing after with
  | nil => exact ⟨0, rfl, rfl⟩
  | append_singleton before s ih =>
    rw [List.append_assoc, List.singleton_append] at hsplit
    obtain ⟨done, hrun, hcap⟩ := ih hsplit
    have hmem : s ∈ steps d.chunks := hsplit ▸ List.mem_append_right _ List.mem_cons_self
    rw [List.foldlM_append, hrun, peak_concat]
    show ∃ done', step bytes_total done s >>= pure = some done' ∧ _
    rw [bind_pure]
    cases s with
    | capped => exact ⟨_, rfl, (cap_cap done).trans hcap⟩
    | line text =>
      unfold step parseLine Step.said
      dsimp only
      cases hr : reading text with
      | counter bytes =>
        refine ⟨_, rfl, ?_⟩
        rw [cap_max, cap_max, hcap]
      | refused => exact absurd (congrArg some hr) (said_of_mem hmem).1
      | nothing => exact ⟨done, rfl, hcap⟩
      | percent value =>
        -- it is zero, and so is what was read before it
        have hreadings : readings d = before.filterMap Step.said ++ .percent value :: after.filterMap Step.said := by
          have hsaid : (Step.line text).said = some (.percent value) := congrArg some hr
          rw [readings_eq, hsplit, List.filterMap_append, List.filterMap_cons_some hsaid]
        obtain ⟨hzero, hbefore⟩ := h.2 _ value _ hreadings
        have hpeak : peak before = 0 := by
          refine Nat.le_zero.1 (peak_le fun s hs bytes hsaid => ?_)
          exact Nat.le_of_eq (hbefore bytes (List.mem_filterMap.2 ⟨s, hs, hsaid⟩))
        rw [hpeak] at hcap
        cases bytes_total with
        | none => exact ⟨done, rfl, by rw [hpeak]; exact hcap⟩
        | some total =>
          refine ⟨_, rfl, ?_⟩
          dsimp only
          rw [hpeak]
          split
          · rw [hzero, mul_zero, zero_div, Nat.floor_zero]
          · exact hcap

lemma peak_steps (h : CutsApart d) : peak (steps d.chunks) = d.output.last := by
  refine Nat.le_antisymm (peak_le fun s hs bytes hsaid => (said_of_mem hs).2 bytes hsaid) ?_
  rcases h.1 with hzero | hread
  · rw [hzero]
    exact Nat.zero_le _
  · obtain ⟨s, hs, hsaid⟩ := mem_readings.1 hread
    exact le_peak hs hsaid

/-- The last assignment caps. -/
lemma steps_cases (chunks : List Text) : steps chunks = [] ∨ ∃ before, steps chunks = before ++ [.capped] := by
  induction chunks using List.reverseRecOn with
  | nil => exact .inl rfl
  | append_singleton chunks chunk _ =>
    refine .inr ⟨steps chunks ++ (charBreaks.lines chunk).map Step.line, ?_⟩
    unfold steps
    rw [List.flatMap_append, List.flatMap_cons, List.flatMap_nil, List.append_nil, List.append_assoc]

lemma faithful_of_cutsApart (h : CutsApart d) (bytes_total : Option ℕ) : Faithful d bytes_total := by
  constructor
  · intro before s after hsplit done done' hdone hdone'
    obtain ⟨d₁, hrun, hcap⟩ := run_shows h bytes_total hsplit
    obtain rfl := Option.some.inj (hdone.symm.trans hrun)
    have hsplit' : steps d.chunks = (before ++ [s]) ++ after := by
      rw [hsplit, List.append_assoc, List.singleton_append]
    obtain ⟨d₂, hrun', hcap'⟩ := run_shows h bytes_total hsplit'
    have hstep : (before ++ [s]).foldlM (step bytes_total) 0 = some done' := by
      rw [List.foldlM_append, hdone]
      show step bytes_total done s >>= pure = some done'
      rw [bind_pure, hdone']
    obtain rfl := Option.some.inj (hstep.symm.trans hrun')
    rw [hcap, hcap', peak_concat]
    split
    · exact cap_le_cap (Nat.le_max_left _ _)
    · exact Nat.le_refl _
  · obtain ⟨done, hrun, hcap⟩ := run_shows h bytes_total (List.append_nil _).symm
    rw [peak_steps h] at hcap
    rw [foldlM_onStdout, hrun, ← hcap]
    refine congrArg some ?_
    rcases steps_cases d.chunks with hnil | ⟨before, hlast⟩
    · rw [hnil] at hrun
      obtain rfl := Option.some.inj hrun
      exact cap_zero.symm
    · rw [hlast, List.foldlM_append] at hrun
      cases hbefore : before.foldlM (step bytes_total) 0 with
      | none =>
        rw [hbefore] at hrun
        cases hrun
      | some m =>
        rw [hbefore] at hrun
        obtain rfl : cap bytes_total m = done := Option.some.inj hrun
        exact (cap_cap m).symm

/-- A bar that never goes back is no lower at the end of some assignments. -/
lemma Faithful.run_le (h : Faithful d bytes_total) {before mid after : List Step}
    (hsplit : steps d.chunks = before ++ (mid ++ after)) {m n : ℕ} (hm : before.foldlM (step bytes_total) 0 = some m)
    (hn : mid.foldlM (step bytes_total) m = some n) : cap bytes_total m ≤ cap bytes_total n := by
  induction mid generalizing before m with
  | nil =>
    obtain rfl : m = n := Option.some.inj hn
    exact Nat.le_refl _
  | cons s mid ih =>
    rw [List.foldlM_cons] at hn
    cases hs : step bytes_total m s with
    | none =>
      rw [hs] at hn
      cases hn
    | some k =>
      rw [hs] at hn
      have hbefore : (before ++ [s]).foldlM (step bytes_total) 0 = some k := by
        rw [List.foldlM_append, hm]
        show step bytes_total m s >>= pure = some k
        rw [bind_pure, hs]
      have hsplit' : steps d.chunks = (before ++ [s]) ++ (mid ++ after) := by
        rw [hsplit, List.append_assoc, List.singleton_append]
        rfl
      exact (h.monotone before s (mid ++ after) hsplit m k hm hs).trans (ih hsplit' hbefore hn)

/-- Without a total the bar ends where it was, or at a counter. -/
lemma run_none {ss : List Step} {m n : ℕ} (h : ss.foldlM (step none) m = some n) :
    n = m ∨ ∃ s ∈ ss, s.said = some (.counter n) := by
  induction ss generalizing m with
  | nil => exact .inl (Option.some.inj h).symm
  | cons s ss ih =>
    rw [List.foldlM_cons] at h
    cases hs : step none m s with
    | none =>
      rw [hs] at h
      cases h
    | some k =>
      rw [hs] at h
      rcases ih h with rfl | ⟨t, ht, hsaid⟩
      · cases s with
        | capped => exact .inl (Option.some.inj hs).symm
        | line text =>
          unfold step parseLine at hs
          dsimp only at hs
          split at hs
          · rename_i bytes hr
            rcases Nat.le_total m bytes with hle | hle
            · rw [Nat.max_eq_right hle] at hs
              obtain rfl := Option.some.inj hs
              exact .inr ⟨_, List.mem_cons_self, congrArg some hr⟩
            · rw [Nat.max_eq_left hle] at hs
              exact .inl (Option.some.inj hs).symm
          · exact .inl (Option.some.inj hs).symm
          · cases hs
          · exact .inl (Option.some.inj hs).symm
      · exact .inr ⟨t, List.mem_cons_of_mem _ ht, hsaid⟩

/-- The values around an assignment. -/
lemma Faithful.around (h : Faithful d bytes_total) {before after : List Step} {s : Step}
    (hsplit : steps d.chunks = before ++ s :: after) : ∃ m k, before.foldlM (step bytes_total) 0 = some m ∧
      step bytes_total m s = some k ∧ cap bytes_total m ≤ cap bytes_total k ∧
      cap bytes_total k ≤ cap bytes_total d.output.last := by
  have hends := h.ends
  rw [foldlM_onStdout, hsplit, List.foldlM_append] at hends
  cases hm : before.foldlM (step bytes_total) 0 with
  | none =>
    rw [hm] at hends
    cases hends
  | some m =>
    rw [hm] at hends
    have hends : (s :: after).foldlM (step bytes_total) m = some (cap bytes_total d.output.last) := hends
    rw [List.foldlM_cons] at hends
    cases hk : step bytes_total m s with
    | none =>
      rw [hk] at hends
      cases hends
    | some k =>
      rw [hk] at hends
      refine ⟨m, k, rfl, hk, h.monotone before s after hsplit m k hm hk, ?_⟩
      have hbefore : (before ++ [s]).foldlM (step bytes_total) 0 = some k := by
        rw [List.foldlM_append, hm]
        show step bytes_total m s >>= pure = some k
        rw [bind_pure, hk]
      have hsplit' : steps d.chunks = (before ++ [s]) ++ (after ++ []) := by
        rw [hsplit, List.append_assoc, List.singleton_append, List.append_nil]
      have hle := h.run_le hsplit' hbefore hends
      rwa [cap_cap] at hle

lemma percentAt_nonneg {value : ℚ} (h : percentAt t = some value) : 0 ≤ value := by
  unfold percentAt at h
  dsimp only at h
  split at h
  · cases h
  · split at h
    · rw [← Option.some.inj h]
      exact Nat.cast_nonneg _
    · split at h
      · rw [← Option.some.inj h]
        positivity
      · cases h
    · cases h

lemma percent_nonneg {value : ℚ} (h : reading t = .percent value) : 0 ≤ value := by
  unfold reading at h
  split at h
  · split at h
    · cases h
    · cases h
  · split at h
    · rename_i v hv
      obtain ⟨u, -, hu⟩ := List.exists_of_findSome?_eq_some hv
      rw [← Reading.percent.inj h]
      exact percentAt_nonneg hu
    · cases h

lemma cutsApart_of_faithful (h : ∀ bytes_total, Faithful d bytes_total) : CutsApart d := by
  constructor
  · have hends := (h none).ends
    rw [foldlM_onStdout] at hends
    rcases run_none hends with hzero | ⟨s, hs, hsaid⟩
    · exact .inl hzero
    · exact .inr (mem_readings.2 ⟨s, hs, hsaid⟩)
  · intro before value after hreadings
    rw [readings_eq, List.filterMap_eq_append_iff] at hreadings
    obtain ⟨pre, post, hsplit, hpre, hpost⟩ := hreadings
    rw [List.filterMap_eq_cons_iff] at hpost
    obtain ⟨mid, s, post, rfl, hmid, hsaid, -⟩ := hpost
    have hsplit' : steps d.chunks = (pre ++ mid) ++ s :: post := by rw [hsplit, List.append_assoc]
    obtain ⟨text, rfl, hr⟩ : ∃ text, s = .line text ∧ reading text = .percent value := by
      cases s with
      | line text => exact ⟨text, rfl, Option.some.inj hsaid⟩
      | capped => cases hsaid
    have hstep : ∀ total m k, 0 < total → step (some total) m (.line text) = some k → k = ⌊total * value / 100⌋₊ := by
      intro total m k htotal hk
      unfold step parseLine at hk
      dsimp only at hk
      rw [hr] at hk
      dsimp only at hk
      rw [if_pos htotal] at hk
      exact (Option.some.inj hk).symm
    have hcapped : ∀ total n, n ≤ total → cap (some total) n = n := fun total n hn => if_neg (Nat.not_lt.2 hn)
    have hlow : ∀ total m n, n ≤ m → n ≤ total → n ≤ cap (some total) m := by
      intro total m n hm htotal
      rw [← hcapped total n htotal]
      exact cap_le_cap hm
    have hzero : value = 0 := by
      by_contra hne
      have hpos : 0 < value := lt_of_le_of_ne (percent_nonneg hr) (Ne.symm hne)
      -- a total of which the percentage is above the last counter
      obtain ⟨total, htotal⟩ := exists_nat_ge (max (100 * (d.output.last + 1) / value) (d.output.last + 1) : ℚ)
      have hlast : d.output.last + 1 ≤ total := by exact_mod_cast (le_max_right _ _).trans htotal
      have hshare : (d.output.last + 1 : ℚ) ≤ total * value / 100 := by
        have hdiv := (div_le_iff₀ hpos).1 ((le_max_left _ _).trans htotal)
        linarith
      obtain ⟨m, k, -, hk, -, hle⟩ := (h (some total)).around hsplit'
      have hfloor : d.output.last + 1 ≤ k := by
        rw [hstep total m k (by omega) hk]
        exact Nat.le_floor (by exact_mod_cast hshare)
      rw [hcapped total d.output.last (Nat.le_of_succ_le hlast)] at hle
      exact Nat.not_succ_le_self _ ((hlow total k _ hfloor hlast).trans hle)
    refine ⟨hzero, fun bytes hbytes => ?_⟩
    rw [← hpre] at hbytes
    obtain ⟨s₀, hs₀, hsaid₀⟩ := List.mem_filterMap.1 hbytes
    obtain ⟨a, b, rfl⟩ := List.append_of_mem hs₀
    by_contra hne
    -- the bar shows something, and then nothing
    have hfaithful := h (some (d.output.last + 1))
    have hsplit₀ : steps d.chunks = a ++ s₀ :: (b ++ mid ++ .line text :: post) := by
      rw [hsplit', List.append_assoc, List.append_assoc, List.append_assoc]
      rfl
    obtain ⟨m₀, k₀, hm₀, hk₀, -, -⟩ := hfaithful.around hsplit₀
    obtain ⟨m, k, hm, hk, hback, -⟩ := hfaithful.around hsplit'
    have hrun : (b ++ mid).foldlM (step (some (d.output.last + 1))) k₀ = some m := by
      rw [List.append_assoc, List.foldlM_append, hm₀] at hm
      have hm : (s₀ :: b ++ mid).foldlM (step (some (d.output.last + 1))) m₀ = some m := hm
      rw [List.cons_append, List.foldlM_cons, hk₀] at hm
      exact hm
    have hbefore : (a ++ [s₀]).foldlM (step (some (d.output.last + 1))) 0 = some k₀ := by
      rw [List.foldlM_append, hm₀]
      show step (some (d.output.last + 1)) m₀ s₀ >>= pure = some k₀
      rw [bind_pure, hk₀]
    have hsplit₁ : steps d.chunks = (a ++ [s₀]) ++ (b ++ mid ++ .line text :: post) := by
      rw [hsplit₀, List.append_assoc a, List.singleton_append]
    have hup := hfaithful.run_le hsplit₁ hbefore hrun
    have hshown : 1 ≤ k₀ := by
      cases s₀ with
      | capped => cases hsaid₀
      | line text₀ =>
        have hr₀ : reading text₀ = .counter bytes := Option.some.inj hsaid₀
        unfold step parseLine at hk₀
        dsimp only at hk₀
        rw [hr₀] at hk₀
        have hk₀ : max m₀ bytes = k₀ := Option.some.inj hk₀
        omega
    have hnothing : k = 0 := by
      rw [hstep _ m k (Nat.succ_pos _) hk, hzero, mul_zero, zero_div, Nat.floor_zero]
    rw [hnothing, cap_zero] at hback
    have hone := hlow (d.output.last + 1) k₀ 1 hshown (Nat.le_add_left 1 _)
    omega

/-- The bar is right for every total exactly when the chunks are cut apart from the counters. -/
theorem faithful_iff (d : Delivery) : (∀ bytes_total, Faithful d bytes_total) ↔ CutsApart d :=
  ⟨cutsApart_of_faithful, faithful_of_cutsApart⟩

/-- A line of progress, with what it counts and its percentage. -/
def sampleLine (counter percent : Text) (hcounter : counter.all isGrouped = true)
    (hends : counter.getLast?.any isDigit = true) (hpercent : percent.all isDigit = true) : Line where
  lead := [' ', ' ']
  counter := counter
  gap := [' ', ' ']
  percent := percent
  rest := "  1.00MB/s".toList
  lead_blank := fun c hc => List.eq_of_mem_replicate (n := 2) hc
  counter_grouped := List.all_eq_true.1 hcounter
  counter_ends := hends
  gap_blank := fun c hc => List.eq_of_mem_replicate (n := 2) hc
  gap_ne := List.cons_ne_nil _ _
  percent_number := fun c hc => .inl (List.all_eq_true.1 hpercent c hc)
  rest_plain := by
    have hall : "  1.00MB/s".toList.all (fun c => c ≠ '%') = true := by decide +kernel
    exact fun c hc => of_decide_eq_true (List.all_eq_true.1 hall c hc)

/-- Two lines, of which a chunk ends in the percentage of the second. -/
def cutDelivery : Delivery where
  output :=
    { start := []
      lines :=
        [(sampleLine "500".toList "5".toList (by decide +kernel) (by decide +kernel) (by decide +kernel), ['\r']),
          (sampleLine "1,000".toList "10".toList (by decide +kernel) (by decide +kernel) (by decide +kernel), [])]
      start_separates := fun c hc => absurd hc List.not_mem_nil
      separates := by
        intro l hl c hc
        rcases List.mem_cons.1 hl with rfl | hl
        · exact .inl (List.mem_singleton.1 hc)
        · rw [List.mem_singleton.1 hl] at hc
          exact absurd hc List.not_mem_nil
      apart := by
        intro l hl
        have hl : l ∈ [(_, ['\r'])] := hl
        rw [List.mem_singleton.1 hl]
        exact List.cons_ne_nil _ _
      ne := List.cons_ne_nil _ _
      sorted := by decide +kernel }
  chunks := ["  500  5%  1.00MB/s\r  1,000  1".toList, "0%  1.00MB/s".toList]
  whole := by decide +kernel

/-- The counter of the cut line is lost; with a total the bar goes from 500 back to 0. -/
theorem faithful_not :
    cutDelivery.chunks.foldlM (onStdout none) 0 = some 500 ∧ cutDelivery.output.last = 1000 ∧
    (cutDelivery.chunks.take 1).foldlM (onStdout (some 10000)) 0 = some 500 ∧
    cutDelivery.chunks.foldlM (onStdout (some 10000)) 0 = some 0 ∧
    ¬∀ bytes_total, Faithful cutDelivery bytes_total := by
  refine ⟨by decide +kernel, by decide +kernel, by decide +kernel, by decide +kernel, fun h => ?_⟩
  have hends := (h none).ends
  revert hends
  decide +kernel

end SshGpuConsole.Progress
