import SshGpuConsole.Lib.PyText

/-!
# Python lines

`splitlines` over any alphabet, from what the alphabet's line ends are: a `\r` that a `\n` follows does not
end the line. With its line ends kept the split is the text again (`flatten_keepLines`), a line appended
behind a line end is a line of its own (`keepLines_append`), and taking lines out leaves the other lines,
up to line ends that now meet (`filterMap_keepLines_flatten`). Behind it the whitespace `split` of `str` and
the ASCII coding of `bytes`.
-/

namespace PyLines
open Shell (Text)
open PyText

/-- The line ends of an alphabet. -/
structure Breaks (α : Type) where
  isBreak : α → Bool
  cr : α
  lf : α
  lf_break : isBreak lf = true
  cr_ne_lf : cr ≠ lf

namespace Breaks
variable {α β : Type} [DecidableEq α] (B : Breaks α)

/-- Whether a line ends with a character before the rest. -/
def ends (c : α) (rest : List α) : Bool := B.isBreak c && !(c = B.cr && rest.head? = some B.lf)

/-- `splitlines(keepends=True)`. -/
def keepLines : List α → List (List α)
  | [] => []
  | c :: rest =>
    if B.ends c rest then [c] :: keepLines rest
    else
      match keepLines rest with
      | [] => [[c]]
      | line :: lines => (c :: line) :: lines

/-- A line without its line end. -/
def chop (line : List α) : List α :=
  if line.getLast?.any B.isBreak then
    if line.getLast? = some B.lf && line.dropLast.getLast? = some B.cr then line.dropLast.dropLast
    else line.dropLast
  else line

/-- `splitlines()`. -/
def lines (t : List α) : List (List α) := (B.keepLines t).map B.chop

variable {B}

lemma ends_lf (rest : List α) : B.ends B.lf rest = true := by
  simp [ends, B.lf_break, B.cr_ne_lf.symm]

lemma keepLines_cons (c : α) (rest : List α) : B.keepLines (c :: rest) =
    if B.ends c rest then [c] :: B.keepLines rest
    else
      match B.keepLines rest with
      | [] => [[c]]
      | line :: lines => (c :: line) :: lines := rfl

lemma keepLines_ne_nil {t : List α} (h : t ≠ []) : B.keepLines t ≠ [] := by
  cases t with
  | nil => exact absurd rfl h
  | cons c rest =>
    rw [keepLines_cons]
    split
    · exact List.cons_ne_nil _ _
    · split <;> exact List.cons_ne_nil _ _

lemma keepLines_closes {c : α} {rest : List α} (h : B.ends c rest = true) :
    B.keepLines (c :: rest) = [c] :: B.keepLines rest := if_pos h

/-- A character that does not end the line is put before the next line. -/
lemma keepLines_opens {c : α} {rest line : List α} {lines : List (List α)} (h : B.ends c rest = false)
    (hk : B.keepLines rest = line :: lines) : B.keepLines (c :: rest) = (c :: line) :: lines := by
  rw [keepLines_cons, h, hk]
  rfl

/-- The lines with their ends are the text. -/
lemma flatten_keepLines (t : List α) : (B.keepLines t).flatten = t := by
  induction t with
  | nil => rfl
  | cons c rest ih =>
    rw [keepLines_cons]
    split
    · rw [List.flatten_cons, ih]
      rfl
    · cases hk : B.keepLines rest with
      | nil =>
        rw [hk] at ih
        rw [← ih]
        rfl
      | cons line lines =>
        rw [hk] at ih
        rw [← ih]
        rfl

/-- A text splits behind a part that is empty or ends with a line feed. -/
lemma keepLines_append {a : List α} (h : a = [] ∨ a.getLast? = some B.lf) (b : List α) :
    B.keepLines (a ++ b) = B.keepLines a ++ B.keepLines b := by
  induction a with
  | nil => rfl
  | cons c a ih =>
    have hlast : (c :: a).getLast? = some B.lf := h.resolve_left (List.cons_ne_nil _ _)
    cases a with
    | nil =>
      obtain rfl : c = B.lf := Option.some.inj hlast
      rw [List.singleton_append, keepLines_cons, ends_lf, keepLines_cons, ends_lf]
      rfl
    | cons d a =>
      have hrest := ih (.inr (by rwa [List.getLast?_cons_cons] at hlast))
      obtain ⟨l, ls, hl⟩ := List.exists_cons_of_ne_nil (keepLines_ne_nil (B := B) (List.cons_ne_nil d a))
      have he : B.ends c (d :: a ++ b) = B.ends c (d :: a) := rfl
      rw [List.cons_append]
      cases hc : B.ends c (d :: a) with
      | true => rw [keepLines_closes hc, keepLines_closes (he.trans hc), hrest, List.cons_append]
      | false =>
        rw [keepLines_opens hc hl, keepLines_opens (he.trans hc) (hrest.trans (by rw [hl, List.cons_append]))]
        rfl

/-- A text without line ends, and the line feed behind it, are one line. -/
lemma keepLines_line {t : List α} (h : ∀ c ∈ t, B.isBreak c = false) : B.keepLines (t ++ [B.lf]) = [t ++ [B.lf]] := by
  induction t with
  | nil => rw [List.nil_append, keepLines_cons, ends_lf]; rfl
  | cons c t ih =>
    have he : B.ends c (t ++ [B.lf]) = false := by rw [ends, h c List.mem_cons_self]; rfl
    rw [List.cons_append, keepLines_cons, he, ih fun d hd => h d (List.mem_cons_of_mem _ hd)]
    rfl

/-- A text without line ends is its only line. -/
lemma lines_plain {t : List α} (h : ∀ c ∈ t, B.isBreak c = false) (hne : t ≠ []) : B.lines t = [t] := by
  have hkeep : B.keepLines t = [t] := by
    induction t with
    | nil => exact absurd rfl hne
    | cons c t ih =>
      have he : B.ends c t = false := by rw [ends, h c List.mem_cons_self]; rfl
      cases t with
      | nil => rw [keepLines_cons, he]; rfl
      | cons d t => exact keepLines_opens he (ih (fun x hx => h x (List.mem_cons_of_mem _ hx)) (List.cons_ne_nil _ _))
  have hchop : B.chop t = t := by
    rw [chop, if_neg]
    rw [List.getLast?_eq_getLast_of_ne_nil hne, Option.any_some, h _ (List.getLast_mem hne)]
    exact Bool.false_ne_true
  rw [lines, hkeep, List.map_singleton, hchop]

/-- A text without line ends before a line feed is the first line. -/
lemma lines_cons {t : List α} (h : ∀ c ∈ t, B.isBreak c = false) (rest : List α) (hcr : B.isBreak B.cr = true) :
    B.lines (t ++ B.lf :: rest) = t :: B.lines rest := by
  have hchop : B.chop (t ++ [B.lf]) = t := by
    have hlast : t.getLast? ≠ some B.cr := by
      intro hl
      have := h _ (List.mem_of_getLast? hl)
      rw [hcr] at this
      cases this
    simp [chop, B.lf_break, hlast]
  rw [lines, ← List.singleton_append, ← List.append_assoc,
    keepLines_append (.inr (List.getLast?_concat ..)) rest, keepLines_line h, List.map_append, List.map_singleton,
    hchop]
  rfl

/-! ### Taking lines out -/

/-- One line. -/
def Line (B : Breaks α) (l : List α) : Prop := B.keepLines l = [l]

/-- A line that ends with a line end. -/
def Closed (B : Breaks α) (l : List α) : Prop := ∃ c, l.getLast? = some c ∧ B.isBreak c = true

/-- The parts of a split: single lines, all but the last of them closed. -/
structure Split (B : Breaks α) (ls : List (List α)) : Prop where
  line : ∀ l ∈ ls, B.Line l
  closed : ls.Pairwise fun l _ => B.Closed l

/-- A part of a longer line is a line. -/
lemma line_cons {c : α} {rest line : List α} {lines : List (List α)} (he : B.ends c rest = false)
    (hk : B.keepLines rest = line :: lines) (hl : B.Line line) : B.Line (c :: line) := by
  have hrest : line ++ lines.flatten = rest := by
    have h := flatten_keepLines (B := B) rest
    rwa [hk] at h
  have hne : line ≠ [] := by
    rintro rfl
    cases hl
  have hhead : line.head? = rest.head? := by
    obtain ⟨d, line, rfl⟩ := List.exists_cons_of_ne_nil hne
    rw [← hrest]
    rfl
  have he' : B.ends c line = false := by rwa [ends, hhead]
  rw [Line, keepLines_cons, he', hl]
  rfl

omit [DecidableEq α] in
lemma closed_cons {c : α} {line : List α} (h : B.Closed line) : B.Closed (c :: line) := by
  obtain ⟨d, hd, hb⟩ := h
  cases line with
  | nil => cases hd
  | cons e line => exact ⟨d, by rwa [List.getLast?_cons_cons], hb⟩

/-- What `keepLines` returns is a split. -/
lemma split_keepLines (t : List α) : B.Split (B.keepLines t) := by
  induction t with
  | nil => exact ⟨fun l hl => absurd hl List.not_mem_nil, List.Pairwise.nil⟩
  | cons c rest ih =>
    rw [keepLines_cons]
    split
    · rename_i he
      have hb : B.isBreak c = true := (Bool.and_eq_true _ _ ▸ he).1
      have hc : B.Line [c] := by
        rw [Line, keepLines_cons]
        split <;> rfl
      refine ⟨fun l hl => ?_, List.Pairwise.cons (fun _ _ => ⟨c, rfl, hb⟩) ih.closed⟩
      rcases List.mem_cons.1 hl with rfl | hl
      · exact hc
      · exact ih.line l hl
    · rename_i he
      have he : B.ends c rest = false := Bool.eq_false_iff.2 he
      cases hk : B.keepLines rest with
      | nil =>
        have hc : B.Line [c] := by
          rw [Line, keepLines_cons]
          split <;> rfl
        exact ⟨fun l hl => by rwa [List.mem_singleton.1 hl], List.pairwise_singleton _ _⟩
      | cons line lines =>
        rw [hk] at ih
        have hp := List.pairwise_cons.1 ih.closed
        refine ⟨fun l hl => ?_, List.Pairwise.cons (fun l hl => closed_cons (hp.1 l hl)) hp.2⟩
        rcases List.mem_cons.1 hl with rfl | hl
        · exact line_cons he hk (ih.line line List.mem_cons_self)
        · exact ih.line l (List.mem_cons_of_mem _ hl)

/-- Part of a split is a split. -/
lemma Split.sublist {ls ls' : List (List α)} (h : B.Split ls) (hs : ls'.Sublist ls) : B.Split ls' :=
  ⟨fun l hl => h.line l (hs.subset hl), h.closed.sublist hs⟩

/-- A closed line stays a line before any text, or takes a line feed the text starts with. -/
lemma keepLines_closed {l : List α} (hl : B.Line l) (hc : B.Closed l) (rest : List α) :
    B.keepLines (l ++ rest) = l :: B.keepLines rest ∨
      ∃ rest', rest = B.lf :: rest' ∧ B.keepLines (l ++ rest) = (l ++ [B.lf]) :: B.keepLines rest' := by
  induction l with
  | nil => cases hl
  | cons c l ih =>
    cases l with
    | nil =>
      obtain ⟨d, hd, hb⟩ := hc
      obtain rfl := Option.some.inj hd
      rw [List.singleton_append, keepLines_cons]
      by_cases he : B.ends c rest = true
      · exact .inl (keepLines_closes he)
      · -- a `\r` before a line feed
        have hlf : rest.head? = some B.lf := by
          have hb' : B.isBreak c = true := hb
          have hcr : c = B.cr ∧ rest.head? = some B.lf := by simpa [ends, hb'] using he
          exact hcr.2
        obtain ⟨rest', rfl⟩ : ∃ rest', rest = B.lf :: rest' := by
          cases rest with
          | nil => cases hlf
          | cons e rest' => exact ⟨rest', by rw [Option.some.inj hlf]⟩
        right
        exact ⟨rest', rfl, keepLines_opens (Bool.eq_false_iff.2 he) (keepLines_closes (ends_lf rest'))⟩
    | cons d l =>
      have hopen : B.ends c (d :: l) = false := by
        refine Bool.eq_false_iff.2 fun he => ?_
        have h : [c] :: B.keepLines (d :: l) = [c :: d :: l] := (keepLines_closes he).symm.trans hl
        exact keepLines_ne_nil (List.cons_ne_nil d l) (List.cons.inj h).2
      have hline : B.Line (d :: l) := by
        obtain ⟨m, ms, hm⟩ := List.exists_cons_of_ne_nil (keepLines_ne_nil (B := B) (List.cons_ne_nil d l))
        have h : (c :: m) :: ms = [c :: d :: l] := (keepLines_opens hopen hm).symm.trans hl
        rw [Line, hm, (List.cons.inj (List.cons.inj h).1).2, (List.cons.inj h).2]
      have hclosed : B.Closed (d :: l) := by
        obtain ⟨e, he, hb⟩ := hc
        exact ⟨e, by rwa [List.getLast?_cons_cons] at he, hb⟩
      have he : B.ends c (d :: l ++ rest) = false := hopen
      rcases ih hline hclosed with h | ⟨rest', hr, h⟩
      · exact .inl (keepLines_opens he h)
      · exact .inr ⟨rest', hr, keepLines_opens he h⟩

/-- What is read off the lines of a split is read off the lines of its text, when a line feed more or less
does not matter. -/
lemma filterMap_keepLines_flatten {f : List α → Option β} (hblank : f [B.lf] = none)
    (hlf : ∀ l, f (l ++ [B.lf]) = f l) {ls : List (List α)} (h : B.Split ls) :
    (B.keepLines ls.flatten).filterMap f = ls.filterMap f := by
  induction ls with
  | nil => rfl
  | cons l ls ih =>
    have hp := List.pairwise_cons.1 h.closed
    have hls : B.Split ls := h.sublist (List.sublist_cons_self l ls)
    have ih := ih hls
    have hl := h.line l List.mem_cons_self
    cases ls with
    | nil =>
      have hk : B.keepLines [l].flatten = [l] := by
        rw [List.flatten_cons, List.flatten_nil, List.append_nil]
        exact hl
      rw [hk]
    | cons m ms =>
      have hc := hp.1 m List.mem_cons_self
      rw [List.flatten_cons]
      rcases keepLines_closed hl hc (m :: ms).flatten with hk | ⟨rest', hr, hk⟩
      · rw [hk, List.filterMap_cons, ih, ← List.filterMap_cons]
      · -- the line takes the line feed, which was a blank line
        have hrest : B.keepLines (m :: ms).flatten = [B.lf] :: B.keepLines rest' := by
          rw [hr, keepLines_cons, ends_lf]
          rfl
        rw [hrest, List.filterMap_cons_none hblank] at ih
        rw [hk, List.filterMap_cons, hlf, ih, ← List.filterMap_cons]

/-- A line feed at the end goes to the last line, or makes a blank one. -/
lemma keepLines_lf {t : List α} (h : t ≠ []) :
    ∃ ls l, B.keepLines t = ls ++ [l] ∧
      (B.keepLines (t ++ [B.lf]) = ls ++ [l ++ [B.lf]] ∨ B.keepLines (t ++ [B.lf]) = ls ++ [l, [B.lf]]) := by
  induction t with
  | nil => exact absurd rfl h
  | cons c t ih =>
    cases t with
    | nil =>
      have hone : B.keepLines [c] = [[c]] := by
        rw [keepLines_cons]
        split <;> rfl
      refine ⟨[], [c], hone, ?_⟩
      cases he : B.ends c [B.lf] with
      | true => exact .inr ((keepLines_closes he).trans (by rw [keepLines_closes (ends_lf [])]; rfl))
      | false => exact .inl (keepLines_opens he (keepLines_closes (ends_lf [])))
    | cons d t =>
      obtain ⟨ls, l, hk, hlf⟩ := ih (List.cons_ne_nil d t)
      have he : B.ends c (d :: t ++ [B.lf]) = B.ends c (d :: t) := rfl
      cases hc : B.ends c (d :: t) with
      | true =>
        refine ⟨[c] :: ls, l, by rw [keepLines_closes hc, hk]; rfl, ?_⟩
        rw [List.cons_append, keepLines_closes (he.trans hc)]
        exact hlf.imp (fun h => by rw [h]; rfl) fun h => by rw [h]; rfl
      | false =>
        rw [List.cons_append]
        cases ls with
        | nil =>
          exact ⟨[], c :: l, keepLines_opens hc hk, hlf.imp (fun h => keepLines_opens (he.trans hc) h)
            fun h => keepLines_opens (he.trans hc) h⟩
        | cons m ms =>
          exact ⟨(c :: m) :: ms, l, keepLines_opens hc hk, hlf.imp (fun h => keepLines_opens (he.trans hc) h)
            fun h => keepLines_opens (he.trans hc) h⟩

/-- The other line end is a carriage return. -/
def OnlyLfCr (B : Breaks α) : Prop := ∀ c, B.isBreak c = true ↔ c = B.lf ∨ c = B.cr

/-- A line feed behind a text that has none at its end goes to the last line. -/
lemma keepLines_missing_lf (hB : B.OnlyLfCr) {t : List α} (hne : t ≠ []) (hlast : t.getLast? ≠ some B.lf) :
    ∃ ls l, B.keepLines t = ls ++ [l] ∧ B.keepLines (t ++ [B.lf]) = ls ++ [l ++ [B.lf]] := by
  induction t with
  | nil => exact absurd rfl hne
  | cons c t ih =>
    cases t with
    | nil =>
      have hone : B.keepLines [c] = [[c]] := by
        rw [keepLines_cons]
        split <;> rfl
      have hopen : B.ends c [B.lf] = false := by
        refine Bool.eq_false_iff.2 fun he => ?_
        rw [ends, Bool.and_eq_true] at he
        have hcr : c = B.cr := ((hB c).1 he.1).resolve_left fun e => hlast (by rw [e]; rfl)
        rw [hcr] at he
        simp at he
      exact ⟨[], [c], hone, keepLines_opens hopen (keepLines_closes (ends_lf []))⟩
    | cons d t =>
      rw [List.getLast?_cons_cons] at hlast
      obtain ⟨ls, l, hk, hlf⟩ := ih (List.cons_ne_nil d t) hlast
      have he : B.ends c (d :: t ++ [B.lf]) = B.ends c (d :: t) := rfl
      rw [List.cons_append]
      cases hc : B.ends c (d :: t) with
      | true =>
        refine ⟨[c] :: ls, l, by rw [keepLines_closes hc, hk]; rfl, ?_⟩
        rw [keepLines_closes (he.trans hc), hlf]
        rfl
      | false =>
        cases ls with
        | nil => exact ⟨[], c :: l, keepLines_opens hc hk, keepLines_opens (he.trans hc) hlf⟩
        | cons m ms => exact ⟨(c :: m) :: ms, l, keepLines_opens hc hk, keepLines_opens (he.trans hc) hlf⟩

/-- The line end that was missing is no part of the line. -/
lemma chop_missing_lf (hB : B.OnlyLfCr) {l : List α} (hlast : l.getLast? ≠ some B.lf) :
    B.chop (l ++ [B.lf]) = B.chop l := by
  have hlf : (l ++ [B.lf]).getLast? = some B.lf := List.getLast?_concat
  have hadded : B.chop (l ++ [B.lf]) = if l.getLast? = some B.cr then l.dropLast else l := by
    rw [chop, hlf, if_pos (show (some B.lf).any B.isBreak = true from B.lf_break), List.dropLast_concat]
    simp
  rw [hadded, chop]
  cases hl : l.getLast? with
  | none => rfl
  | some c =>
    rw [hl] at hlast
    by_cases hcr : c = B.cr
    · have hbreak : B.isBreak c = true := (hB c).2 (.inr hcr)
      simp [hcr ▸ hbreak, hcr, B.cr_ne_lf]
    · have hbreak : B.isBreak c = false :=
        Bool.eq_false_iff.2 fun hb => ((hB c).1 hb).elim (fun e => hlast (congrArg some e)) hcr
      simp [hbreak, hcr]

/-- A final line end that was missing changes no line. -/
lemma lines_missing_lf (hB : B.OnlyLfCr) {t : List α} (hne : t ≠ []) (hlast : t.getLast? ≠ some B.lf) :
    B.lines (t ++ [B.lf]) = B.lines t := by
  obtain ⟨ls, l, hk, hlf⟩ := keepLines_missing_lf hB hne hlast
  have hline : l ≠ [] := by
    rintro rfl
    have h := (split_keepLines (B := B) t).line [] (hk ▸ List.mem_append_right ls (List.mem_singleton_self []))
    cases h
  have hl : l.getLast? ≠ some B.lf := by
    have ht : ls.flatten ++ l = t := by
      have h := flatten_keepLines (B := B) t
      rwa [hk, List.flatten_append, List.flatten_singleton] at h
    rwa [← ht, List.getLast?_append_of_ne_nil _ hline] at hlast
  rw [lines, lines, hlf, hk, List.map_append, List.map_append, List.map_singleton, List.map_singleton,
    chop_missing_lf hB hl]

/-- A line feed at the end does not change what is read off the lines. -/
lemma filterMap_keepLines_lf {f : List α → Option β} (hblank : f [B.lf] = none)
    (hlf : ∀ l, f (l ++ [B.lf]) = f l) (t : List α) :
    (B.keepLines (t ++ [B.lf])).filterMap f = (B.keepLines t).filterMap f := by
  cases t with
  | nil =>
    rw [List.nil_append, keepLines_closes (ends_lf [])]
    exact List.filterMap_cons_none hblank
  | cons c t =>
    obtain ⟨ls, l, hk, h | h⟩ := keepLines_lf (B := B) (List.cons_ne_nil c t)
    · rw [h, hk, List.filterMap_append, List.filterMap_append, List.filterMap_cons, hlf]
      rfl
    · rw [h, hk, List.filterMap_append, List.filterMap_append]
      congr 1
      rw [List.filterMap_cons, List.filterMap_cons_none hblank, List.filterMap_cons]

/-- What `chop` takes off a line is line ends. -/
lemma chop_append (l : List α) : ∃ e, l = B.chop l ++ e ∧ ∀ c ∈ e, B.isBreak c = true ∨ c = B.cr := by
  rw [chop]
  split
  · rename_i hb
    have hne : l ≠ [] := by
      rintro rfl
      cases hb
    obtain ⟨c, hc⟩ : ∃ c, l.getLast? = some c := ⟨_, List.getLast?_eq_some_getLast hne⟩
    have hl := List.dropLast_append_getLast? c hc
    rw [hc] at hb
    split
    · rename_i hcr
      have hcr' : l.dropLast.getLast? = some B.cr := by
        rw [Bool.and_eq_true] at hcr
        exact of_decide_eq_true hcr.2
      have hl' := List.dropLast_append_getLast? B.cr hcr'
      refine ⟨[B.cr, c], ?_, fun x hx => ?_⟩
      · calc l = l.dropLast ++ [c] := hl.symm
          _ = l.dropLast.dropLast ++ [B.cr] ++ [c] := by rw [hl']
          _ = _ := by rw [List.append_assoc]; rfl
      · rcases List.mem_cons.1 hx with rfl | hx
        · exact .inr rfl
        · exact .inl (List.mem_singleton.1 hx ▸ hb)
    · exact ⟨[c], hl.symm, fun x hx => .inl (List.mem_singleton.1 hx ▸ hb)⟩
  · exact ⟨[], (List.append_nil l).symm, fun x hx => absurd hx List.not_mem_nil⟩

/-- A line is text without line ends and the line end behind it. -/
lemma line_form {l : List α} (h : B.Line l) : ∃ body, (∀ c ∈ body, B.isBreak c = false) ∧
    (l = body ∨ (∃ c, B.isBreak c = true ∧ l = body ++ [c]) ∨ l = body ++ [B.cr, B.lf]) := by
  induction l with
  | nil => cases h
  | cons c l ih =>
    have hbody : ∀ {body : List α}, (∀ d ∈ body, B.isBreak d = false) → B.isBreak c = false →
        ∀ d ∈ c :: body, B.isBreak d = false := by
      intro body hbody hc d hd
      rcases List.mem_cons.1 hd with rfl | hd
      · exact hc
      · exact hbody d hd
    cases l with
    | nil =>
      cases hc : B.isBreak c with
      | true => exact ⟨[], fun d hd => absurd hd List.not_mem_nil, .inr (.inl ⟨c, hc, rfl⟩)⟩
      | false => exact ⟨[c], hbody (fun d hd => absurd hd List.not_mem_nil) hc, .inl rfl⟩
    | cons d l =>
      have hopen : B.ends c (d :: l) = false := by
        refine Bool.eq_false_iff.2 fun he => ?_
        have hsplit : [c] :: B.keepLines (d :: l) = [c :: d :: l] := (keepLines_closes he).symm.trans h
        exact keepLines_ne_nil (List.cons_ne_nil d l) (List.cons.inj hsplit).2
      have hline : B.Line (d :: l) := by
        obtain ⟨m, ms, hm⟩ := List.exists_cons_of_ne_nil (keepLines_ne_nil (B := B) (List.cons_ne_nil d l))
        have hsplit : (c :: m) :: ms = [c :: d :: l] := (keepLines_opens hopen hm).symm.trans h
        rw [Line, hm, (List.cons.inj (List.cons.inj hsplit).1).2, (List.cons.inj hsplit).2]
      cases hc : B.isBreak c with
      | false =>
        obtain ⟨body, hplain, hform⟩ := ih hline
        refine ⟨c :: body, hbody hplain hc, ?_⟩
        rcases hform with hform | ⟨e, he, hform⟩ | hform
        · exact .inl (by rw [hform])
        · exact .inr (.inl ⟨e, he, by rw [hform]; rfl⟩)
        · exact .inr (.inr (by rw [hform]; rfl))
      | true =>
        -- a `\r` before a line feed, which is the last character
        have hcr : c = B.cr ∧ d = B.lf := by simpa [ends, hc] using hopen
        have hsplit : [d] :: B.keepLines l = [d :: l] := by
          rw [Line, hcr.2, keepLines_closes (ends_lf l), ← hcr.2] at hline
          exact hline
        have hnil : l = [] := (List.cons.inj (List.cons.inj hsplit).1).2.symm
        refine ⟨[], fun e he => absurd he List.not_mem_nil, .inr (.inr ?_)⟩
        rw [hcr.1, hcr.2, hnil]
        rfl

omit [DecidableEq α] in
lemma not_break_of_last {body : List α} (h : ∀ c ∈ body, B.isBreak c = false) :
    body.getLast?.any B.isBreak = false := by
  cases hc : body.getLast? with
  | none => rfl
  | some c => exact h c (List.mem_of_getLast? hc)

/-- What `splitlines` returns has no line ends. -/
lemma chop_plain {l : List α} (h : B.Line l) : ∀ c ∈ B.chop l, B.isBreak c = false := by
  obtain ⟨body, hplain, hform⟩ := line_form h
  have hdrop : ∀ c ∈ body.dropLast, B.isBreak c = false := fun c hc => hplain c (List.mem_of_mem_dropLast hc)
  rcases hform with rfl | ⟨e, he, rfl⟩ | rfl
  · rw [chop, not_break_of_last hplain]
    exact hplain
  · rw [chop, List.getLast?_concat, List.dropLast_concat]
    split
    · split
      · exact hdrop
      · exact hplain
    · rename_i hnot
      exact absurd he hnot
  · have hsplit : body ++ [B.cr, B.lf] = (body ++ [B.cr]) ++ [B.lf] := by
      rw [List.append_assoc]
      rfl
    rw [hsplit, chop, List.getLast?_concat, List.dropLast_concat, List.getLast?_concat, List.dropLast_concat]
    split
    · split
      · exact hplain
      · rename_i hnot
        exact absurd (by simp) hnot
    · rename_i hnot
      exact absurd B.lf_break hnot

/-- A line of a text is a piece of it without line ends. -/
lemma mem_lines {t l : List α} (h : l ∈ B.lines t) : l <:+: t ∧ ∀ c ∈ l, B.isBreak c = false := by
  obtain ⟨line, hline, rfl⟩ := List.mem_map.1 h
  refine ⟨?_, chop_plain ((split_keepLines t).line line hline)⟩
  have hwithin : line <:+: t := by
    have hflat := List.infix_of_mem_flatten hline
    rwa [flatten_keepLines] at hflat
  obtain ⟨e, he, -⟩ := chop_append (B := B) line
  exact List.IsInfix.trans ⟨[], e, he.symm⟩ hwithin

end Breaks

/-! ### Bytes and characters -/

/-- The line ends of `bytes.splitlines`. -/
def byteBreaks : Breaks UInt8 where
  isBreak b := b = 10 || b = 13
  cr := 13
  lf := 10
  lf_break := rfl
  cr_ne_lf := by decide

lemma byteBreaks_onlyLfCr : byteBreaks.OnlyLfCr := by
  intro c
  rw [byteBreaks, Bool.or_eq_true, decide_eq_true_iff, decide_eq_true_iff]

/-- The line ends of `str.splitlines`. -/
def charBreaks : Breaks Char where
  isBreak c :=
    let n := c.toNat
    (10 ≤ n && n ≤ 13) || (28 ≤ n && n ≤ 30) || n = 0x85 || n = 0x2028 || n = 0x2029
  cr := '\r'
  lf := '\n'
  lf_break := rfl
  cr_ne_lf := by decide

/-- `bytes.strip()`. -/
def stripBytes (b : List UInt8) : List UInt8 :=
  let space : UInt8 → Bool := fun x => (9 ≤ x && x ≤ 13) || x = 32
  ((b.dropWhile space).reverse.dropWhile space).reverse

/-- `b.decode("ascii")`; none when it raises. -/
def decodeAscii (b : List UInt8) : Option Text :=
  if b.all (· < 128) then some (b.map fun x => Char.ofNat x.toNat) else none

/-- `s.encode("ascii")`; none when it raises. -/
def encodeAscii (t : Text) : Option (List UInt8) :=
  if t.all fun c => c.toNat < 128 then some (t.map fun c => UInt8.ofNat c.toNat) else none

/-- `str.split()`: the runs without white space. -/
def split (t : Text) : List Text := (t.splitOnP isSpace).filter (· ≠ [])

lemma decodeAscii_encodeAscii {t : Text} {b : List UInt8} (h : encodeAscii t = some b) :
    decodeAscii b = some t := by
  rw [encodeAscii] at h
  split at h
  · rename_i hall
    obtain rfl := Option.some.inj h
    have hc : ∀ c ∈ t, c.toNat < 128 := by simpa using hall
    have hlt : (t.map fun c => UInt8.ofNat c.toNat).all (· < 128) = true := by
      simp only [List.all_map, List.all_eq_true, Function.comp_apply, decide_eq_true_eq]
      intro c hm
      have := hc c hm
      rw [UInt8.lt_iff_toNat_lt, UInt8.toNat_ofNat']
      change c.toNat % 256 < 128
      omega
    rw [decodeAscii, if_pos hlt, List.map_map]
    refine congrArg some ?_
    have hid : ∀ c ∈ t, ((fun x : UInt8 => Char.ofNat x.toNat) ∘ fun c : Char => UInt8.ofNat c.toNat) c = id c := by
      intro c hm
      have := hc c hm
      have hn : (UInt8.ofNat c.toNat).toNat = c.toNat := by
        rw [UInt8.toNat_ofNat']
        change c.toNat % 256 = c.toNat
        omega
      rw [Function.comp_apply, hn, Char.ofNat_toNat, id]
    rw [List.map_congr_left hid, List.map_id]
  · cases h

/-- White space divides the fields. -/
lemma split_append (a b : Text) {c : Char} (h : isSpace c = true) : split (a ++ c :: b) = split a ++ split b := by
  rw [split, List.splitOnP_append_cons _ _ h, List.filter_append]
  rfl

/-- A text without white space is one field. -/
lemma split_word {t : Text} (h : ∀ c ∈ t, isSpace c = false) (hne : t ≠ []) : split t = [t] := by
  rw [split, List.splitOnP_eq_singleton h]
  simp [hne]

/-- A line end is stripped. -/
lemma stripBytes_break (l : List UInt8) {b : UInt8} (hb : b = 10 ∨ b = 13) : stripBytes (l ++ [b]) = stripBytes l := by
  have hdrop : ∀ t, (b :: t).dropWhile (fun x => decide (9 ≤ x) && decide (x ≤ 13) || decide (x = 32)) =
      t.dropWhile fun x => decide (9 ≤ x) && decide (x ≤ 13) || decide (x = 32) := by
    rcases hb with rfl | rfl <;> exact fun t => rfl
  simp only [stripBytes, List.dropWhile_append]
  split
  · rename_i h
    rw [List.isEmpty_iff] at h
    rw [h, hdrop]
    rfl
  · rw [List.reverse_append, List.reverse_singleton, List.singleton_append, hdrop]

lemma stripBytes_breaks (l : List UInt8) {e : List UInt8} (he : ∀ b ∈ e, b = 10 ∨ b = 13) :
    stripBytes (l ++ e) = stripBytes l := by
  induction e using List.reverseRecOn with
  | nil => rw [List.append_nil]
  | append_singleton e b ih =>
    rw [← List.append_assoc, stripBytes_break _ (he b (List.mem_append_right _ (List.mem_singleton_self b))),
      ih fun x hx => he x (List.mem_append_left _ hx)]

lemma stripBytes_chop (l : List UInt8) : stripBytes (byteBreaks.chop l) = stripBytes l := by
  obtain ⟨e, hl, he⟩ := byteBreaks.chop_append l
  conv_rhs => rw [hl]
  refine (stripBytes_breaks _ fun b hb => ?_).symm
  rcases he b hb with h | h
  · simpa [byteBreaks] using h
  · exact .inr h

/-- A byte that `bytes.strip` takes off. -/
def spaceByte (x : UInt8) : Bool := (9 ≤ x && x ≤ 13) || x = 32

/-- What starts and ends with something else than white space is kept whole. -/
lemma stripBytes_id {a b : UInt8} {m : List UInt8} (ha : spaceByte a = false) (hb : spaceByte b = false) :
    stripBytes (a :: m ++ [b]) = a :: m ++ [b] := by
  show (((a :: m ++ [b]).dropWhile spaceByte).reverse.dropWhile spaceByte).reverse = _
  rw [List.cons_append, List.dropWhile_cons_of_neg (by rw [ha]; exact Bool.false_ne_true),
    ← List.cons_append, List.reverse_append, List.reverse_singleton, List.singleton_append,
    List.dropWhile_cons_of_neg (by rw [hb]; exact Bool.false_ne_true)]
  simp

end PyLines
