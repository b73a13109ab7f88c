import SshGpuConsole.Lib.PyText

/-!
# Separators in Python texts

`str.rpartition` with one character, and `str.replace`, on character lists; and texts that they leave alone.
-/

namespace PyText
open Shell (Text)

/-- `t.rpartition(c)` when the separator is there: what is before the last one, and what is behind it. -/
def rpartition (c : Char) : Text → Option (Text × Text)
  | [] => none
  | d :: t =>
    match rpartition c t with
    | some (before, after) => some (d :: before, after)
    | none => if d = c then some ([], t) else none

lemma rpartition_none {c : Char} {t : Text} : rpartition c t = none ↔ c ∉ t := by
  induction t with
  | nil => simp [rpartition]
  | cons d t ih =>
    rw [rpartition, List.mem_cons, not_or, ← ih]
    cases rpartition c t with
    | some x => simp
    | none =>
      constructor
      · intro h
        refine ⟨fun e => ?_, rfl⟩
        rw [if_pos e.symm] at h
        cases h
      · intro h
        exact if_neg fun e => h.1 e.symm

lemma rpartition_append {c : Char} (a : Text) {b : Text} (h : c ∉ b) : rpartition c (a ++ c :: b) = some (a, b) := by
  induction a with
  | nil => rw [List.nil_append, rpartition, rpartition_none.2 h, if_pos rfl]
  | cons d a ih => rw [List.cons_append, rpartition, ih]

lemma rpartition_some {c : Char} {t a b : Text} (h : rpartition c t = some (a, b)) : t = a ++ c :: b ∧ c ∉ b := by
  induction t generalizing a with
  | nil => cases h
  | cons d t ih =>
    rw [rpartition] at h
    cases ht : rpartition c t with
    | some x =>
      rw [ht] at h
      cases h
      obtain ⟨heq, hb⟩ := ih (show _ = some (x.1, x.2) from ht)
      exact ⟨congrArg (d :: ·) heq, hb⟩
    | none =>
      rw [ht] at h
      dsimp only at h
      split at h
      · rename_i hd
        cases h
        rw [hd]
        exact ⟨rfl, rpartition_none.1 ht⟩
      · cases h

/-- The loop of `str.replace`: so many characters belong to what was replaced last. -/
def replaceFrom (old new : Text) : ℕ → Text → Text
  | _, [] => []
  | skip + 1, _ :: t => replaceFrom old new skip t
  | 0, c :: t =>
    if old.isPrefixOf (c :: t) then new ++ replaceFrom old new (old.length - 1) t
    else c :: replaceFrom old new 0 t

/-- `t.replace(old, new)` -/
def replace (old new t : Text) : Text := replaceFrom old new 0 t

/-- Nothing is replaced in a text without the first character of what would be. -/
lemma replace_of_notMem {c : Char} {old new t : Text} (h : c ∉ t) : replace (c :: old) new t = t := by
  unfold replace
  induction t with
  | nil => rfl
  | cons d t ih =>
    rw [List.mem_cons, not_or] at h
    have hpre : ¬(c :: old).isPrefixOf (d :: t) = true := by
      rw [List.isPrefixOf_iff_prefix, List.cons_prefix_cons]
      exact fun hp => h.1 hp.1
    rw [replaceFrom, if_neg hpre, ih h.2]

lemma strip_unspaced {t : Text} (h : ∀ c ∈ t, isSpace c = false) : strip t = t := by
  have hdrop : ∀ {u : Text}, (∀ c ∈ u, isSpace c = false) → u.dropWhile isSpace = u := by
    intro u hu
    refine List.dropWhile_eq_self_iff.2 fun _ hs => ?_
    rw [hu _ (List.getElem_mem _)] at hs
    cases hs
  unfold strip
  rw [hdrop h, hdrop fun c hc => h c (List.mem_reverse.1 hc), List.reverse_reverse]

end PyText
