import Mathlib

/-!
# First-come-first-served permits

A semaphore whose waiters are served in the order of their arrival, as one list: those that came first have
the permits, the others wait. A task that has been handed a permit counts as having it before it resumes; a
task leaves the list when it releases its permit or stops waiting. A lock is such a list with one permit.
-/

namespace Fifo
variable {ι : Type}

/-- The task has one of `n` permits. -/
def Granted (n : ℕ) (q : List ι) (i : ι) : Prop := i ∈ q.take n

instance [DecidableEq ι] (n : ℕ) (q : List ι) (i : ι) : Decidable (Granted n q i) :=
  inferInstanceAs (Decidable (i ∈ q.take n))

variable {n : ℕ} {q : List ι} {i j : ι}

lemma Granted.mem (h : Granted n q i) : i ∈ q := List.mem_of_mem_take h

lemma Granted.ne_zero (h : Granted n q i) : n ≠ 0 := by
  rintro rfl
  exact absurd h List.not_mem_nil

/-- A newcomer takes nothing from those that are there. -/
lemma Granted.append (h : Granted n q i) (r : List ι) : Granted n (q ++ r) i := by
  rw [Granted, List.take_append]
  exact List.mem_append_left _ h

/-- Who leaves takes nothing from those that stay. -/
lemma Granted.filter (h : Granted n q i) {p : ι → Bool} (hp : p i = true) : Granted n (q.filter p) i := by
  have hsplit : q.filter p = (q.take n).filter p ++ (q.drop n).filter p := by
    rw [← List.filter_append, List.take_append_drop]
  rw [Granted, hsplit, List.take_append]
  apply List.mem_append_left
  rw [List.take_of_length_le]
  · exact List.mem_filter.2 ⟨h, hp⟩
  · exact (List.length_filter_le _ _).trans (List.length_take_le n q)

/-- No more than `n` tasks have a permit. -/
lemma length_le_of_granted {l : List ι} (hl : l.Nodup) (h : ∀ i ∈ l, Granted n q i) : l.length ≤ n :=
  (hl.subperm h).length_le.trans (List.length_take_le n q)

/-- Who waits, waits because the permits are taken. -/
lemma length_take_of_waiting (h : i ∈ q) (hw : ¬Granted n q i) : (q.take n).length = n := by
  rw [List.length_take, min_eq_left]
  by_contra hlt
  exact hw (by rwa [Granted, List.take_of_length_le (not_le.1 hlt).le])

/-- When distinct tasks fill the permits, nobody else has one. -/
lemma Granted.mem_of_full {l : List ι} (hl : l.Nodup) (hlen : l.length = n) (h : ∀ i ∈ l, Granted n q i)
    (hi : Granted n q i) : i ∈ l := by
  have hsub := hl.subperm h
  have hperm := hsub.perm_of_length_le (by rw [hlen]; exact List.length_take_le n q)
  exact hperm.mem_iff.2 hi

/-- One permit has one owner. -/
lemma Granted.unique (hi : Granted 1 q i) (hj : Granted 1 q j) : i = j := by
  cases q with
  | nil => exact absurd hi List.not_mem_nil
  | cons k ks =>
    simp only [Granted, List.take_succ_cons, List.take_zero, List.mem_singleton] at hi hj
    rw [hi, hj]

end Fifo
