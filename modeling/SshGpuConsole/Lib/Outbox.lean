import Mathlib

/-!
# Outboxes

A queue of a bounded size that makes room for the newest by dropping the oldest. An outbox remembers what was offered to
it and what was sent from it. What is sent comes in the order in which it was offered, and of what was offered the last
ones, as many as there is room for, are never dropped.
-/

structure Outbox (α : Type) (size : ℕ) where
  queue : List α
  sent : List α
  offered : List α
  positive : 0 < size
  bounded : queue.length ≤ size
  ordered : (sent ++ queue).Sublist offered
  newest : ∀ back, back <:+ offered → back.length ≤ size → back <:+ sent ++ queue

namespace Outbox
variable {α : Type} {size : ℕ}

def empty (h : 0 < size) : Outbox α size where
  queue := []
  sent := []
  offered := []
  positive := h
  bounded := Nat.zero_le size
  ordered := List.Sublist.refl []
  newest _ hback _ := hback

/-- Where the queue is full, its oldest makes room. -/
def room (queue : List α) (size : ℕ) : List α := if queue.length < size then queue else queue.tail

lemma room_length {queue : List α} (h : queue.length ≤ size) (hs : 0 < size) : (room queue size).length < size := by
  unfold room
  split
  · assumption
  · rw [List.length_tail]
    omega

lemma room_suffix (queue : List α) (size : ℕ) : room queue size <:+ queue := by
  unfold room
  split
  · exact List.suffix_rfl
  · exact List.tail_suffix queue

/-- To make room leaves what there is room for. -/
lemma suffix_room {queue sent back : List α} (hq : queue.length ≤ size) (h : back <:+ sent ++ queue)
    (hle : back.length + 1 ≤ size) : back <:+ sent ++ room queue size := by
  unfold room
  split
  · exact h
  · refine List.IsSuffix.trans ?_ (List.suffix_append sent queue.tail)
    refine List.suffix_of_suffix_length_le h ((List.tail_suffix queue).trans (List.suffix_append sent queue)) ?_
    rw [List.length_tail]
    omega

/-- The queue is the end of what was offered. -/
lemma queue_suffix (box : Outbox α size) : box.queue <:+ box.offered := by
  have hlength : box.queue.length ≤ box.offered.length := by
    have hle := box.ordered.length_le
    rw [List.length_append] at hle
    omega
  have hback : box.offered.drop (box.offered.length - box.queue.length) <:+ box.offered := List.drop_suffix _ _
  have hn : (box.offered.drop (box.offered.length - box.queue.length)).length = box.queue.length := by
    rw [List.length_drop]
    omega
  have hsame : box.offered.drop (box.offered.length - box.queue.length) <:+ box.queue :=
    List.suffix_of_suffix_length_le (box.newest _ hback (hn.trans_le box.bounded)) (List.suffix_append _ _) hn.le
  exact hsame.eq_of_length hn ▸ hback

/-- `put`, behind the drop of the oldest where the queue is full. -/
def enqueue (box : Outbox α size) (x : α) : Outbox α size where
  queue := room box.queue size ++ [x]
  sent := box.sent
  offered := box.offered ++ [x]
  positive := box.positive
  bounded := by
    rw [List.length_append, List.length_singleton]
    exact room_length box.bounded box.positive
  ordered := by
    rw [← List.append_assoc]
    refine List.Sublist.append (List.Sublist.trans ?_ box.ordered) (List.Sublist.refl [x])
    exact (List.Sublist.refl box.sent).append (room_suffix box.queue size).sublist
  newest back hback hle := by
    rw [← List.append_assoc]
    rcases List.suffix_concat_iff.1 hback with rfl | ⟨front, rfl, hfront⟩
    · exact List.nil_suffix
    · rw [List.length_append, List.length_singleton] at hle
      refine (List.suffix_append_inj_of_length_eq rfl).2 ⟨?_, rfl⟩
      exact suffix_room box.bounded (box.newest front hfront (Nat.le_of_succ_le hle)) hle

/-- The oldest is taken out and sent. -/
def send (box : Outbox α size) : Outbox α size :=
  match h : box.queue with
  | [] => box
  | x :: queue =>
    { queue
      sent := box.sent ++ [x]
      offered := box.offered
      positive := box.positive
      bounded := by
        have hle := box.bounded
        rw [h, List.length_cons] at hle
        omega
      ordered := by
        rw [List.append_assoc, List.singleton_append, ← h]
        exact box.ordered
      newest := fun back hback hle => by
        rw [List.append_assoc, List.singleton_append, ← h]
        exact box.newest back hback hle }

@[simp] lemma offered_enqueue (box : Outbox α size) (x : α) : (box.enqueue x).offered = box.offered ++ [x] := rfl

@[simp] lemma offered_send (box : Outbox α size) : box.send.offered = box.offered := by
  unfold send
  split
  · rfl
  · rfl

/-! ### Several at once -/

def enqueueAll (box : Outbox α size) (xs : List α) : Outbox α size := xs.foldl enqueue box

lemma enqueueAll_cons (box : Outbox α size) (x : α) (xs : List α) :
    box.enqueueAll (x :: xs) = (box.enqueue x).enqueueAll xs := rfl

@[simp] lemma offered_enqueueAll (box : Outbox α size) (xs : List α) :
    (box.enqueueAll xs).offered = box.offered ++ xs := by
  induction xs generalizing box with
  | nil => exact (List.append_nil _).symm
  | cons x xs ih =>
    rw [enqueueAll_cons, ih]
    exact List.append_assoc box.offered [x] xs

@[simp] lemma sent_enqueueAll (box : Outbox α size) (xs : List α) : (box.enqueueAll xs).sent = box.sent := by
  induction xs generalizing box with
  | nil => rfl
  | cons x xs ih => exact ih (box.enqueue x)

/-- The queue holds the last ones, as many as there is room for. -/
lemma queue_enqueueAll (box : Outbox α size) (xs : List α) :
    (box.enqueueAll xs).queue = (box.queue ++ xs).rtake size := by
  induction xs generalizing box with
  | nil =>
    have hle := box.bounded
    show box.queue = _
    rw [List.append_nil, List.rtake_eq_reverse_take_reverse, List.take_of_length_le, List.reverse_reverse]
    rw [List.length_reverse]
    exact hle
  | cons x xs ih =>
    have hle := box.bounded
    have hpos := box.positive
    rw [enqueueAll_cons, ih]
    show (room box.queue size ++ [x] ++ xs).rtake size = (box.queue ++ x :: xs).rtake size
    rw [List.append_assoc, List.singleton_append]
    unfold room
    split
    · rfl
    · rename_i hfull
      cases hq : box.queue with
      | nil => rfl
      | cons y queue =>
        rw [hq, List.length_cons] at hle hfull
        rw [List.tail_cons, List.cons_append, List.rtake, List.rtake, List.length_cons, List.length_append]
        rw [List.length_cons, show queue.length + (xs.length + 1) + 1 - size =
          queue.length + (xs.length + 1) - size + 1 by omega, List.drop_succ_cons]

/-! ### The last of a kind -/

/-- The last one with the property. -/
def latest (p : α → Bool) (l : List α) : Option α := l.reverse.find? p

/-- What comes behind the last one with the property, the newest first. -/
def behind (p : α → Bool) (l : List α) : List α := l.reverse.takeWhile fun x => !p x

lemma latest_concat (p : α → Bool) (l : List α) (x : α) : latest p (l ++ [x]) = if p x then some x else latest p l := by
  unfold latest
  rw [List.reverse_concat, List.find?_cons]
  cases p x
  · rfl
  · rfl

lemma behind_concat (p : α → Bool) (l : List α) (x : α) : behind p (l ++ [x]) = if p x then [] else x :: behind p l := by
  unfold behind
  rw [List.reverse_concat, List.takeWhile_cons]
  cases p x
  · rfl
  · rfl

lemma latest_append (p : α → Bool) (l l' : List α) : latest p (l ++ l') = (latest p l').or (latest p l) := by
  unfold latest
  rw [List.reverse_append, List.find?_append]

lemma latest_eq_none {p : α → Bool} {l : List α} : latest p l = none ↔ ∀ x ∈ l, p x = false := by
  unfold latest
  rw [List.find?_eq_none]
  exact ⟨fun h x hx => Bool.eq_false_of_not_eq_true (h x (List.mem_reverse.2 hx)),
    fun h x hx => (Bool.eq_false_iff.1 (h x (List.mem_reverse.1 hx)))⟩

/-- The last one with the property ends what came before, and what is behind it has not the property. -/
lemma latest_eq_some {p : α → Bool} {l : List α} {x : α} (h : latest p l = some x) :
    ∃ front back, l = front ++ x :: back ∧ p x = true ∧ latest p back = none ∧ back.length = (behind p l).length := by
  induction l using List.reverseRecOn with
  | nil => cases h
  | append_singleton l y ih =>
    rw [latest_concat] at h
    rw [behind_concat]
    split at h
    · rename_i hy
      cases h
      rw [if_pos hy]
      exact ⟨l, [], rfl, hy, rfl, rfl⟩
    · rename_i hy
      rw [if_neg hy]
      obtain ⟨front, back, rfl, hx, hback, hlength⟩ := ih h
      refine ⟨front, back ++ [y], List.append_assoc front (x :: back) [y], hx, ?_, ?_⟩
      · rw [latest_concat, if_neg hy]
        exact hback
      · rw [List.length_append, hlength]
        rfl

lemma latest_middle {p : α → Bool} {x : α} {rest : List α} (front : List α) (hx : p x = true) (hrest : latest p rest = none) :
    latest p (front ++ x :: rest) = some x := by
  rw [latest_append, ← List.singleton_append, latest_append, hrest, Option.none_or]
  unfold latest
  rw [List.reverse_singleton, List.find?_singleton, if_pos hx, Option.some_or]

/-- The end of a list has the last of a kind when it is long enough for what comes behind. -/
lemma latest_rtake_iff {p : α → Bool} {x : α} {rest : List α} (front : List α) (hx : p x = true)
    (hrest : latest p rest = none) (n : ℕ) :
    latest p ((front ++ x :: rest).rtake n) = some x ↔ rest.length < n := by
  rw [List.rtake, List.length_append, List.length_cons]
  constructor
  · intro h
    by_contra hle
    rw [List.drop_append, show front.length + (rest.length + 1) - n - front.length = rest.length - n + 1 by omega,
      List.drop_succ_cons, List.drop_of_length_le (by omega), List.nil_append] at h
    rw [latest_eq_none.2 fun y hy => latest_eq_none.1 hrest y (List.mem_of_mem_drop hy)] at h
    cases h
  · intro h
    rw [List.drop_append_of_le_length (by omega)]
    exact latest_middle _ hx hrest

/-- The last one of a kind that was offered is not dropped before as many more are offered as there is room for. -/
theorem latest_kept (box : Outbox α size) (p : α → Bool) (h : (behind p box.offered).length < size) :
    latest p (box.sent ++ box.queue) = latest p box.offered := by
  cases hlast : latest p box.offered with
  | none =>
    rw [latest_eq_none] at hlast ⊢
    exact fun x hx => hlast x (box.ordered.subset hx)
  | some x =>
    obtain ⟨front, back, heq, hx, hback, hlength⟩ := latest_eq_some hlast
    have hkept := box.newest (x :: back) ⟨front, heq.symm⟩ (by rw [List.length_cons, hlength]; exact h)
    obtain ⟨front', heq'⟩ := hkept
    rw [← heq']
    exact latest_middle front' hx hback

end Outbox
