import Mathlib

/-!
# Dictionaries

Python's dictionaries as lists of keys with their values, in the order of insertion.
-/

abbrev Dict (κ ν : Type) := List (κ × ν)

namespace Dict
variable {κ ν : Type} [DecidableEq κ]

/-- `d.get(k)`. -/
def get (d : Dict κ ν) (k : κ) : Option ν := (d.find? (·.1 = k)).map Prod.snd

/-- `d.pop(k, None)`. -/
def pop (d : Dict κ ν) (k : κ) : Dict κ ν := d.filter (·.1 ≠ k)

/-- `d[k] = v` for a key that is not there. -/
def push (d : Dict κ ν) (k : κ) (v : ν) : Dict κ ν := d ++ [(k, v)]

/-- `d[k] = v`. -/
def set (k : κ) (v : ν) : Dict κ ν → Dict κ ν
  | [] => [(k, v)]
  | x :: d => if x.1 = k then (k, v) :: d else x :: set k v d

/-- The dictionary that setting the items one after the other builds. -/
def ofItems (items : List (κ × ν)) : Dict κ ν := items.foldl (fun d x => set x.1 x.2 d) []

@[simp] lemma get_nil (k : κ) : get ([] : Dict κ ν) k = none := rfl

lemma set_nil (k : κ) (v : ν) : set k v [] = [(k, v)] := rfl

lemma set_cons (k : κ) (v : ν) (x : κ × ν) (d : Dict κ ν) :
    set k v (x :: d) = if x.1 = k then (k, v) :: d else x :: set k v d := rfl

lemma get_cons (x : κ × ν) (d : Dict κ ν) (k : κ) :
    get (x :: d) k = if x.1 = k then some x.2 else get d k := by
  by_cases h : x.1 = k <;> simp [get, h]

@[simp] lemma get_pop (d : Dict κ ν) (k : κ) : get (pop d k) k = none := by
  rw [get, Option.map_eq_none_iff, List.find?_eq_none]
  intro x hx
  simpa using (List.mem_filter.1 hx).2

lemma get_pop_of_ne (d : Dict κ ν) {k l : κ} (h : l ≠ k) : get (pop d k) l = get d l := by
  induction d with
  | nil => rfl
  | cons x d ih =>
    by_cases hx : x.1 = k
    · have hl : x.1 ≠ l := fun e => h (e.symm.trans hx)
      rw [pop, List.filter_cons_of_neg (by simpa using hx), get_cons, if_neg hl]
      exact ih
    · rw [pop, List.filter_cons_of_pos (by simpa using hx), get_cons, get_cons]
      split
      · rfl
      · exact ih

lemma get_push (d : Dict κ ν) {k : κ} (hk : get d k = none) (v : ν) : get (push d k v) k = some v := by
  induction d with
  | nil => rw [push, List.nil_append, get_cons, if_pos rfl]
  | cons x d ih =>
    rw [get_cons] at hk
    split at hk
    · cases hk
    · rename_i hx
      rw [push, List.cons_append, get_cons, if_neg hx]
      exact ih hk

lemma get_push_of_ne (d : Dict κ ν) {k l : κ} (h : l ≠ k) (v : ν) : get (push d k v) l = get d l := by
  induction d with
  | nil => rw [push, List.nil_append, get_cons, if_neg h.symm]
  | cons x d ih =>
    rw [push, List.cons_append, get_cons, get_cons]
    split
    · rfl
    · exact ih

lemma get_set_self (k : κ) (v : ν) (d : Dict κ ν) : get (set k v d) k = some v := by
  induction d with
  | nil => rw [set_nil, get_cons, if_pos rfl]
  | cons x d ih =>
    rw [set_cons]
    split
    · rw [get_cons, if_pos rfl]
    · rename_i hx
      rw [get_cons, if_neg hx, ih]

lemma get_set_of_ne {k l : κ} (h : l ≠ k) (v : ν) (d : Dict κ ν) : get (set k v d) l = get d l := by
  induction d with
  | nil => rw [set_nil, get_cons, if_neg h.symm]
  | cons x d ih =>
    rw [set_cons]
    split
    · rename_i hx
      rw [get_cons, get_cons, if_neg h.symm, if_neg fun e => h (e.symm.trans hx)]
    · rw [get_cons, get_cons, ih]

lemma mem_keys_set {k l : κ} {v : ν} {d : Dict κ ν} : l ∈ (set k v d).map Prod.fst ↔ l = k ∨ l ∈ d.map Prod.fst := by
  induction d with
  | nil => simp [set_nil]
  | cons x d ih =>
    rw [set_cons]
    split
    · rename_i hx
      rw [List.map_cons, List.map_cons, List.mem_cons, List.mem_cons, hx, ← or_assoc, or_self]
    · rw [List.map_cons, List.map_cons, List.mem_cons, List.mem_cons, ih, or_left_comm]

/-! ### Sizes -/

lemma length_set_le (k : κ) (v : ν) (d : Dict κ ν) : (set k v d).length ≤ d.length + 1 := by
  induction d with
  | nil => exact le_refl 1
  | cons x d ih =>
    rw [set_cons]
    split
    · exact Nat.le_succ (d.length + 1)
    · exact Nat.succ_le_succ ih

lemma length_ofItems_le (items : List (κ × ν)) : (ofItems items).length ≤ items.length := by
  have hfold : ∀ (items : List (κ × ν)) (d : Dict κ ν),
      (items.foldl (fun d x => set x.1 x.2 d) d).length ≤ d.length + items.length := by
    intro items
    induction items with
    | nil => exact fun d => le_refl d.length
    | cons x items ih =>
      intro d
      have hset := length_set_le x.1 x.2 d
      have hrest := ih (set x.1 x.2 d)
      rw [List.foldl_cons, List.length_cons]
      omega
  exact (hfold items []).trans_eq (Nat.zero_add items.length)

lemma keys_set_of_mem {k : κ} (v : ν) {d : Dict κ ν} (h : k ∈ d.map Prod.fst) :
    (set k v d).map Prod.fst = d.map Prod.fst := by
  induction d with
  | nil => cases h
  | cons x d ih =>
    rw [set_cons]
    split
    · rename_i hx
      rw [List.map_cons, List.map_cons, hx]
    · rename_i hx
      rcases List.mem_cons.1 h with rfl | h
      · exact absurd rfl hx
      · rw [List.map_cons, List.map_cons, ih h]

lemma keys_set_of_not_mem {k : κ} (v : ν) {d : Dict κ ν} (h : k ∉ d.map Prod.fst) :
    (set k v d).map Prod.fst = d.map Prod.fst ++ [k] := by
  induction d with
  | nil => rfl
  | cons x d ih =>
    obtain ⟨hx, hd⟩ := not_or.1 (mt List.mem_cons.2 h)
    rw [set_cons, if_neg fun e => hx e.symm, List.map_cons, List.map_cons, ih hd, List.cons_append]

lemma nodup_keys_set {d : Dict κ ν} (h : (d.map Prod.fst).Nodup) (k : κ) (v : ν) : ((set k v d).map Prod.fst).Nodup := by
  by_cases hk : k ∈ d.map Prod.fst
  · rw [keys_set_of_mem v hk]
    exact h
  · rw [keys_set_of_not_mem v hk]
    exact List.nodup_append.2 ⟨h, List.nodup_singleton k, fun x hx y hy e =>
      hk (List.mem_singleton.1 hy ▸ e ▸ hx)⟩

lemma nodup_keys_pop {d : Dict κ ν} (h : (d.map Prod.fst).Nodup) (k : κ) : ((pop d k).map Prod.fst).Nodup :=
  h.sublist (List.filter_sublist.map Prod.fst)

@[simp] lemma mem_pop {d : Dict κ ν} {k : κ} {x : κ × ν} : x ∈ pop d k ↔ x ∈ d ∧ x.1 ≠ k := by
  rw [pop, List.mem_filter, decide_eq_true_iff]

lemma mem_set {k : κ} {v : ν} {d : Dict κ ν} {x : κ × ν} (h : x ∈ set k v d) : x = (k, v) ∨ x ∈ d := by
  induction d with
  | nil => exact .inl (List.mem_singleton.1 h)
  | cons y d ih =>
    rw [set_cons] at h
    split at h
    · exact (List.mem_cons.1 h).imp_right (List.mem_cons_of_mem y)
    · rcases List.mem_cons.1 h with rfl | h
      · exact .inr List.mem_cons_self
      · exact (ih h).imp_right (List.mem_cons_of_mem y)

lemma mem_of_get {d : Dict κ ν} {k : κ} {v : ν} (h : get d k = some v) : (k, v) ∈ d := by
  induction d with
  | nil => cases h
  | cons x d ih =>
    rw [get_cons] at h
    split at h
    · rename_i hx
      cases h
      exact hx ▸ List.mem_cons_self
    · exact List.mem_cons_of_mem x (ih h)

lemma isSome_get_iff {d : Dict κ ν} {k : κ} : (get d k).isSome = true ↔ k ∈ d.map Prod.fst := by
  induction d with
  | nil => exact iff_of_false (fun h => Bool.false_ne_true h) List.not_mem_nil
  | cons x d ih =>
    rw [get_cons, List.map_cons, List.mem_cons]
    split
    · rename_i hx
      exact iff_of_true rfl (.inl hx.symm)
    · rename_i hx
      exact ih.trans (or_iff_right fun e => hx e.symm).symm

/-! ### The dictionary of some items -/

lemma nodup_keys_ofItems (items : List (κ × ν)) : ((ofItems items).map Prod.fst).Nodup := by
  have hfold : ∀ (items : List (κ × ν)) (d : Dict κ ν), (d.map Prod.fst).Nodup →
      ((items.foldl (fun d x => set x.1 x.2 d) d).map Prod.fst).Nodup := by
    intro items
    induction items with
    | nil => exact fun d h => h
    | cons x items ih => exact fun d h => ih _ (nodup_keys_set h x.1 x.2)
  exact hfold items [] List.nodup_nil

lemma mem_of_mem_ofItems {items : List (κ × ν)} {x : κ × ν} (h : x ∈ ofItems items) : x ∈ items := by
  have hfold : ∀ (items : List (κ × ν)) (d : Dict κ ν), x ∈ items.foldl (fun d x => set x.1 x.2 d) d →
      x ∈ d ∨ x ∈ items := by
    intro items
    induction items with
    | nil => exact fun d h => .inl h
    | cons y items ih =>
      intro d h
      cases ih _ h with
      | inl h =>
        cases mem_set h with
        | inl h => exact .inr (h ▸ List.mem_cons_self)
        | inr h => exact .inl h
      | inr h => exact .inr (List.mem_cons_of_mem y h)
  exact (hfold items [] h).resolve_left List.not_mem_nil

lemma mem_keys_ofItems {items : List (κ × ν)} {k : κ} :
    k ∈ (ofItems items).map Prod.fst ↔ k ∈ items.map Prod.fst := by
  have hfold : ∀ (items : List (κ × ν)) (d : Dict κ ν),
      k ∈ (items.foldl (fun d x => set x.1 x.2 d) d).map Prod.fst ↔ k ∈ d.map Prod.fst ∨ k ∈ items.map Prod.fst := by
    intro items
    induction items with
    | nil => exact fun d => (or_iff_left List.not_mem_nil).symm
    | cons x items ih =>
      intro d
      rw [List.foldl_cons, ih, mem_keys_set, List.map_cons, List.mem_cons, or_comm (a := k = x.1), or_assoc]
  exact (hfold items []).trans (or_iff_right List.not_mem_nil)

end Dict
