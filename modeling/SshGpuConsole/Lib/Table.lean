import Mathlib

/-!
# Tables

Dictionaries whose values carry their own key: rows in the order of insertion, no two with one key. A row
that is set takes the place of the one with its key, or goes to the end.
-/

structure Table {κ α : Type} (key : α → κ) where
  rows : List α
  nodup : (rows.map key).Nodup
  deriving DecidableEq

namespace Table
variable {κ α : Type} {key : α → κ}

@[ext] lemma ext {t u : Table key} (h : t.rows = u.rows) : t = u := by
  cases t
  cases u
  cases h
  rfl

def empty : Table key := ⟨[], List.nodup_nil⟩

/-- The rows that pass. -/
def keep (t : Table key) (p : α → Bool) : Table key :=
  ⟨t.rows.filter p, t.nodup.sublist (List.filter_sublist.map key)⟩

/-- Some row has the key. -/
def Has (t : Table key) (k : κ) : Prop := k ∈ t.rows.map key

@[simp] lemma mem_keep {t : Table key} {p : α → Bool} {a : α} : a ∈ (t.keep p).rows ↔ a ∈ t.rows ∧ p a = true :=
  List.mem_filter

lemma has_of_mem {t : Table key} {a : α} (h : a ∈ t.rows) : t.Has (key a) := List.mem_map_of_mem h

lemma mem_of_has {t : Table key} {k : κ} (h : t.Has k) : ∃ a ∈ t.rows, key a = k := List.mem_map.1 h

variable [DecidableEq κ]

/-- The row of a key. -/
def get (t : Table key) (k : κ) : Option α := t.rows.find? fun a => key a = k

instance (t : Table key) (k : κ) : Decidable (t.Has k) := inferInstanceAs (Decidable (k ∈ t.rows.map key))

/-- The row in the place of the one with its key, or behind all. -/
def setRows (key : α → κ) (a : α) : List α → List α
  | [] => [a]
  | b :: rows => if key b = key a then a :: rows else b :: setRows key a rows

lemma setRows_keys (a : α) (rows : List α) :
    (setRows key a rows).map key = if key a ∈ rows.map key then rows.map key else rows.map key ++ [key a] := by
  induction rows with
  | nil => rfl
  | cons b rows ih =>
    by_cases h : key b = key a
    · simp [setRows, h]
    · have h' : key a ≠ key b := fun e => h e.symm
      rw [setRows, if_neg h, List.map_cons, List.map_cons, ih]
      by_cases hm : key a ∈ rows.map key
      · rw [if_pos hm, if_pos (List.mem_cons_of_mem _ hm)]
      · rw [if_neg hm, if_neg fun hc => (List.mem_cons.1 hc).elim h' hm, List.cons_append]

lemma nodup_setRows {rows : List α} (h : (rows.map key).Nodup) (a : α) : ((setRows key a rows).map key).Nodup := by
  rw [setRows_keys]
  split
  · exact h
  · rename_i hm
    exact List.nodup_append.2 ⟨h, List.nodup_singleton _, fun x hx y hy e =>
      hm (List.mem_singleton.1 hy ▸ e ▸ hx)⟩

/-- `d[key] = row`. -/
def set (t : Table key) (a : α) : Table key := ⟨setRows key a t.rows, nodup_setRows t.nodup a⟩

/-- `del d[k]`, or nothing for a key no row has. -/
def erase (t : Table key) (k : κ) : Table key := t.keep fun a => key a ≠ k

/-- The table that setting the rows one after the other builds. -/
def ofRows (rows : List α) : Table key := rows.foldl set empty

@[simp] lemma mem_erase {t : Table key} {k : κ} {a : α} : a ∈ (t.erase k).rows ↔ a ∈ t.rows ∧ key a ≠ k := by
  simp [erase]

@[simp] lemma has_set {t : Table key} {a : α} {k : κ} : (t.set a).Has k ↔ k = key a ∨ t.Has k := by
  rw [Has, set, setRows_keys]
  split
  · rename_i h
    exact ⟨Or.inr, fun hk => hk.elim (fun e => e ▸ h) id⟩
  · rw [List.mem_append, List.mem_singleton, or_comm, Has]

@[simp] lemma has_erase {t : Table key} {k l : κ} : (t.erase k).Has l ↔ t.Has l ∧ l ≠ k := by
  constructor
  · intro h
    obtain ⟨a, ha, rfl⟩ := mem_of_has h
    exact ⟨has_of_mem (mem_erase.1 ha).1, (mem_erase.1 ha).2⟩
  · rintro ⟨h, hk⟩
    obtain ⟨a, ha, rfl⟩ := mem_of_has h
    exact has_of_mem (mem_erase.2 ⟨ha, hk⟩)

lemma mem_setRows {a b : α} {rows : List α} (h : b ∈ setRows key a rows) : b = a ∨ b ∈ rows := by
  induction rows with
  | nil => exact Or.inl (List.mem_singleton.1 h)
  | cons c rows ih =>
    rw [setRows] at h
    split at h
    · exact (List.mem_cons.1 h).imp_right (List.mem_cons_of_mem c)
    · rcases List.mem_cons.1 h with rfl | h
      · exact Or.inr List.mem_cons_self
      · exact (ih h).imp_right (List.mem_cons_of_mem c)

/-- A row of the table after a row was set. -/
lemma mem_set {t : Table key} {a b : α} (h : b ∈ (t.set a).rows) : b = a ∨ b ∈ t.rows := mem_setRows h

/-! ### Reading by key -/

lemma find_iff {rows : List α} (hn : (rows.map key).Nodup) {k : κ} {a : α} :
    (rows.find? fun a => key a = k) = some a ↔ a ∈ rows ∧ key a = k := by
  induction rows with
  | nil => simp
  | cons b rows ih =>
    obtain ⟨hb, hn⟩ := List.nodup_cons.1 hn
    by_cases h : key b = k
    · rw [List.find?_cons_of_pos (by simpa using h)]
      constructor
      · rintro ⟨⟩
        exact ⟨List.mem_cons_self, h⟩
      · rintro ⟨hm, ha⟩
        rcases List.mem_cons.1 hm with rfl | hm
        · rfl
        · exact absurd (List.mem_map.2 ⟨a, hm, ha.trans h.symm⟩) hb
    · rw [List.find?_cons_of_neg (by simpa using h), ih hn]
      constructor
      · rintro ⟨hm, ha⟩
        exact ⟨List.mem_cons_of_mem b hm, ha⟩
      · rintro ⟨hm, ha⟩
        rcases List.mem_cons.1 hm with rfl | hm
        · exact absurd ha h
        · exact ⟨hm, ha⟩

lemma get_eq_some {t : Table key} {k : κ} {a : α} : t.get k = some a ↔ a ∈ t.rows ∧ key a = k := find_iff t.nodup

lemma get_eq_none {t : Table key} {k : κ} : t.get k = none ↔ ¬t.Has k := by
  rw [get, List.find?_eq_none, Has, List.mem_map]
  constructor
  · rintro h ⟨a, ha, hk⟩
    exact h a ha (by simpa using hk)
  · intro h a ha hk
    exact h ⟨a, ha, by simpa using hk⟩

lemma get_set_self (t : Table key) (a : α) : (t.set a).get (key a) = some a := by
  have hmem : ∀ rows : List α, a ∈ setRows key a rows := by
    intro rows
    induction rows with
    | nil => exact List.mem_singleton_self a
    | cons b rows ih =>
      rw [setRows]
      split
      · exact List.mem_cons_self
      · exact List.mem_cons_of_mem b ih
  exact get_eq_some.2 ⟨hmem t.rows, rfl⟩

lemma get_set_of_ne (t : Table key) {a : α} {k : κ} (h : k ≠ key a) : (t.set a).get k = t.get k := by
  have hfind : ∀ rows : List α, (setRows key a rows).find? (fun b => key b = k) = rows.find? fun b => key b = k := by
    intro rows
    induction rows with
    | nil => exact List.find?_cons_of_neg (by simpa using h.symm)
    | cons b rows ih =>
      rw [setRows]
      split
      · rename_i hb
        rw [List.find?_cons_of_neg (by simpa using h.symm), List.find?_cons_of_neg (by simpa [hb] using h.symm)]
      · rw [List.find?_cons, List.find?_cons, ih]
  exact hfind t.rows

lemma get_erase_self (t : Table key) (k : κ) : (t.erase k).get k = none :=
  get_eq_none.2 fun h => (has_erase.1 h).2 rfl

lemma get_erase_of_ne (t : Table key) {k l : κ} (h : l ≠ k) : (t.erase k).get l = t.get l := by
  cases hl : t.get l with
  | none => exact get_eq_none.2 fun hh => get_eq_none.1 hl (has_erase.1 hh).1
  | some a =>
    obtain ⟨hm, rfl⟩ := get_eq_some.1 hl
    exact get_eq_some.2 ⟨mem_erase.2 ⟨hm, h⟩, rfl⟩

lemma key_of_get {t : Table key} {k : κ} {a : α} (h : t.get k = some a) : key a = k := (get_eq_some.1 h).2

lemma has_of_get {t : Table key} {k : κ} {a : α} (h : t.get k = some a) : t.Has k := by
  obtain ⟨hm, rfl⟩ := get_eq_some.1 h
  exact has_of_mem hm

/-! ### Tables from rows -/

lemma setRows_append {a : α} {rows : List α} (h : key a ∉ rows.map key) : setRows key a rows = rows ++ [a] := by
  induction rows with
  | nil => rfl
  | cons b rows ih =>
    obtain ⟨hb, hm⟩ := not_or.1 (mt List.mem_cons.2 h)
    rw [setRows, if_neg fun e => hb e.symm, ih hm, List.cons_append]

lemma setRows_self {a : α} {rows : List α} (h : a ∈ rows) (hn : (rows.map key).Nodup) : setRows key a rows = rows := by
  induction rows with
  | nil => cases h
  | cons b rows ih =>
    obtain ⟨hb, hn⟩ := List.nodup_cons.1 hn
    rcases List.mem_cons.1 h with rfl | h
    · rw [setRows, if_pos rfl]
    · rw [setRows, if_neg fun (e : key b = key a) => hb (e ▸ List.mem_map_of_mem h), ih h hn]

/-- A row that is there is set without a change. -/
lemma set_self {t : Table key} {a : α} (h : a ∈ t.rows) : t.set a = t := ext (setRows_self h t.nodup)

lemma foldl_set_rows {rows : List α} {t : Table key} (h : (t.rows ++ rows |>.map key).Nodup) :
    (rows.foldl set t).rows = t.rows ++ rows := by
  induction rows generalizing t with
  | nil => exact (List.append_nil _).symm
  | cons a rows ih =>
    have ha : key a ∉ t.rows.map key := by
      rw [List.map_append, List.map_cons] at h
      exact fun hm => (List.nodup_append.1 h).2.2 _ hm _ List.mem_cons_self rfl
    have hset : (t.set a).rows = t.rows ++ [a] := setRows_append ha
    have happ : t.rows ++ a :: rows = (t.set a).rows ++ rows := by rw [hset, List.append_assoc, List.singleton_append]
    rw [List.foldl_cons, ih (happ ▸ h), happ]

lemma mem_ofRows {rows : List α} {a : α} (h : a ∈ (ofRows rows : Table key).rows) : a ∈ rows := by
  have hfold : ∀ (rows : List α) (t : Table key), a ∈ (rows.foldl set t).rows → a ∈ t.rows ∨ a ∈ rows := by
    intro rows
    induction rows with
    | nil => exact fun t ht => .inl ht
    | cons b rows ih =>
      intro t ht
      rcases ih (t.set b) ht with hm | hm
      · rcases mem_set hm with rfl | hm
        · exact .inr List.mem_cons_self
        · exact .inl hm
      · exact .inr (List.mem_cons_of_mem b hm)
  exact (hfold rows empty h).resolve_left List.not_mem_nil

/-- The rows of a table rebuild it, in their order. -/
theorem ofRows_rows (t : Table key) : ofRows t.rows = t :=
  ext (foldl_set_rows (t := empty) t.nodup)

/-- Under a key the table has the last of the rows with it. -/
lemma get_ofRows (rows : List α) (k : κ) :
    (ofRows rows : Table key).get k = (rows.filter fun a => key a = k).getLast? := by
  have hfold : ∀ (rows : List α) (t : Table key),
      (rows.foldl set t).get k = (rows.filter fun a => key a = k).getLast?.or (t.get k) := by
    intro rows
    induction rows with
    | nil => exact fun t => rfl
    | cons a rows ih =>
      intro t
      rw [List.foldl_cons, ih]
      by_cases h : key a = k
      · rw [List.filter_cons_of_pos (by simpa using h), List.getLast?_cons, ← h, get_set_self]
        cases (rows.filter fun b => key b = key a).getLast? <;> rfl
      · rw [List.filter_cons_of_neg (by simpa using h), get_set_of_ne t fun e => h e.symm]
  exact (hfold rows empty).trans (Option.or_none)

/-! ### Sums -/

omit [DecidableEq κ] in
/-- Rows under different keys of a list weigh at most as much as the list is long, each row taken at most. -/
lemma sum_le_of_keys {rows : List α} {keys : List κ} {weight : α → ℕ} {limit : ℕ} (hn : (rows.map key).Nodup)
    (hkeys : ∀ a ∈ rows, key a ∈ keys) (hweight : ∀ a ∈ rows, weight a ≤ limit) :
    (rows.map weight).sum ≤ limit * keys.length := by
  have hsub : rows.map key ⊆ keys := by
    intro k hk
    obtain ⟨a, ha, rfl⟩ := List.mem_map.1 hk
    exact hkeys a ha
  have hlength : rows.length ≤ keys.length := by
    have := (hn.subperm hsub).length_le
    rwa [List.length_map] at this
  calc (rows.map weight).sum ≤ (rows.map weight).length • limit := by
        refine List.sum_le_card_nsmul _ _ fun n hn => ?_
        obtain ⟨a, ha, rfl⟩ := List.mem_map.1 hn
        exact hweight a ha
    _ = limit * rows.length := by rw [List.length_map, smul_eq_mul, mul_comm]
    _ ≤ limit * keys.length := Nat.mul_le_mul_left limit hlength

end Table
