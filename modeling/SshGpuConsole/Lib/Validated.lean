import Mathlib

/-!
# Validated values

Values that passed the validation of their model. A validation may adjust what it accepts, and leaves what
it accepted once as it is.
-/

/-- Both parts of a computation that does not fail return. -/
lemma Except.ok_of_bind {ε α β : Type} {x : Except ε α} {f : α → Except ε β} {b : β} (h : x >>= f = .ok b) :
    ∃ a, x = .ok a ∧ f a = .ok b := by
  cases x with
  | error e => cases h
  | ok a => exact ⟨a, rfl, h⟩

class Model (α : Type) where
  /-- The adjusted value, or nothing for one that is refused. -/
  validate : α → Option α
  stable : ∀ {a b : α}, validate a = some b → validate b = some b

structure Validated (α : Type) [Model α] where
  val : α
  valid : Model.validate val = some val

namespace Validated
variable {α : Type} [Model α]

@[ext] lemma ext {a b : Validated α} (h : a.val = b.val) : a = b := by
  cases a
  cases b
  cases h
  rfl

instance [DecidableEq α] : DecidableEq (Validated α) := fun a b =>
  decidable_of_iff (a.val = b.val) ⟨ext, congrArg val⟩

/-- The value of a model, from what its fields are given. -/
def build (a : α) : Option (Validated α) :=
  match h : Model.validate a with
  | some b => some ⟨b, Model.stable h⟩
  | none => none

lemma build_val {a : α} {v : Validated α} (h : build a = some v) : Model.validate a = some v.val := by
  rw [build] at h
  split at h
  · rename_i b hb
    cases h
    exact hb
  · cases h

/-- A validated value is built from itself. -/
lemma build_self (v : Validated α) : build v.val = some v := by
  rw [build]
  split
  · rename_i b hb
    exact congrArg some (ext (Option.some.inj (hb.symm.trans v.valid)))
  · rename_i hb
    exact absurd (hb.symm.trans v.valid) (by simp)

end Validated
