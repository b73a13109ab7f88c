import Mathlib

/-!
# Runs of a machine

A machine is a step function. A run is the list of its events: what holds in every state it goes through
(`Always`), and what every event of it finds (`Along`).
-/

namespace Machine
variable {σ ε : Type} (step : σ → ε → σ)

/-- The state after the events. -/
def after (s : σ) (es : List ε) : σ := es.foldl step s

/-- Every state of the run has the property, the first and the last included. -/
def Always (P : σ → Prop) : σ → List ε → Prop
  | s, [] => P s
  | s, e :: es => P s ∧ Always P (step s e) es

/-- Every event of the run is fine in the state it finds. -/
def Along (ok : σ → ε → Prop) : σ → List ε → Prop
  | _, [] => True
  | s, e :: es => ok s e ∧ Along ok (step s e) es

variable {step} {P Inv : σ → Prop} {ok : σ → ε → Prop} {s : σ} {e : ε} {es es' : List ε}

@[simp] lemma after_nil : after step s [] = s := rfl

@[simp] lemma after_cons : after step s (e :: es) = after step (step s e) es := rfl

lemma after_append : after step s (es ++ es') = after step (after step s es) es' := List.foldl_append

lemma Always.first (h : Always step P s es) : P s := by
  cases es with
  | nil => exact h
  | cons e es => exact h.1

lemma Always.last (h : Always step P s es) : P (after step s es) := by
  induction es generalizing s with
  | nil => exact h
  | cons e es ih => exact ih h.2

/-- `Always` on the states themselves. -/
lemma always_iff : Always step P s es ↔ ∀ pre, pre <+: es → P (after step s pre) := by
  induction es generalizing s with
  | nil =>
    constructor
    · intro h pre hpre
      rw [List.prefix_nil.1 hpre]
      exact h
    · intro h
      exact h [] List.prefix_rfl
  | cons e es ih =>
    constructor
    · intro h pre hpre
      cases pre with
      | nil => exact h.1
      | cons e' pre =>
        obtain ⟨rfl, hrest⟩ := List.cons_prefix_cons.1 hpre
        exact ih.1 h.2 pre hrest
    · intro h
      refine ⟨h [] List.nil_prefix, ih.2 fun pre hpre => ?_⟩
      exact h (e :: pre) (List.cons_prefix_cons.2 ⟨rfl, hpre⟩)

/-- What every step keeps holds all along. -/
lemma always_of_inv (h₀ : Inv s) (hstep : ∀ s e, Inv s → Inv (step s e)) : Always step Inv s es := by
  induction es generalizing s with
  | nil => exact h₀
  | cons e es ih => exact ⟨h₀, ih (hstep s e h₀)⟩

lemma inv_after (h₀ : Inv s) (hstep : ∀ s e, Inv s → Inv (step s e)) : Inv (after step s es) :=
  (always_of_inv h₀ hstep).last

/-- What the fine events keep holds along a run of fine events. -/
lemma always_of_along (h₀ : Inv s) (hstep : ∀ s e, Inv s → ok s e → Inv (step s e)) (h : Along step ok s es) :
    Always step Inv s es := by
  induction es generalizing s with
  | nil => exact h₀
  | cons e es ih => exact ⟨h₀, ih (hstep s e h₀ h.1) h.2⟩

lemma Always.imp {Q : σ → Prop} (h : Always step P s es) (himp : ∀ s, P s → Q s) : Always step Q s es :=
  always_iff.2 fun pre hpre => himp _ (always_iff.1 h pre hpre)

/-- Properties that agree where the invariant holds agree along a run. -/
lemma always_congr {Q : σ → Prop} (h₀ : Inv s) (hinv : ∀ s e, Inv s → Inv (step s e))
    (hiff : ∀ s, Inv s → (P s ↔ Q s)) : Always step P s es ↔ Always step Q s es := by
  induction es generalizing s with
  | nil => exact hiff s h₀
  | cons e es ih => exact and_congr (hiff s h₀) (ih (hinv s e h₀))

/-- When a step keeps the property exactly at the fine events, so does a run. -/
theorem always_iff_along (h₀ : Inv s) (hP : P s) (hinv : ∀ s e, Inv s → Inv (step s e))
    (hstep : ∀ s e, Inv s → P s → (P (step s e) ↔ ok s e)) : Always step P s es ↔ Along step ok s es := by
  induction es generalizing s with
  | nil => exact ⟨fun _ => trivial, fun _ => hP⟩
  | cons e es ih =>
    constructor
    · intro h
      have hnext := h.2.first
      exact ⟨(hstep s e h₀ hP).1 hnext, (ih (hinv s e h₀) hnext).1 h.2⟩
    · intro h
      have hnext := (hstep s e h₀ hP).2 h.1
      exact ⟨hP, (ih (hinv s e h₀) hnext).2 h.2⟩

/-- When the events that are fine in one way are those that are fine in the other, and these keep the invariant. -/
theorem along_iff_along {ok' : σ → ε → Prop} (h₀ : Inv s) (hinv : ∀ s e, Inv s → ok' s e → Inv (step s e))
    (hstep : ∀ s e, Inv s → (ok s e ↔ ok' s e)) : Along step ok s es ↔ Along step ok' s es := by
  induction es generalizing s with
  | nil => exact Iff.rfl
  | cons e es ih =>
    constructor
    · intro h
      have hfine := (hstep s e h₀).1 h.1
      exact ⟨hfine, (ih (hinv s e h₀ hfine)).1 h.2⟩
    · intro h
      exact ⟨(hstep s e h₀).2 h.1, (ih (hinv s e h₀ h.1)).2 h.2⟩

end Machine
