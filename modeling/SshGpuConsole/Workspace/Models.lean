import SshGpuConsole.Lib.PyText

/-!
# Workspace wire models

The validation of `ProjectRecord.transfer_excludes` (`models/workspace.py`). A list of patterns that
passes it is a `TransferExcludes`; the transfer code receives nothing else.
-/

namespace SshGpuConsole.Workspace
open Shell PyText

/-- The characters that make a pattern or a path span more than one line. -/
def isControl (c : Char) : Bool := c ∈ ['\n', '\r', '\x00']

/-- One round of the loop of `_clean_excludes`. -/
def cleanExclude (cleaned : List Text) (pattern : Text) : Except Text (List Text) :=
  let value := strip pattern
  if value.isEmpty then .error "exclude patterns must not be empty".toList
  else if value.any isControl then .error "exclude patterns must be single-line".toList
  else if cleaned.contains value then .ok cleaned
  else .ok (cleaned ++ [value])

/-- `ProjectRecord._clean_excludes`: patterns stripped, checked and kept once, in first-seen order. -/
def cleanExcludes (patterns : List Text) : Except Text (List Text) :=
  patterns.foldlM cleanExclude []

/-- A list of exclude patterns a project record accepts. -/
structure TransferExcludes where
  patterns : List Text
  accepted : (cleanExcludes patterns).toBool = true

/-- A pattern the loop lets pass is not blank and single-line. -/
lemma cleanExclude_ok {cleaned out : List Text} {p : Text} (h : cleanExclude cleaned p = .ok out) :
    strip p ≠ [] ∧ ∀ c ∈ strip p, isControl c = false := by
  simp only [cleanExclude] at h
  split_ifs at h with h1 h2 h3
  all_goals
    refine ⟨by simpa using h1, fun c hc => ?_⟩
    simp only [List.any_eq_true, not_exists, not_and, Bool.not_eq_true] at h2
    exact h2 c hc

/-- Every pattern of an accepted list is not blank and single-line. -/
lemma TransferExcludes.clean (ex : TransferExcludes) {p : Text} (hp : p ∈ ex.patterns) :
    strip p ≠ [] ∧ ∀ c ∈ strip p, isControl c = false := by
  obtain ⟨patterns, accepted⟩ := ex
  have key : ∀ (ps cleaned : List Text), (ps.foldlM cleanExclude cleaned).toBool = true →
      ∀ p ∈ ps, strip p ≠ [] ∧ ∀ c ∈ strip p, isControl c = false := by
    intro ps
    induction ps with
    | nil => simp
    | cons q ps ih =>
      intro cleaned h
      rw [List.foldlM_cons] at h
      cases hq : cleanExclude cleaned q with
      | error e => rw [hq] at h; cases h
      | ok out =>
        rw [hq] at h
        exact List.forall_mem_cons.2 ⟨cleanExclude_ok hq, ih out h⟩
  exact key patterns [] accepted p hp

end SshGpuConsole.Workspace
