import SshGpuConsole.Lib.LexicalPath
import SshGpuConsole.Lib.Runs
import SshGpuConsole.Transfer.Registry

/-!
# Target locks

Whatever is called on a `JobRegistry`, the active jobs and the target locks belong to each other (`locked_after`). The
key of a lock does not tell the spellings of a directory apart but for two slashes at the start, so a lock is the lock
of its directory as long as no active job writes below the root by its absolute path (`locks_identify_iff`).
-/

namespace SshGpuConsole.Transfers
open Shell (Text)
open Batch (TransferState)
open Machine PosixPath

namespace JobRegistry

/-- What is called on the registry. -/
inductive Call where
  | create (source_server_id target_server_id target_path : Text)
  | transition (job : ℕ) (state : TransferState)
  | clearHistory
  | cancelAll

/-- A call; `create` raises when the target is locked, and only jobs that were created are transitioned. -/
def call (limit : ℕ) (r : JobRegistry) : Call → JobRegistry
  | .create source_server_id target_server_id target_path =>
    let job : TransferJob := { source_server_id, target_server_id, target_path }
    if (r.target_locks.get job.key).isSome then r else r.create job
  | .transition j state => if j < r.count then r.transition limit j state else r
  | .clearHistory => r.clearHistory
  | .cancelAll => (r.cancelAll limit).1

/-- The active jobs hold the locks of their targets, and nobody else holds one. -/
structure Locked (r : JobRegistry) : Prop where
  created : ∀ j ∈ r.active, j < r.count
  holds : ∀ j ∈ r.active, r.target_locks.get (r.job j).key = some j
  held : ∀ key j, r.target_locks.get key = some j → j ∈ r.active ∧ (r.job j).key = key

variable {r : JobRegistry} {limit j : ℕ}

lemma key_setState (r : JobRegistry) (j : ℕ) (state : TransferState) (k : ℕ) :
    ((r.setState j state).job k).key = (r.job k).key := by
  show (Function.update r.job j _ k).key = _
  by_cases hk : k = j
  · rw [hk, Function.update_self]
    rfl
  · rw [Function.update_of_ne hk]

lemma Locked.setState (h : Locked r) (j : ℕ) (state : TransferState) : Locked (r.setState j state) where
  created := h.created
  holds k hk := by
    rw [key_setState]
    exact h.holds k hk
  held key k hk := by
    rw [key_setState]
    exact h.held key k hk

/-- The job leaves the active ones, and its lock is free. -/
lemma Locked.leave (h : Locked r) (j : ℕ) : Locked ((r.releaseTargetLock j).archive limit j) := by
  unfold releaseTargetLock
  split
  · refine ⟨fun k hk => h.created k (List.mem_filter.1 hk).1, fun k hk => ?_, fun key k hk => ?_⟩
    · obtain ⟨hactive, hne⟩ := List.mem_filter.1 hk
      have hkey : (r.job k).key ≠ (r.job j).key := by
        intro e
        rename_i hj
        rw [← e, h.holds k hactive] at hj
        exact of_decide_eq_true hne (Option.some.inj hj)
      show (r.target_locks.pop (r.job j).key).get (r.job k).key = some k
      rw [Dict.get_pop_of_ne _ hkey]
      exact h.holds k hactive
    · have hkey : key ≠ (r.job j).key := by
        rintro rfl
        exact absurd (hk.symm.trans (Dict.get_pop _ _)) (Option.some_ne_none k)
      obtain ⟨hactive, hown⟩ := h.held key k ((Dict.get_pop_of_ne _ hkey).symm.trans hk)
      refine ⟨List.mem_filter.2 ⟨hactive, decide_eq_true ?_⟩, hown⟩
      rintro rfl
      exact hkey hown.symm
  · rename_i hj
    refine ⟨fun k hk => h.created k (List.mem_filter.1 hk).1, fun k hk => h.holds k (List.mem_filter.1 hk).1,
      fun key k hk => ?_⟩
    obtain ⟨hactive, hown⟩ := h.held key k hk
    refine ⟨List.mem_filter.2 ⟨hactive, decide_eq_true ?_⟩, hown⟩
    rintro rfl
    exact hj (hown ▸ hk)

lemma Locked.transition (h : Locked r) (j : ℕ) (state : TransferState) : Locked (r.transition limit j state) := by
  unfold JobRegistry.transition
  split
  · exact (h.setState j state).leave j
  · exact h.setState j state

lemma Locked.create (h : Locked r) {job : TransferJob} (hfree : r.target_locks.get job.key = none) :
    Locked (r.create job) := by
  have hold : ∀ k ∈ r.active, (r.create job).job k = r.job k := fun k hk =>
    Function.update_of_ne (Nat.ne_of_lt (h.created k hk)) _ _
  have hnew : (r.create job).job r.count = job := Function.update_self ..
  refine ⟨fun k hk => ?_, fun k hk => ?_, fun key k hk => ?_⟩
  · rcases List.mem_append.1 hk with hk | hk
    · exact Nat.lt_succ_of_lt (h.created k hk)
    · rw [List.mem_singleton.1 hk]
      exact Nat.lt_succ_self r.count
  · show (r.target_locks.set job.key r.count).get _ = some k
    rcases List.mem_append.1 hk with hk | hk
    · have hkey : (r.job k).key ≠ job.key := by
        intro e
        rw [← e, h.holds k hk] at hfree
        cases hfree
      rw [hold k hk]
      refine (Dict.get_set_of_ne hkey _ _).trans ?_
      exact h.holds k hk
    · rw [List.mem_singleton.1 hk, hnew, Dict.get_set_self]
  · by_cases hkey : key = job.key
    · rw [hkey] at hk ⊢
      obtain rfl := Option.some.inj ((Dict.get_set_self _ _ _).symm.trans hk)
      exact ⟨List.mem_append_right _ (List.mem_singleton_self _), by rw [hnew]⟩
    · obtain ⟨hactive, hown⟩ := h.held key k ((Dict.get_set_of_ne hkey _ _).symm.trans hk)
      exact ⟨List.mem_append_left _ hactive, by rw [hold k hactive, hown]⟩

lemma Locked.cancelAll (h : Locked r) : Locked (r.cancelAll limit).1 := by
  have hloop : ∀ jobs, Locked (r.cancelLoop limit jobs).1 := by
    intro jobs
    induction jobs with
    | nil => exact h
    | cons j jobs ih =>
      rw [cancelLoop]
      split
      · exact Locked.transition h j .cancelled
      · exact ih
  exact hloop r.active

lemma Locked.call (h : Locked r) (c : Call) : Locked (r.call limit c) := by
  cases c with
  | create source_server_id target_server_id target_path =>
    unfold JobRegistry.call
    dsimp only
    split
    · exact h
    · rename_i hfree
      exact h.create (Option.not_isSome_iff_eq_none.1 hfree)
  | transition j state =>
    unfold JobRegistry.call
    dsimp only
    split
    · exact h.transition j state
    · exact h
  | clearHistory => exact ⟨h.created, h.holds, h.held⟩
  | cancelAll => exact h.cancelAll

/-- Whatever is called, the active jobs hold the locks of their targets. -/
theorem locked_after (limit : ℕ) (calls : List Call) : Locked (after (call limit) {} calls) :=
  inv_after ⟨fun _ h => absurd h List.not_mem_nil, fun _ h => absurd h List.not_mem_nil,
    fun _ j h => absurd h (Option.some_ne_none j).symm⟩ fun _ c h => h.call c

/-! ### Directories -/

/-- Two spellings of one directory are one to the registry: no two active jobs write to it, and everyone sees its
holder. -/
def LocksIdentify (r : JobRegistry) : Prop :=
  (∀ j ∈ r.active, ∀ k ∈ r.active, j ≠ k → (r.job j).target_server_id = (r.job k).target_server_id →
    denotes (r.job j).target_path ≠ denotes (r.job k).target_path) ∧
  ∀ server_id p q, denotes p = denotes q → r.targetLockHolder server_id p = r.targetLockHolder server_id q

/-- The path is absolute, and not the root. -/
def BelowRoot (p : Text) : Prop := (denotes p).rooted = true ∧ (denotes p).components ≠ []

instance (p : Text) : Decidable (BelowRoot p) := inferInstanceAs (Decidable (_ ∧ _))

lemma targetKey_eq_iff {s s' p q : Text} : targetKey s p = targetKey s' q ↔ s = s' ∧ spelling p = spelling q :=
  Prod.mk.injEq .. ▸ Iff.rfl

/-- What is not below the root has one spelling. -/
lemma spelling_eq_of_denotes {p q : Text} (h : denotes p = denotes q) (hp : ¬ BelowRoot p) :
    spelling p = spelling q := by
  refine spelling_eq_iff.2 ⟨h, fun hcomps => ?_⟩
  have hrooted : (denotes p).rooted = false := Bool.not_eq_true _ ▸ fun e => hp ⟨e, hcomps⟩
  have hzero : ∀ p : Text, (denotes p).rooted = false → initialSlashes p = 0 := by
    intro p hp
    rw [denotes_rooted, decide_eq_false_iff_not, not_not] at hp
    exact hp
  rw [hzero p hrooted, hzero q (h ▸ hrooted)]

/-- Whatever is called, a lock is the lock of its directory exactly as long as no active job writes below the root by
its absolute path. -/
theorem locks_identify_iff (limit : ℕ) (calls : List Call) :
    let r := after (call limit) {} calls
    LocksIdentify r ↔ ∀ j ∈ r.active, ¬ BelowRoot (r.job j).target_path := by
  intro r
  have h : Locked r := locked_after limit calls
  constructor
  · rintro ⟨-, hholder⟩ j hj ⟨hrooted, hcomps⟩
    -- the other spelling of its directory has another holder, or none
    obtain ⟨q, hq, hne⟩ := exists_other_spelling hrooted hcomps
    have hsame := hholder (r.job j).target_server_id (r.job j).target_path q hq.symm
    have hj : r.targetLockHolder (r.job j).target_server_id (r.job j).target_path = some j := h.holds j hj
    have hkey := (h.held _ j (hsame.symm.trans hj)).2
    exact hne (targetKey_eq_iff.1 hkey).2.symm
  · intro hnone
    constructor
    · intro j hj k hk hne hserver hdir
      have hkey : (r.job j).key = (r.job k).key :=
        targetKey_eq_iff.2 ⟨hserver, spelling_eq_of_denotes hdir (hnone j hj)⟩
      have hlock := h.holds j hj
      rw [hkey, h.holds k hk] at hlock
      exact hne (Option.some.inj hlock).symm
    · intro server_id p q hdir
      by_cases hp : BelowRoot p
      · -- nobody holds a lock of this directory
        have hfree : ∀ p, BelowRoot p → r.targetLockHolder server_id p = none := by
          intro p hp
          refine Option.eq_none_iff_forall_ne_some.2 fun j hj => ?_
          obtain ⟨hactive, hkey⟩ := h.held _ j hj
          have hspelling := (targetKey_eq_iff.1 hkey).2
          have hsame := (spelling_eq_iff.1 hspelling).1
          exact hnone j hactive ⟨hsame ▸ hp.1, hsame ▸ hp.2⟩
        rw [hfree p hp, hfree q ⟨hdir ▸ hp.1, hdir ▸ hp.2⟩]
      · exact congrArg r.target_locks.get (targetKey_eq_iff.2 ⟨rfl, spelling_eq_of_denotes hdir hp⟩)

/-- Two jobs write to `/data` at once. -/
theorem locks_identify_not :
    ¬ ∀ (limit : ℕ) (calls : List Call), LocksIdentify (after (call limit) {} calls) := by
  intro h
  have hdata := (h 10 [.create "a".toList "b".toList "/data".toList, .create "a".toList "b".toList "//data".toList]).1
  exact hdata 0 (by decide) 1 (by decide) (by decide) (by decide) (by decide)

end JobRegistry
end SshGpuConsole.Transfers
