import SshGpuConsole.Lib.Effect

/-!
# Interleaved programs

Programs that share one state, a scheduler picking whose next call is made. A call that leaves the state is
silent; a program that writes once makes one call that is not silent and only reads behind it. A run in which
no step disturbs the programs under way (`Undisturbed`) is explained by a serial order of its programs
(`serializable`).
-/

namespace Effect
open Prog

section Interleaving
variable {Op : Type} {Ans : Op → Type} {ε α σ χ ι : Type}

/-- A program with the choices of its calls. -/
structure Task (Op : Type) (Ans : Op → Type) (ε α χ : Type) where
  program : Prog Op Ans ε α
  choices : ℕ → χ

/-- The state, and what is left of each program. -/
structure Pool (Op : Type) (Ans : Op → Type) (ε α σ χ ι : Type) where
  state : σ
  rest : ι → Task Op Ans ε α χ
  /-- The programs that have changed the state. -/
  wrote : ι → Bool

/-- What a program that has come to its end gives. -/
def outcome : Prog Op Ans ε α → Option (Except ε α)
  | ret a => some (.ok a)
  | raise e => some (.error e)
  | call _ _ => none

variable (M : Sem Op Ans ε σ χ)

/-- The next call of a task, if there is one. -/
def Task.advance (t : Task Op Ans ε α χ) (s : σ) : Task Op Ans ε α χ × σ :=
  match t.program with
  | call o k => (⟨k (M.act o (t.choices 0) s).1, later t.choices⟩, (M.act o (t.choices 0) s).2)
  | _ => (t, s)

/-- The run of a task by itself. -/
def Task.run (t : Task Op Ans ε α χ) (s : σ) : Except ε α := (exec M t.program s t.choices).1

section Scheduling
variable [DecidableEq ι] [DecidableEq σ]

/-- The next call of the task `i`. -/
def Pool.tick (P : Pool Op Ans ε α σ χ ι) (i : ι) : Pool Op Ans ε α σ χ ι where
  state := ((P.rest i).advance M P.state).2
  rest := Function.update P.rest i ((P.rest i).advance M P.state).1
  wrote := Function.update P.wrote i (P.wrote i || ((P.rest i).advance M P.state).2 ≠ P.state)

/-- The pool before any call. -/
def Pool.start (s : σ) (tasks : ι → Task Op Ans ε α χ) : Pool Op Ans ε α σ χ ι := ⟨s, tasks, fun _ => false⟩

/-- The pool after the calls of a schedule. -/
def Pool.after (P : Pool Op Ans ε α σ χ ι) (schedule : List ι) : Pool Op Ans ε α σ χ ι := schedule.foldl (Pool.tick M) P

end Scheduling

/-- In the state, the first task comes to the second by silent calls. -/
inductive Silent (s : σ) : Task Op Ans ε α χ → Task Op Ans ε α χ → Prop
  | refl (t) : Silent s t t
  | step {o k c t} (h : (M.act o (c 0) s).2 = s) (hk : Silent s ⟨k (M.act o (c 0) s).1, later c⟩ t) :
      Silent s ⟨call o k, c⟩ t

/-- A change of the state to `s'` leaves the task undisturbed: it has changed nothing and would stand where it
stands in the new state as well, or it only reads from here on and its result stays. -/
def Undisturbed (R : Op → Prop) (first : Task Op Ans ε α χ) (P : Pool Op Ans ε α σ χ ι) (j : ι) (s' : σ) : Prop :=
  P.wrote j = false ∧ Silent M s' first (P.rest j) ∨
    (P.rest j).program.Only R ∧ (P.rest j).run M s' = (P.rest j).run M P.state

section Scheduling
variable [DecidableEq ι] [DecidableEq σ]

/-- Every step of the schedule that changes the state leaves the other tasks undisturbed. -/
def Calm (R : Op → Prop) (tasks : ι → Task Op Ans ε α χ) : Pool Op Ans ε α σ χ ι → List ι → Prop
  | _, [] => True
  | P, i :: schedule =>
    ((P.tick M i).state ≠ P.state → ∀ j, j ≠ i → Undisturbed M R (tasks j) P j (P.tick M i).state) ∧
      Calm R tasks (P.tick M i) schedule

end Scheduling

/-- The tasks one after the other: the result of each, and the state behind them. -/
def serial (tasks : ι → Task Op Ans ε α χ) : σ → List ι → List (Except ε α) × σ
  | s, [] => ([], s)
  | s, i :: order =>
    let r := exec M (tasks i).program s (tasks i).choices
    (r.1 :: (serial tasks r.2.1 order).1, (serial tasks r.2.1 order).2)

/-- At most one call that is no read, and only reads behind it. -/
def Prog.WritesOnce (R : Op → Prop) : Prog Op Ans ε α → Prop
  | ret _ => True
  | raise _ => True
  | call o k => R o ∧ (∀ r, (k r).WritesOnce R) ∨ ∀ r, (k r).Only R

variable {M}

/-! ### Programs that write once -/

namespace Prog.WritesOnce
variable {R : Op → Prop} {β : Type}

lemma of_only {p : Prog Op Ans ε α} (h : p.Only R) : p.WritesOnce R := by
  induction p with
  | ret a => trivial
  | raise e => trivial
  | call o k ih => exact .inl ⟨h.1, fun r => ih r (h.2 r)⟩

/-- Reads first. -/
lemma bind {p : Prog Op Ans ε α} {f : α → Prog Op Ans ε β} (hp : p.Only R) (hf : ∀ a, (f a).WritesOnce R) :
    (p.bind f).WritesOnce R := by
  induction p with
  | ret a => exact hf a
  | raise e => trivial
  | call o k ih => exact .inl ⟨hp.1, fun r => ih r (hp.2 r)⟩

/-- The write, and reads behind it. -/
lemma perform_bind {o : Op} {f : Ans o → Prog Op Ans ε β} (hf : ∀ a, (f a).Only R) :
    ((Prog.perform o).bind f : Prog Op Ans ε β).WritesOnce R :=
  .inr fun r => match r with
    | .ok a => hf a
    | .error _ => trivial

/-- Reads behind a program that writes once. -/
lemma bind_reads {p : Prog Op Ans ε α} {f : α → Prog Op Ans ε β} (hp : p.WritesOnce R) (hf : ∀ a, (f a).Only R) :
    (p.bind f).WritesOnce R := by
  induction p with
  | ret a => exact of_only (hf a)
  | raise e => trivial
  | call o k ih =>
    rcases hp with ⟨ho, hk⟩ | hk
    · exact .inl ⟨ho, fun r => ih r (hk r)⟩
    · exact .inr fun r => Prog.Only.bind (hk r) hf

lemma ite {b : Prop} [Decidable b] {p q : Prog Op Ans ε α} (hp : p.WritesOnce R) (hq : q.WritesOnce R) :
    (if b then p else q).WritesOnce R := by
  split
  · exact hp
  · exact hq

end Prog.WritesOnce

/-! ### Silent calls -/

variable {s s' : σ} {first t t' : Task Op Ans ε α χ}

/-- A silent start does not show in the run of the task. -/
lemma Silent.exec_eq (h : Silent M s first t) :
    exec M first.program s first.choices = exec M t.program s t.choices := by
  induction h with
  | refl => rfl
  | @step o k c t hs hk ih =>
    have hcall : exec M (call o k) s c = exec M (k (M.act o (c 0) s).1) (M.act o (c 0) s).2 (later c) := rfl
    rw [hcall, hs]
    exact ih

/-- One more silent call. -/
lemma Silent.advance (h : Silent M s first t) (hs : (t.advance M s).2 = s) : Silent M s first (t.advance M s).1 := by
  induction h with
  | refl t =>
    obtain ⟨p, c⟩ := t
    cases p with
    | ret a => exact .refl _
    | raise e => exact .refl _
    | call o k => exact .step hs (.refl _)
  | step hstep hk ih => exact .step hstep (ih hs)

lemma exec_only {R : Op → Prop} (hR : ∀ o, R o → ∀ c s, (M.act o c s).2 = s) {p : Prog Op Ans ε α} (hp : p.Only R)
    (s : σ) (c : ℕ → χ) : (exec M p s c).2.1 = s := by
  induction p generalizing c with
  | ret a => rfl
  | raise e => rfl
  | call o k ih =>
    have hs := hR o hp.1 (c 0) s
    have hcall : exec M (call o k) s c = exec M (k (M.act o (c 0) s).1) (M.act o (c 0) s).2 (later c) := rfl
    rw [hcall, hs]
    exact ih _ (hp.2 _) _

/-- What a task gives does not depend on whether its next call was made. -/
lemma run_advance (t : Task Op Ans ε α χ) (s : σ) : (t.advance M s).1.run M (t.advance M s).2 = t.run M s := by
  obtain ⟨p, c⟩ := t
  cases p with
  | ret a => rfl
  | raise e => rfl
  | call o k => rfl

lemma exec_advance (t : Task Op Ans ε α χ) (s : σ) :
    exec M t.program s t.choices =
      exec M (t.advance M s).1.program (t.advance M s).2 (t.advance M s).1.choices := by
  obtain ⟨p, c⟩ := t
  cases p with
  | ret a => rfl
  | raise e => rfl
  | call o k => rfl

lemma only_advance {R : Op → Prop} (h : t.program.Only R) (s : σ) : (t.advance M s).1.program.Only R := by
  obtain ⟨p, c⟩ := t
  cases p with
  | ret a => exact h
  | raise e => exact h
  | call o k => exact h.2 _

lemma state_advance_of_only {R : Op → Prop} (hR : ∀ o, R o → ∀ c s, (M.act o c s).2 = s) (h : t.program.Only R) (s : σ) :
    (t.advance M s).2 = s := by
  obtain ⟨p, c⟩ := t
  cases p with
  | ret a => rfl
  | raise e => rfl
  | call o k => exact hR o h.1 (c 0) s

/-- Behind the call that changes the state, a program that writes once only reads. -/
lemma only_of_write {R : Op → Prop} (hR : ∀ o, R o → ∀ c s, (M.act o c s).2 = s) (ht : t.program.WritesOnce R)
    (hs : (t.advance M s).2 ≠ s) : (t.advance M s).1.program.Only R := by
  obtain ⟨p, c⟩ := t
  cases p with
  | ret a => exact absurd rfl hs
  | raise e => exact absurd rfl hs
  | call o k =>
    rcases ht with ⟨ho, -⟩ | hk
    · exact absurd (hR o ho (c 0) s) hs
    · exact hk _

lemma Silent.writesOnce {R : Op → Prop} (h : Silent M s first t) (hf : first.program.WritesOnce R) :
    t.program.WritesOnce R := by
  induction h with
  | refl => exact hf
  | step hs hk ih =>
    rcases hf with ⟨-, hall⟩ | hall
    · exact ih (hall _)
    · exact ih (WritesOnce.of_only (hall _))

/-! ### A serial history of a state -/

variable (M) in
/-- How a state comes about: tasks run one after the other, the last one first in the list, each with whether it
changed the state. -/
inductive Explains (tasks : ι → Task Op Ans ε α χ) (f : ι → Except ε α) (s₀ : σ) : List (ι × Bool) → σ → Prop
  | nil : Explains tasks f s₀ [] s₀
  | reader {l s i c} (h : Explains tasks f s₀ l s)
      (hi : exec M (tasks i).program s (tasks i).choices = (f i, s, c)) : Explains tasks f s₀ ((i, false) :: l) s
  | writer {l s i s' c} (h : Explains tasks f s₀ l s)
      (hi : exec M (tasks i).program s (tasks i).choices = (f i, s', c)) : Explains tasks f s₀ ((i, true) :: l) s'

section Histories
variable {tasks : ι → Task Op Ans ε α χ} {f g : ι → Except ε α} {s₀ : σ} {l : List (ι × Bool)}

lemma Explains.congr (h : Explains M tasks f s₀ l s) (hfg : ∀ x ∈ l, f x.1 = g x.1) : Explains M tasks g s₀ l s := by
  induction h with
  | nil => exact .nil
  | reader h hi ih =>
    rw [hfg _ List.mem_cons_self] at hi
    exact .reader (ih fun x hx => hfg x (List.mem_cons_of_mem _ hx)) hi
  | writer h hi ih =>
    rw [hfg _ List.mem_cons_self] at hi
    exact .writer (ih fun x hx => hfg x (List.mem_cons_of_mem _ hx)) hi

/-- Tasks that changed nothing may be left out. -/
lemma Explains.filter (h : Explains M tasks f s₀ l s) {p : ι × Bool → Bool}
    (hp : ∀ x ∈ l, p x = false → x.2 = false) : Explains M tasks f s₀ (l.filter p) s := by
  induction h with
  | nil => exact .nil
  | @reader l s i c h hi ih =>
    have ih' := ih fun x hx => hp x (List.mem_cons_of_mem _ hx)
    cases hx : p (i, false) with
    | true =>
      rw [List.filter_cons_of_pos hx]
      exact .reader ih' hi
    | false =>
      rw [List.filter_cons_of_neg (by rw [hx]; exact Bool.false_ne_true)]
      exact ih'
  | @writer l s i s' c h hi ih =>
    have ih' := ih fun x hx => hp x (List.mem_cons_of_mem _ hx)
    cases hx : p (i, true) with
    | true =>
      rw [List.filter_cons_of_pos hx]
      exact .writer ih' hi
    | false => cases hp (i, true) List.mem_cons_self hx

/-- Tasks that change nothing may be put behind. -/
lemma Explains.readers (h : Explains M tasks f s₀ l s) {js : List ι}
    (hjs : ∀ j ∈ js, ∃ c, exec M (tasks j).program s (tasks j).choices = (f j, s, c)) :
    Explains M tasks f s₀ (js.map (fun j => (j, false)) ++ l) s := by
  induction js with
  | nil => exact h
  | cons j js ih =>
    obtain ⟨c, hc⟩ := hjs j List.mem_cons_self
    exact .reader (ih fun k hk => hjs k (List.mem_cons_of_mem j hk)) hc

lemma serial_append (s : σ) (order : List ι) (i : ι) :
    serial M tasks s (order ++ [i]) =
      ((serial M tasks s order).1 ++
          [(exec M (tasks i).program (serial M tasks s order).2 (tasks i).choices).1],
        (exec M (tasks i).program (serial M tasks s order).2 (tasks i).choices).2.1) := by
  induction order generalizing s with
  | nil => rfl
  | cons j order ih => simp only [List.cons_append, serial, ih]

/-- The history is a serial run. -/
lemma Explains.serial (h : Explains M tasks f s₀ l s) :
    serial M tasks s₀ (l.map Prod.fst).reverse = ((l.map Prod.fst).reverse.map f, s) := by
  induction h with
  | nil => rfl
  | reader h hi ih => rw [List.map_cons, List.reverse_cons, serial_append, ih, hi, List.map_append, List.map_singleton]
  | writer h hi ih => rw [List.map_cons, List.reverse_cons, serial_append, ih, hi, List.map_append, List.map_singleton]

end Histories

/-! ### Runs -/

section Runs
variable {R : Op → Prop} {tasks : ι → Task Op Ans ε α χ} {s₀ : σ}
  {P : Pool Op Ans ε α σ χ ι} {l : List (ι × Bool)}

variable (M R tasks s₀) in
/-- A history explains the pool: it has the tasks that changed the state, and of every other one either the
history has it, and it only reads from here on, or it would stand where it stands if it started now. -/
structure Explained (P : Pool Op Ans ε α σ χ ι) (l : List (ι × Bool)) : Prop where
  history : Explains M tasks (fun j => (P.rest j).run M P.state) s₀ l P.state
  nodup : (l.map Prod.fst).Nodup
  task : ∀ j, P.wrote j = false ∧ Silent M P.state (tasks j) (P.rest j) ∨
    j ∈ l.map Prod.fst ∧ (P.rest j).program.Only R
  writer : ∀ j, (j, true) ∈ l → P.wrote j = true

lemma explained_start (s : σ) : Explained M R tasks s (Pool.start s tasks) [] where
  history := .nil
  nodup := List.nodup_nil
  task _ := .inl ⟨rfl, .refl _⟩
  writer _ h := absurd h List.not_mem_nil

/-- A task that may go into the history at once: it stands where it would stand, and only reads from here on. -/
lemma exec_of_silent (hR : ∀ o, R o → ∀ c s, (M.act o c s).2 = s) {j : ι} (h : Silent M P.state (tasks j) (P.rest j))
    (ho : (P.rest j).program.Only R) :
    ∃ c, exec M (tasks j).program P.state (tasks j).choices = ((P.rest j).run M P.state, P.state, c) := by
  have hstate := exec_only hR ho P.state (P.rest j).choices
  refine ⟨(exec M (P.rest j).program P.state (P.rest j).choices).2.2, ?_⟩
  rw [h.exec_eq, Task.run]
  exact Prod.ext rfl (Prod.ext hstate rfl)

/-- A task at its end only reads, and gives what it gave. -/
lemma finished {t : Task Op Ans ε α χ} {r : Except ε α} (h : outcome t.program = some r) (s : σ) :
    t.program.Only R ∧ t.run M s = r := by
  obtain ⟨p, c⟩ := t
  cases p with
  | ret a => exact ⟨trivial, Option.some.inj h⟩
  | raise e => exact ⟨trivial, Option.some.inj h⟩
  | call o k => cases h

variable [DecidableEq ι] [DecidableEq σ]

lemma tick_rest_self (P : Pool Op Ans ε α σ χ ι) (i : ι) : (P.tick M i).rest i = ((P.rest i).advance M P.state).1 :=
  Function.update_self ..

lemma tick_rest_of_ne {i j : ι} (h : j ≠ i) : (P.tick M i).rest j = P.rest j := Function.update_of_ne h ..

lemma tick_wrote_of_ne {i j : ι} (h : j ≠ i) : (P.tick M i).wrote j = P.wrote j := Function.update_of_ne h ..

lemma tick_wrote_self (P : Pool Op Ans ε α σ χ ι) (i : ι) :
    (P.tick M i).wrote i = (P.wrote i || decide ((P.tick M i).state ≠ P.state)) := Function.update_self ..

/-- A step that leaves the state keeps the history. -/
lemma explained_silent (h : Explained M R tasks s₀ P l) {i : ι} (hs : (P.tick M i).state = P.state) :
    Explained M R tasks s₀ (P.tick M i) l := by
  have hrun : ∀ j, ((P.tick M i).rest j).run M (P.tick M i).state = (P.rest j).run M P.state := by
    intro j
    rcases eq_or_ne j i with rfl | hj
    · rw [tick_rest_self]
      exact run_advance _ _
    · rw [tick_rest_of_ne hj, hs]
  have hwrote : (P.tick M i).wrote = P.wrote := by
    funext j
    rcases eq_or_ne j i with rfl | hj
    · rw [tick_wrote_self, decide_eq_false (not_not.2 hs), Bool.or_false]
    · exact tick_wrote_of_ne hj
  refine ⟨?_, h.nodup, fun j => ?_, fun j hj => hwrote ▸ h.writer j hj⟩
  · rw [hs]
    exact h.history.congr fun x _ => (hs ▸ hrun x.1).symm
  · rw [hwrote, hs]
    rcases eq_or_ne j i with rfl | hj
    · rw [tick_rest_self]
      exact (h.task j).imp (fun ht => ⟨ht.1, ht.2.advance hs⟩) fun ht => ⟨ht.1, only_advance ht.2 _⟩
    · rw [tick_rest_of_ne hj]
      exact h.task j

/-- A step that changes the state goes to the end of the history, behind the tasks that read what it changes. -/
lemma explained_change [Fintype ι] (hR : ∀ o, R o → ∀ c s, (M.act o c s).2 = s)
    (honce : ∀ i, (tasks i).program.WritesOnce R) (h : Explained M R tasks s₀ P l) {i : ι}
    (hs : (P.tick M i).state ≠ P.state)
    (hcalm : ∀ j, j ≠ i → Undisturbed M R (tasks j) P j (P.tick M i).state) :
    ∃ l', Explained M R tasks s₀ (P.tick M i) l' := by
  classical
  -- the writer was not in its reads only, so it stands where it would stand
  obtain ⟨hunwritten, hopen⟩ := (h.task i).resolve_right fun hr => hs (state_advance_of_only hR hr.2 _)
  -- the tasks whose result the step leaves
  let stays : ι → Prop := fun j =>
    (P.rest j).program.Only R ∧ (P.rest j).run M (P.tick M i).state = (P.rest j).run M P.state
  let kept := l.filter fun x => x.1 ≠ i ∧ stays x.1
  let readers := (Finset.univ.filter fun j => j ≠ i ∧ stays j ∧ j ∉ l.map Prod.fst).toList
  have hreaders : ∀ j, j ∈ readers ↔ j ≠ i ∧ stays j ∧ j ∉ l.map Prod.fst := fun j => by
    rw [Finset.mem_toList, Finset.mem_filter]
    exact and_iff_right (Finset.mem_univ j)
  have hkept : ∀ j, j ∈ kept.map Prod.fst → j ≠ i ∧ stays j ∧ j ∈ l.map Prod.fst := by
    intro j hj
    obtain ⟨x, hx, rfl⟩ := List.mem_map.1 hj
    obtain ⟨hl, hp⟩ := List.mem_filter.1 hx
    obtain ⟨hne, hst⟩ := of_decide_eq_true hp
    exact ⟨hne, hst, List.mem_map_of_mem hl⟩
  -- what is left out of the history had changed nothing
  have hdropped : ∀ x ∈ l, decide (x.1 ≠ i ∧ stays x.1) = false → x.2 = false := by
    rintro ⟨j, w⟩ hx hp
    cases w with
    | false => rfl
    | true =>
      have hw := h.writer j hx
      have hji : j ≠ i := fun e => by
        rw [e, hunwritten] at hw
        cases hw
      have hst : stays j := (hcalm j hji).resolve_left fun hu => by
        rw [hw] at hu
        cases hu.1
      exact absurd (And.intro hji hst) (of_decide_eq_false hp)
  have hread : ∀ j ∈ readers, ∃ c, exec M (tasks j).program P.state (tasks j).choices =
      ((P.rest j).run M P.state, P.state, c) := by
    intro j hj
    obtain ⟨-, hst, hnew⟩ := (hreaders j).1 hj
    exact exec_of_silent hR ((h.task j).resolve_right fun hr => hnew hr.1).2 hst.1
  have hold := (h.history.filter hdropped).readers hread
  -- results in the new state
  have hresult : ∀ x ∈ readers.map (fun j => (j, false)) ++ kept,
      (P.rest x.1).run M P.state = ((P.tick M i).rest x.1).run M (P.tick M i).state := by
    intro x hx
    have hboth : x.1 ≠ i ∧ stays x.1 := by
      rcases List.mem_append.1 hx with hx | hx
      · obtain ⟨j, hj, rfl⟩ := List.mem_map.1 hx
        exact ⟨((hreaders j).1 hj).1, ((hreaders j).1 hj).2.1⟩
      · exact ⟨(hkept x.1 (List.mem_map_of_mem hx)).1, (hkept x.1 (List.mem_map_of_mem hx)).2.1⟩
    rw [tick_rest_of_ne hboth.1]
    exact hboth.2.2.symm
  have hafter : ((P.tick M i).rest i).program.Only R := by
    rw [tick_rest_self]
    exact only_of_write hR (hopen.writesOnce (honce i)) hs
  have hwriter : ∃ c, exec M (tasks i).program P.state (tasks i).choices =
      (((P.tick M i).rest i).run M (P.tick M i).state, (P.tick M i).state, c) := by
    have hstate := exec_only hR hafter (P.tick M i).state ((P.tick M i).rest i).choices
    refine ⟨(exec M ((P.tick M i).rest i).program (P.tick M i).state ((P.tick M i).rest i).choices).2.2, ?_⟩
    rw [hopen.exec_eq, exec_advance, Task.run]
    rw [tick_rest_self] at hstate ⊢
    exact Prod.ext rfl (Prod.ext hstate rfl)
  obtain ⟨c, hc⟩ := hwriter
  refine ⟨(i, true) :: (readers.map (fun j => (j, false)) ++ kept), .writer (hold.congr hresult) hc, ?_, ?_, ?_⟩
  · have hmap : (readers.map (fun j => (j, false)) ++ kept).map Prod.fst = readers ++ kept.map Prod.fst := by
      rw [List.map_append, List.map_map]
      exact congrArg (· ++ _) (List.map_id _)
    have hsub : (kept.map Prod.fst).Nodup := h.nodup.sublist (List.filter_sublist.map Prod.fst)
    rw [List.map_cons, hmap, List.nodup_cons, List.nodup_append]
    refine ⟨fun hi => ?_, Finset.nodup_toList _, hsub, fun j hj k hk e => ?_⟩
    · rcases List.mem_append.1 hi with hi | hi
      · exact ((hreaders i).1 hi).1 rfl
      · exact (hkept i hi).1 rfl
    · exact ((hreaders j).1 hj).2.2 (e ▸ (hkept k hk).2.2)
  · intro j
    rcases eq_or_ne j i with rfl | hj
    · exact .inr ⟨List.mem_map.2 ⟨(j, true), List.mem_cons_self, rfl⟩, hafter⟩
    · rw [tick_rest_of_ne hj, tick_wrote_of_ne hj]
      refine (hcalm j hj).imp id fun hst => ⟨?_, hst.1⟩
      by_cases hin : j ∈ l.map Prod.fst
      · obtain ⟨x, hx, rfl⟩ := List.mem_map.1 hin
        refine List.mem_map.2 ⟨x, List.mem_cons_of_mem _ (List.mem_append_right _ ?_), rfl⟩
        exact List.mem_filter.2 ⟨hx, decide_eq_true ⟨hj, hst⟩⟩
      · refine List.mem_map.2 ⟨(j, false), List.mem_cons_of_mem _ (List.mem_append_left _ ?_), rfl⟩
        exact List.mem_map_of_mem ((hreaders j).2 ⟨hj, hst, hin⟩)
  · intro j hj
    rcases List.mem_cons.1 hj with he | hj
    · obtain rfl : j = i := congrArg Prod.fst he
      rw [tick_wrote_self, decide_eq_true hs, Bool.or_true]
    · rcases List.mem_append.1 hj with hj | hj
      · obtain ⟨k, -, hk⟩ := List.mem_map.1 hj
        cases hk
      · rw [tick_wrote_of_ne (hkept j (List.mem_map_of_mem hj)).1]
        exact h.writer j (List.mem_of_mem_filter hj)

/-- Every state of a calm run has a history. -/
lemma explained_after [Fintype ι] (hR : ∀ o, R o → ∀ c s, (M.act o c s).2 = s)
    (honce : ∀ i, (tasks i).program.WritesOnce R) (h : Explained M R tasks s₀ P l) {schedule : List ι}
    (hcalm : Calm M R tasks P schedule) : ∃ l', Explained M R tasks s₀ (P.after M schedule) l' := by
  induction schedule generalizing P l with
  | nil => exact ⟨l, h⟩
  | cons i schedule ih =>
    obtain ⟨hstep, hrest⟩ := hcalm
    by_cases hs : (P.tick M i).state = P.state
    · exact ih (explained_silent h hs) hrest
    · obtain ⟨l', hl'⟩ := explained_change hR honce h hs (hstep hs)
      exact ih hl' hrest

variable (M tasks s₀) in
/-- The tasks, one after the other in some order, give the results and the state of the pool. -/
def Pool.IsSerial (P : Pool Op Ans ε α σ χ ι) : Prop :=
  ∃ order : List ι, order.Nodup ∧ (∀ i, i ∈ order) ∧ (serial M tasks s₀ order).2 = P.state ∧
    (serial M tasks s₀ order).1.map some = order.map fun i => outcome (P.rest i).program

/-- A calm run that came to its end is a serial one. -/
theorem serializable [Fintype ι] (hR : ∀ o, R o → ∀ c s, (M.act o c s).2 = s)
    (honce : ∀ i, (tasks i).program.WritesOnce R) {schedule : List ι}
    (hcalm : Calm M R tasks (Pool.start s₀ tasks) schedule)
    (hdone : ∀ i, (outcome (((Pool.start s₀ tasks).after M schedule).rest i).program).isSome) :
    ((Pool.start s₀ tasks).after M schedule).IsSerial M tasks s₀ := by
  classical
  obtain ⟨l, h⟩ := explained_after hR honce (explained_start s₀) hcalm
  generalize (Pool.start s₀ tasks).after M schedule = P at h hdone
  have hend : ∀ i, (P.rest i).program.Only R ∧ outcome (P.rest i).program = some ((P.rest i).run M P.state) := by
    intro i
    obtain ⟨r, hr⟩ := Option.isSome_iff_exists.1 (hdone i)
    obtain ⟨honly, hrun⟩ := finished (M := M) (R := R) hr P.state
    exact ⟨honly, hr.trans (congrArg some hrun.symm)⟩
  -- the tasks the history does not have changed nothing and go behind it
  let others := (Finset.univ.filter fun j => j ∉ l.map Prod.fst).toList
  have hothers : ∀ j, j ∈ others ↔ j ∉ l.map Prod.fst := fun j => by
    rw [Finset.mem_toList, Finset.mem_filter]
    exact and_iff_right (Finset.mem_univ j)
  have hread : ∀ j ∈ others, ∃ c, exec M (tasks j).program P.state (tasks j).choices =
      ((P.rest j).run M P.state, P.state, c) := fun j hj =>
    exec_of_silent hR ((h.task j).resolve_right fun hr => (hothers j).1 hj hr.1).2 (hend j).1
  have hserial := (h.history.readers hread).serial
  have hmap : (others.map (fun j => (j, false)) ++ l).map Prod.fst = others ++ l.map Prod.fst := by
    rw [List.map_append, List.map_map]
    exact congrArg (· ++ _) (List.map_id _)
  rw [hmap] at hserial
  refine ⟨(others ++ l.map Prod.fst).reverse, ?_, fun i => ?_, ?_, ?_⟩
  · rw [List.nodup_reverse, List.nodup_append]
    exact ⟨Finset.nodup_toList _, h.nodup, fun j hj k hk e => (hothers j).1 hj (e ▸ hk)⟩
  · rw [List.mem_reverse, List.mem_append]
    by_cases hi : i ∈ l.map Prod.fst
    · exact .inr hi
    · exact .inl ((hothers i).2 hi)
  · rw [hserial]
  · rw [hserial, List.map_map]
    exact List.map_congr_left fun i _ => ((hend i).2).symm

end Runs

end Interleaving

end Effect
