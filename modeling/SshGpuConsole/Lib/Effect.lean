import Mathlib

/-!
# Programs that call an environment

`Prog` is a sequential program whose every step is a call: an operation is handed to the environment,
which answers or raises. What the environment may do is a `Sem`, an operation acting on a state under a
choice; a run takes its choices from a stream. `wp` is the weakest precondition of a program over all
choices a guard admits, with an assertion that has to hold whenever a call is pending; it is compositional
(`wp_bind`, `wp_handle`) and it speaks about runs (`wp_exec`, `wp_pending`).
-/

namespace Effect

/-- A program over operations `Op`, an operation `o` being answered by an `Ans o`. -/
inductive Prog (Op : Type) (Ans : Op → Type) (ε α : Type) : Type where
  | ret (a : α)
  | raise (e : ε)
  | call (o : Op) (k : Except ε (Ans o) → Prog Op Ans ε α)

section Programs
variable {Op Op' : Type} {Ans : Op → Type} {Ans' : Op' → Type} {ε α β γ : Type}

namespace Prog

/-- Run the first program, then the second on its value. -/
protected def bind : Prog Op Ans ε α → (α → Prog Op Ans ε β) → Prog Op Ans ε β
  | ret a, f => f a
  | raise e, _ => raise e
  | call o k, f => call o fun r => Prog.bind (k r) f

/-- Run the program, and the handler on what it raises. -/
def handle : Prog Op Ans ε α → (ε → Prog Op Ans ε α) → Prog Op Ans ε α
  | ret a, _ => ret a
  | raise e, h => h e
  | call o k, h => call o fun r => handle (k r) h

/-- An answer as a program. -/
def answer : Except ε α → Prog Op Ans ε α
  | .ok a => ret a
  | .error e => raise e

/-- Call one operation. -/
def perform (o : Op) : Prog Op Ans ε (Ans o) := call o answer

instance : Monad (Prog Op Ans ε) where
  pure := ret
  bind := Prog.bind

instance : MonadExceptOf ε (Prog Op Ans ε) where
  throw := raise
  tryCatch := handle

/-- Run the program and swallow the exceptions of a kind. -/
def suppress (kind : ε → Bool) (p : Prog Op Ans ε Unit) : Prog Op Ans ε Unit :=
  handle p fun e => if kind e then ret () else raise e

/-- Run the program, then the second one whether or not the first raised. -/
def andFinally (p : Prog Op Ans ε α) (q : Prog Op Ans ε Unit) : Prog Op Ans ε α :=
  Prog.bind (handle (Prog.bind p fun a => ret (Except.ok a)) fun e => ret (Except.error e)) fun r =>
    Prog.bind q fun _ => answer r

/-- Run the program, and hand on the exceptions of a kind as values. -/
def catching (kind : ε → Bool) (p : Prog Op Ans ε α) : Prog Op Ans ε (Except ε α) :=
  handle (Prog.bind p fun a => ret (Except.ok a)) fun e => if kind e then ret (Except.error e) else raise e

/-- The program in another environment, which has its operations and its exceptions among others. -/
def embed {ε' : Type} (f : Op → Op') (ans : ∀ o, Ans' (f o) → Ans o) (up : ε → ε') (down : ε' → ε) :
    Prog Op Ans ε α → Prog Op' Ans' ε' α
  | ret a => ret a
  | raise e => raise (up e)
  | call o k => call (f o) fun r => embed f ans up down (k ((r.map (ans o)).mapError down))

/-- The program over a larger set of operations. -/
def liftL : Prog Op Ans ε α → Prog (Op ⊕ Op') (Sum.elim Ans Ans') ε α
  | ret a => ret a
  | raise e => raise e
  | call o k => call (.inl o) fun r => liftL (k r)

@[simp] lemma pure_eq (a : α) : (pure a : Prog Op Ans ε α) = ret a := rfl
@[simp] lemma throw_eq (e : ε) : (throw e : Prog Op Ans ε α) = raise e := rfl
@[simp] lemma bind_eq (p : Prog Op Ans ε α) (f : α → Prog Op Ans ε β) : p >>= f = p.bind f := rfl
@[simp] lemma tryCatch_eq (p : Prog Op Ans ε α) (h : ε → Prog Op Ans ε α) :
    tryCatch p h = handle p h := rfl

lemma ret_bind (a : α) (f : α → Prog Op Ans ε β) : (ret a : Prog Op Ans ε α).bind f = f a := rfl

lemma bind_assoc (p : Prog Op Ans ε α) (f : α → Prog Op Ans ε β) (g : β → Prog Op Ans ε γ) :
    (p.bind f).bind g = p.bind fun a => (f a).bind g := by
  induction p with
  | ret a => rfl
  | raise e => rfl
  | call o k ih =>
    show call o (fun r => ((k r).bind f).bind g) = call o fun r => (k r).bind fun a => (f a).bind g
    exact congrArg (call o) (funext ih)

end Prog
end Programs

open Prog

/-- What an operation does to the state and answers, given a choice of the environment. -/
structure Sem (Op : Type) (Ans : Op → Type) (ε σ χ : Type) where
  act : (o : Op) → χ → σ → Except ε (Ans o) × σ

/-- Two environments side by side, each with its own operations and its own state. -/
def Sem.sum {Op Op' : Type} {Ans : Op → Type} {Ans' : Op' → Type} {ε σ τ χ : Type} (M : Sem Op Ans ε σ χ)
    (N : Sem Op' Ans' ε τ χ) : Sem (Op ⊕ Op') (Sum.elim Ans Ans') ε (σ × τ) χ where
  act
    | .inl o, c, s => ((M.act o c s.1).1, (M.act o c s.1).2, s.2)
    | .inr o, c, s => ((N.act o c s.2).1, s.1, (N.act o c s.2).2)

@[simp] lemma Sem.sum_act_inl {Op Op' : Type} {Ans : Op → Type} {Ans' : Op' → Type} {ε σ τ χ : Type}
    (M : Sem Op Ans ε σ χ) (N : Sem Op' Ans' ε τ χ) (o : Op) (c : χ) (s : σ × τ) :
    (M.sum N).act (.inl o) c s = ((M.act o c s.1).1, (M.act o c s.1).2, s.2) := rfl

@[simp] lemma Sem.sum_act_inr {Op Op' : Type} {Ans : Op → Type} {Ans' : Op' → Type} {ε σ τ χ : Type}
    (M : Sem Op Ans ε σ χ) (N : Sem Op' Ans' ε τ χ) (o : Op') (c : χ) (s : σ × τ) :
    (M.sum N).act (.inr o) c s = ((N.act o c s.2).1, s.1, (N.act o c s.2).2) := rfl

section Runs
variable {Op Op' : Type} {Ans : Op → Type} {Ans' : Op' → Type} {ε α β σ χ : Type}

/-- The choices behind the first. -/
def later (c : ℕ → χ) : ℕ → χ := fun n => c (n + 1)

/-- Run a program on a stream of choices: its result, the state it leaves and the choices it leaves. -/
def exec (M : Sem Op Ans ε σ χ) : Prog Op Ans ε α → σ → (ℕ → χ) → Except ε α × σ × (ℕ → χ)
  | ret a, s, c => (.ok a, s, c)
  | raise e, s, c => (.error e, s, c)
  | call o k, s, c => exec M (k (M.act o (c 0) s).1) (M.act o (c 0) s).2 (later c)

/-- The calls of a run, each with the state it finds. -/
def pending (M : Sem Op Ans ε σ χ) : Prog Op Ans ε α → σ → (ℕ → χ) → List (Op × σ)
  | ret _, _, _ => []
  | raise _, _, _ => []
  | call o k, s, c => (o, s) :: pending M (k (M.act o (c 0) s).1) (M.act o (c 0) s).2 (later c)

/-- Every choice the run makes is admitted by the guard. -/
def Meets (M : Sem Op Ans ε σ χ) (G : Op → σ → χ → Prop) : Prog Op Ans ε α → σ → (ℕ → χ) → Prop
  | ret _, _, _ => True
  | raise _, _, _ => True
  | call o k, s, c => G o s (c 0) ∧ Meets M G (k (M.act o (c 0) s).1) (M.act o (c 0) s).2 (later c)

/-- From the state, every admitted run ends in the postcondition, and the assertion holds at every call. -/
def wp (M : Sem Op Ans ε σ χ) (G : Op → σ → χ → Prop) (I : Op → σ → Prop) :
    Prog Op Ans ε α → (Except ε α → σ → Prop) → σ → Prop
  | ret a, Q, s => Q (.ok a) s
  | raise e, Q, s => Q (.error e) s
  | call o k, Q, s => I o s ∧ ∀ c, G o s c → wp M G I (k (M.act o c s).1) Q (M.act o c s).2

variable {M : Sem Op Ans ε σ χ} {G : Op → σ → χ → Prop} {I : Op → σ → Prop}

/-- A postcondition for a program, from one for what follows its value. -/
def seqPost (f : α → σ → Prop) (g : ε → σ → Prop) : Except ε α → σ → Prop
  | .ok a, s => f a s
  | .error e, s => g e s

@[simp] lemma seqPost_ok (f : α → σ → Prop) (g : ε → σ → Prop) (a : α) (s : σ) :
    seqPost f g (.ok a) s = f a s := rfl

@[simp] lemma seqPost_error (f : α → σ → Prop) (g : ε → σ → Prop) (e : ε) (s : σ) :
    seqPost f g (.error e) s = g e s := rfl

@[simp] lemma wp_ret (a : α) (Q : Except ε α → σ → Prop) (s : σ) :
    wp M G I (ret a) Q s ↔ Q (.ok a) s := Iff.rfl

@[simp] lemma wp_raise (e : ε) (Q : Except ε α → σ → Prop) (s : σ) :
    wp M G I (raise e) Q s ↔ Q (.error e) s := Iff.rfl

lemma wp_answer (r : Except ε α) (Q : Except ε α → σ → Prop) (s : σ) :
    wp M G I (answer r) Q s ↔ Q r s := by
  cases r with
  | ok a => exact Iff.rfl
  | error e => exact Iff.rfl

/-- One call. -/
lemma wp_perform (o : Op) (Q : Except ε (Ans o) → σ → Prop) (s : σ) :
    wp M G I (perform o) Q s ↔ I o s ∧ ∀ c, G o s c → Q (M.act o c s).1 (M.act o c s).2 := by
  simp only [perform, wp, wp_answer]

/-- Sequencing. -/
lemma wp_bind (p : Prog Op Ans ε α) (f : α → Prog Op Ans ε β) (Q : Except ε β → σ → Prop) (s : σ) :
    wp M G I (p.bind f) Q s ↔
      wp M G I p (seqPost (fun a => wp M G I (f a) Q) fun e => Q (.error e)) s := by
  induction p generalizing s with
  | ret a => exact Iff.rfl
  | raise e => exact Iff.rfl
  | call o k ih =>
    simp only [Prog.bind, wp, ih]

/-- Catching. -/
lemma wp_handle (p : Prog Op Ans ε α) (h : ε → Prog Op Ans ε α) (Q : Except ε α → σ → Prop) (s : σ) :
    wp M G I (handle p h) Q s ↔
      wp M G I p (seqPost (fun a => Q (.ok a)) fun e => wp M G I (h e) Q) s := by
  induction p generalizing s with
  | ret a => exact Iff.rfl
  | raise e => exact Iff.rfl
  | call o k ih =>
    simp only [handle, wp, ih]

/-- Consequence. -/
lemma wp_mono {p : Prog Op Ans ε α} {Q R : Except ε α → σ → Prop} (h : ∀ r s, Q r s → R r s) {s : σ}
    (hp : wp M G I p Q s) : wp M G I p R s := by
  induction p generalizing s with
  | ret a => exact h _ _ hp
  | raise e => exact h _ _ hp
  | call o k ih =>
    obtain ⟨hi, hk⟩ := hp
    exact ⟨hi, fun c hc => ih _ (hk c hc)⟩

/-- Branching. -/
lemma wp_ite {b : Prop} [Decidable b] {p q : Prog Op Ans ε α} {Q : Except ε α → σ → Prop} {s : σ}
    (hp : b → wp M G I p Q s) (hq : ¬b → wp M G I q Q s) : wp M G I (if b then p else q) Q s := by
  by_cases h : b
  · rw [if_pos h]
    exact hp h
  · rw [if_neg h]
    exact hq h

/-- Sequencing, from a postcondition of the first program. -/
lemma wp_bind_of {p : Prog Op Ans ε α} {f : α → Prog Op Ans ε β} {R : Except ε α → σ → Prop}
    {Q : Except ε β → σ → Prop} {s : σ} (hp : wp M G I p R s)
    (hok : ∀ a s, R (.ok a) s → wp M G I (f a) Q s) (herr : ∀ e s, R (.error e) s → Q (.error e) s) :
    wp M G I (p.bind f) Q s := by
  rw [wp_bind]
  refine wp_mono (fun r s hr => ?_) hp
  cases r with
  | ok a => exact hok a s hr
  | error e => exact herr e s hr

/-- Catching, from a postcondition of the program. -/
lemma wp_handle_of {p : Prog Op Ans ε α} {h : ε → Prog Op Ans ε α} {R Q : Except ε α → σ → Prop} {s : σ}
    (hp : wp M G I p R s) (hok : ∀ a s, R (.ok a) s → Q (.ok a) s)
    (herr : ∀ e s, R (.error e) s → wp M G I (h e) Q s) : wp M G I (handle p h) Q s := by
  rw [wp_handle]
  refine wp_mono (fun r s hr => ?_) hp
  cases r with
  | ok a => exact hok a s hr
  | error e => exact herr e s hr

/-- A finally clause that keeps what the program established. -/
lemma wp_andFinally {p : Prog Op Ans ε α} {q : Prog Op Ans ε Unit} {R Q : Except ε α → σ → Prop} {s : σ}
    (hp : wp M G I p R s) (hq : ∀ r s, R r s → wp M G I q (seqPost (fun _ => Q r) fun e => Q (.error e)) s) :
    wp M G I (andFinally p q) Q s := by
  have hlast : ∀ r s, R r s → wp M G I (q.bind fun _ => answer r) Q s := by
    intro r s hr
    rw [wp_bind]
    refine wp_mono (fun r' s' h => ?_) (hq r s hr)
    cases r' with
    | ok u => exact (wp_answer r Q s').2 h
    | error e => exact h
  rw [andFinally]
  refine wp_bind_of (R := seqPost (fun r s => R r s) fun _ _ => False) ?_ hlast fun _ _ h => h.elim
  refine wp_handle_of (R := seqPost (seqPost (fun a s => R (.ok a) s) fun _ _ => False) fun e s => R (.error e) s)
    ?_ ?_ fun e s h => h
  · exact wp_bind_of hp (fun a s h => h) fun e s h => h
  · intro r s h
    cases r with
    | ok a => exact h
    | error e => exact h.elim

/-- Swallowing exceptions keeps a postcondition that does not look at the result. -/
lemma wp_suppress {kind : ε → Bool} {p : Prog Op Ans ε Unit} {Q : σ → Prop} {s : σ}
    (hp : wp M G I p (fun _ => Q) s) : wp M G I (suppress kind p) (fun _ => Q) s := by
  rw [suppress, wp_handle]
  refine wp_mono (fun r s hq => ?_) hp
  cases r with
  | ok a => exact hq
  | error e =>
    rw [seqPost_error]
    split <;> exact hq

/-- Handing on exceptions, from a postcondition of the program. -/
lemma wp_catching {kind : ε → Bool} {p : Prog Op Ans ε α} {R : Except ε α → σ → Prop}
    {Q : Except ε (Except ε α) → σ → Prop} {s : σ} (hp : wp M G I p R s)
    (hok : ∀ a s, R (.ok a) s → Q (.ok (.ok a)) s)
    (hcaught : ∀ e s, kind e = true → R (.error e) s → Q (.ok (.error e)) s)
    (hraised : ∀ e s, kind e = false → R (.error e) s → Q (.error e) s) :
    wp M G I (catching kind p) Q s := by
  rw [catching, wp_handle, wp_bind]
  refine wp_mono (fun r s h => ?_) hp
  cases r with
  | ok a => exact hok a s h
  | error e =>
    show wp M G I (if kind e = true then ret (Except.error e) else raise e) Q s
    exact wp_ite (fun hk => hcaught e s hk h) fun hk => hraised e s (Bool.eq_false_iff.2 hk) h

/-- A program keeps its weakest preconditions in an environment its own environment is part of: the state is
seen through `get` and changed through `put`. -/
lemma wp_embed {ε' σ' χ' : Type} {N : Sem Op' Ans' ε' σ' χ'} {G' : Op' → σ' → χ' → Prop} {f : Op → Op'}
    {ans : ∀ o, Ans' (f o) → Ans o} {up : ε → ε'} {down : ε' → ε} {get : σ' → σ} {put : σ → σ' → σ'} {view : χ' → χ}
    (hget : ∀ t s, get (put t s) = t) (hput : ∀ t t' s, put t' (put t s) = put t' s) (hself : ∀ s, put (get s) s = s)
    (hans : ∀ o c s, (((N.act (f o) c s).1.map (ans o)).mapError down) = (M.act o (view c) (get s)).1)
    (hact : ∀ o c s, (N.act (f o) c s).2 = put (M.act o (view c) (get s)).2 s)
    (hguard : ∀ o s c, G' (f o) s c → G o (get s) (view c)) {p : Prog Op Ans ε α}
    {Q : Except ε' α → σ' → Prop} {s : σ'}
    (hp : wp M G (fun _ _ => True) p (fun r t => Q (r.mapError up) (put t s)) (get s)) :
    wp N G' (fun _ _ => True) (embed f ans up down p) Q s := by
  induction p generalizing s with
  | ret a => exact hself s ▸ (show Q (.ok a) (put (get s) s) from hp)
  | raise e => exact hself s ▸ (show Q (.error (up e)) (put (get s) s) from hp)
  | call o k ih =>
    refine ⟨trivial, fun c hc => ?_⟩
    have hk := hp.2 (view c) (hguard o s c hc)
    show wp N G' (fun _ _ => True)
      (embed f ans up down (k (((N.act (f o) c s).1.map (ans o)).mapError down))) Q (N.act (f o) c s).2
    rw [hans]
    refine ih _ ?_
    rw [hact, hget]
    exact wp_mono (fun r t h => by rwa [hput]) hk

/-- A program of the first environment does not touch the state of the second. -/
lemma wp_liftL {τ : Type} {N : Sem Op' Ans' ε τ χ} {G : Op ⊕ Op' → σ × τ → χ → Prop}
    {I : Op ⊕ Op' → σ × τ → Prop} (p : Prog Op Ans ε α) (Q : Except ε α → σ × τ → Prop) (s : σ) (t : τ) :
    wp (M.sum N) G I (liftL p) Q (s, t) ↔
      wp M (fun o s => G (.inl o) (s, t)) (fun o s => I (.inl o) (s, t)) p (fun r s => Q r (s, t)) s := by
  induction p generalizing s with
  | ret a => exact Iff.rfl
  | raise e => exact Iff.rfl
  | call o k ih =>
    simp only [liftL, wp, Sem.sum_act_inl, ih]

/-! ### Programs of a kind of call -/

/-- Every call of the program is of a kind. -/
def Prog.Only (P : Op → Prop) : Prog Op Ans ε α → Prop
  | ret _ => True
  | raise _ => True
  | call o k => P o ∧ ∀ r, (k r).Only P

variable {P : Op → Prop} {p : Prog Op Ans ε α}

namespace Prog.Only

lemma perform {o : Op} (h : P o) : (Prog.perform o : Prog Op Ans ε (Ans o)).Only P :=
  ⟨h, fun r => match r with
    | .ok _ => trivial
    | .error _ => trivial⟩

lemma bind {f : α → Prog Op Ans ε β} (hp : p.Only P) (hf : ∀ a, (f a).Only P) : (p.bind f).Only P := by
  induction p with
  | ret a => exact hf a
  | raise e => trivial
  | call o k ih => exact ⟨hp.1, fun r => ih r (hp.2 r)⟩

lemma handle {h : ε → Prog Op Ans ε α} (hp : p.Only P) (hh : ∀ e, (h e).Only P) : (p.handle h).Only P := by
  induction p with
  | ret a => trivial
  | raise e => exact hh e
  | call o k ih => exact ⟨hp.1, fun r => ih r (hp.2 r)⟩

lemma ite {b : Prop} [Decidable b] {q : Prog Op Ans ε α} (hp : p.Only P) (hq : q.Only P) :
    (if b then p else q).Only P := by
  split
  · exact hp
  · exact hq

lemma suppress {kind : ε → Bool} {p : Prog Op Ans ε Unit} (hp : p.Only P) : (p.suppress kind).Only P :=
  hp.handle fun _ => ite trivial trivial

lemma catching {kind : ε → Bool} (hp : p.Only P) : (p.catching kind).Only P := by
  refine handle (bind hp fun a => ?_) fun e => ite ?_ ?_
  · exact trivial
  · exact trivial
  · exact trivial

lemma andFinally {q : Prog Op Ans ε Unit} (hp : p.Only P) (hq : q.Only P) : (p.andFinally q).Only P := by
  refine bind (handle (bind hp fun a => ?_) fun e => ?_) fun r => bind hq fun _ => ?_
  · exact trivial
  · exact trivial
  · cases r with
    | ok a => exact trivial
    | error e => exact trivial

lemma embed {ε' : Type} {P : Op' → Prop} {f : Op → Op'} {ans : ∀ o, Ans' (f o) → Ans o} {up : ε → ε'}
    {down : ε' → ε} (hp : p.Only fun o => P (f o)) : (p.embed f ans up down).Only P := by
  induction p with
  | ret a => trivial
  | raise e => trivial
  | call o k ih => exact ⟨hp.1, fun r => ih _ (hp.2 _)⟩

lemma mono {P' : Op → Prop} (hp : p.Only P) (h : ∀ o, P o → P' o) : p.Only P' := by
  induction p with
  | ret a => trivial
  | raise e => trivial
  | call o k ih => exact ⟨h o hp.1, fun r => ih r (hp.2 r)⟩

end Prog.Only

/-- What every call of the kind keeps, the program keeps. -/
lemma wp_only {K : σ → Prop} (hK : ∀ o, P o → ∀ s c, K s → K (M.act o c s).2) (hp : p.Only P) {s : σ} (hs : K s) :
    wp M G (fun _ _ => True) p (fun _ => K) s := by
  induction p generalizing s with
  | ret a => exact hs
  | raise e => exact hs
  | call o k ih => exact ⟨trivial, fun c _ => ih _ (hp.2 _) (hK o hp.1 s c hs)⟩

/-- Every run ends. -/
lemma wp_true (p : Prog Op Ans ε α) (s : σ) : wp M G (fun _ _ => True) p (fun _ _ => True) s := by
  induction p generalizing s with
  | ret a => trivial
  | raise e => trivial
  | call o k ih => exact ⟨trivial, fun c _ => ih _ _⟩

/-- Two postconditions of one program. -/
lemma wp_and {Q R : Except ε α → σ → Prop} {s : σ} (hq : wp M G I p Q s) (hr : wp M G I p R s) :
    wp M G I p (fun r s => Q r s ∧ R r s) s := by
  induction p generalizing s with
  | ret a => exact ⟨hq, hr⟩
  | raise e => exact ⟨hq, hr⟩
  | call o k ih => exact ⟨hq.1, fun c hc => ih _ (hq.2 c hc) (hr.2 c hc)⟩

/-- A run of a program with a weakest precondition ends in the postcondition. -/
theorem wp_exec {p : Prog Op Ans ε α} {Q : Except ε α → σ → Prop} {s : σ} {c : ℕ → χ}
    (hp : wp M G I p Q s) (hc : Meets M G p s c) : Q (exec M p s c).1 (exec M p s c).2.1 := by
  induction p generalizing s c with
  | ret a => exact hp
  | raise e => exact hp
  | call o k ih => exact ih _ (hp.2 _ hc.1) hc.2

/-- The assertion holds at every call of such a run. -/
theorem wp_pending {p : Prog Op Ans ε α} {Q : Except ε α → σ → Prop} {s : σ} {c : ℕ → χ}
    (hp : wp M G I p Q s) (hc : Meets M G p s c) : ∀ x ∈ pending M p s c, I x.1 x.2 := by
  induction p generalizing s c with
  | ret a => exact fun x hx => absurd hx List.not_mem_nil
  | raise e => exact fun x hx => absurd hx List.not_mem_nil
  | call o k ih =>
    intro x hx
    rcases List.mem_cons.1 hx with rfl | hx
    · exact hp.1
    · exact ih _ (hp.2 _ hc.1) hc.2 x hx

/-- A guard that holds of every choice of the stream. -/
lemma meets_of_forall {p : Prog Op Ans ε α} {s : σ} {c : ℕ → χ} (h : ∀ n o s, G o s (c n)) :
    Meets M G p s c := by
  induction p generalizing s c with
  | ret a => trivial
  | raise e => trivial
  | call o k ih => exact ⟨h 0 o s, ih _ fun n => h (n + 1)⟩

/-! ### Runs of composed programs -/

@[simp] lemma exec_ret (a : α) (s : σ) (c : ℕ → χ) : exec M (ret a) s c = (.ok a, s, c) := rfl

@[simp] lemma exec_raise (e : ε) (s : σ) (c : ℕ → χ) :
    exec M (raise e : Prog Op Ans ε α) s c = (.error e, s, c) := rfl

/-- A run by its result. -/
lemma exec_of_result {p : Prog Op Ans ε α} {s : σ} {c : ℕ → χ} {r : Except ε α} (h : (exec M p s c).1 = r) :
    exec M p s c = (r, (exec M p s c).2.1, (exec M p s c).2.2) := by
  rw [← h]

lemma exec_perform (o : Op) (s : σ) (c : ℕ → χ) :
    exec M (perform o) s c = ((M.act o (c 0) s).1, (M.act o (c 0) s).2, later c) := by
  rw [perform, exec]
  cases (M.act o (c 0) s).1 <;> rfl

lemma exec_bind (p : Prog Op Ans ε α) (f : α → Prog Op Ans ε β) (s : σ) (c : ℕ → χ) :
    exec M (p.bind f) s c = match exec M p s c with
      | (.ok a, s', c') => exec M (f a) s' c'
      | (.error e, s', c') => (.error e, s', c') := by
  induction p generalizing s c with
  | ret a => rfl
  | raise e => rfl
  | call o k ih => exact ih _ _ _

lemma exec_bind_of_ok {p : Prog Op Ans ε α} {f : α → Prog Op Ans ε β} {s s' : σ} {c c' : ℕ → χ} {a : α}
    (h : exec M p s c = (.ok a, s', c')) : exec M (p.bind f) s c = exec M (f a) s' c' := by
  rw [exec_bind, h]

lemma exec_bind_of_error {p : Prog Op Ans ε α} {f : α → Prog Op Ans ε β} {s s' : σ} {c c' : ℕ → χ} {e : ε}
    (h : exec M p s c = (.error e, s', c')) : exec M (p.bind f) s c = (.error e, s', c') := by
  rw [exec_bind, h]

lemma exec_handle (p : Prog Op Ans ε α) (h : ε → Prog Op Ans ε α) (s : σ) (c : ℕ → χ) :
    exec M (handle p h) s c = match exec M p s c with
      | (.ok a, s', c') => (.ok a, s', c')
      | (.error e, s', c') => exec M (h e) s' c' := by
  induction p generalizing s c with
  | ret a => rfl
  | raise e => rfl
  | call o k ih => exact ih _ _ _

lemma exec_catching (kind : ε → Bool) (p : Prog Op Ans ε α) (s : σ) (c : ℕ → χ) :
    exec M (catching kind p) s c = match exec M p s c with
      | (.ok a, s', c') => (.ok (.ok a), s', c')
      | (.error e, s', c') => (if kind e then .ok (.error e) else .error e, s', c') := by
  rw [catching, exec_handle, exec_bind]
  rcases exec M p s c with ⟨r, s', c'⟩
  cases r with
  | ok a => rfl
  | error e => cases hk : kind e <;> simp [hk]

/-- A run leaves the choices behind those it made. -/
lemma exec_rest (p : Prog Op Ans ε α) (s : σ) (c : ℕ → χ) :
    ∃ n, (exec M p s c).2.2 = fun i => c (i + n) := by
  induction p generalizing s c with
  | ret a => exact ⟨0, rfl⟩
  | raise e => exact ⟨0, rfl⟩
  | call o k ih =>
    obtain ⟨n, hn⟩ := ih (M.act o (c 0) s).1 (M.act o (c 0) s).2 (later c)
    exact ⟨n + 1, hn⟩

lemma exec_suppress_of_ok {k : ε → Bool} {p : Prog Op Ans ε Unit} {s s' : σ} {c c' : ℕ → χ}
    (h : exec M p s c = (.ok (), s', c')) : exec M (suppress k p) s c = (.ok (), s', c') := by
  rw [suppress, exec_handle, h]

lemma exec_suppress_of_error {k : ε → Bool} {p : Prog Op Ans ε Unit} {s s' : σ} {c c' : ℕ → χ} {e : ε}
    (h : exec M p s c = (.error e, s', c')) :
    exec M (suppress k p) s c = (if k e then .ok () else .error e, s', c') := by
  rw [suppress, exec_handle, h]
  cases hk : k e <;> simp [hk]

/-- The second program runs on what the first leaves, and its exception takes precedence. -/
lemma exec_andFinally (p : Prog Op Ans ε α) (q : Prog Op Ans ε Unit) (s : σ) (c : ℕ → χ) :
    exec M (andFinally p q) s c =
      match exec M q (exec M p s c).2.1 (exec M p s c).2.2 with
      | (.ok _, s', c') => ((exec M p s c).1, s', c')
      | (.error e, s', c') => (.error e, s', c') := by
  rw [andFinally, exec_bind, exec_handle, exec_bind]
  rcases exec M p s c with ⟨r, s', c'⟩
  cases r with
  | ok a =>
    simp only [exec_ret, exec_bind]
    rcases exec M q s' c' with ⟨_ | _, _, _⟩ <;> rfl
  | error e =>
    simp only [exec_ret, exec_bind]
    rcases exec M q s' c' with ⟨_ | _, _, _⟩ <;> rfl

/-- A second program that returns leaves the result of the first. -/
lemma exec_andFinally_of_ok {p : Prog Op Ans ε α} {q : Prog Op Ans ε Unit} {s s₁ s₂ : σ} {c c₁ c₂ : ℕ → χ}
    {r : Except ε α} (hp : exec M p s c = (r, s₁, c₁)) (hq : exec M q s₁ c₁ = (.ok (), s₂, c₂)) :
    exec M (andFinally p q) s c = (r, s₂, c₂) := by
  rw [exec_andFinally, hp, hq]

/-- The exception of the second program takes precedence. -/
lemma exec_andFinally_of_error {p : Prog Op Ans ε α} {q : Prog Op Ans ε Unit} {s s₁ s₂ : σ} {c c₁ c₂ : ℕ → χ}
    {r : Except ε α} {e : ε} (hp : exec M p s c = (r, s₁, c₁)) (hq : exec M q s₁ c₁ = (.error e, s₂, c₂)) :
    exec M (andFinally p q) s c = (.error e, s₂, c₂) := by
  rw [exec_andFinally, hp, hq]

end Runs

/-! ### Programs by their answers -/

section Answers
variable {Op : Type} {Ans : Op → Type} {ε α β σ χ : Type}

/-- Whatever the calls are answered, as far as the answers are of a kind, the values of the program are as wanted. -/
def Prog.Yields (A : (o : Op) → Except ε (Ans o) → Prop) (Q : α → Prop) : Prog Op Ans ε α → Prop
  | ret a => Q a
  | raise _ => True
  | call o k => ∀ r, A o r → (k r).Yields A Q

variable {A : (o : Op) → Except ε (Ans o) → Prop} {p : Prog Op Ans ε α} {Q R : α → Prop}

namespace Prog.Yields

lemma any (p : Prog Op Ans ε α) : p.Yields A fun _ => True := by
  induction p with
  | ret a => trivial
  | raise e => trivial
  | call o k ih => exact fun r _ => ih r

lemma mono (hp : p.Yields A Q) (h : ∀ a, Q a → R a) : p.Yields A R := by
  induction p with
  | ret a => exact h a hp
  | raise e => trivial
  | call o k ih => exact fun r hr => ih r (hp r hr)

lemma bind {f : α → Prog Op Ans ε β} {R : β → Prop} (hp : p.Yields A Q) (hf : ∀ a, Q a → (f a).Yields A R) :
    (p.bind f).Yields A R := by
  induction p with
  | ret a => exact hf a hp
  | raise e => trivial
  | call o k ih => exact fun r hr => ih r (hp r hr)

/-- Behind any value of the first program. -/
lemma bind_any {f : α → Prog Op Ans ε β} {R : β → Prop} (hf : ∀ a, (f a).Yields A R) : (p.bind f).Yields A R :=
  (any p).bind fun a _ => hf a

lemma perform (o : Op) : (Prog.perform o : Prog Op Ans ε (Ans o)).Yields A fun a => A o (.ok a) := by
  intro r hr
  cases r with
  | ok a => exact hr
  | error e => trivial

lemma catching {kind : ε → Bool} {Q : Except ε α → Prop} (hp : p.Yields A fun a => Q (.ok a))
    (herror : ∀ e, Q (.error e)) : (Prog.catching kind p).Yields A Q := by
  induction p with
  | ret a => exact hp
  | raise e =>
    show (if kind e = true then ret (Except.error e) else raise e : Prog Op Ans ε (Except ε α)).Yields A Q
    split
    · exact herror e
    · trivial
  | call o k ih => exact fun r hr => ih r (hp r hr)

end Prog.Yields

/-- In an environment that gives such answers, a run that returns returns a value as wanted. -/
theorem yields_exec {M : Sem Op Ans ε σ χ} (hA : ∀ o c s, A o (M.act o c s).1) (hp : p.Yields A Q) {s : σ} {c : ℕ → χ}
    {a : α} (h : (exec M p s c).1 = .ok a) : Q a := by
  induction p generalizing s c with
  | ret b =>
    cases h
    exact hp
  | raise e => cases h
  | call o k ih => exact ih _ (hp _ (hA o (c 0) s)) h

end Answers

end Effect
