import SshGpuConsole.Lib.Effect
import SshGpuConsole.Lib.Json

/-!
# JSON stores

`JsonFileStore` (`persistence/json_store.py`) and the stores over it: records in memory, changed first and saved
then, and loaded from the file by a fresh instance. A save that raises leaves the file as it was, a save that
returns leaves the document (`ensures_save`); what that means for a store is `Store.Faithful`, and
`Store.faithful_performed_iff` says when it holds.
-/

namespace SshGpuConsole.Persistence
open Shell (Text)
open Effect (Prog Sem exec wp)

/-- What a file holds. -/
inductive File where
  | missing
  /-- Not a JSON document. -/
  | unreadable (content : Text)
  | document (v : Json.Value)

/-- The file of a store, and the temporary file of a save. -/
structure Disk where
  target : File
  temporary : File

inductive FileOp where
  /-- `parent.mkdir` -/
  | mkdir
  /-- `tempfile.mkstemp` and `os.fdopen` -/
  | mkstemp
  /-- `json.dump` into the temporary file -/
  | dump (v : Json.Value)
  /-- the last `write`, `flush`, `fsync` and the close of the `with` block -/
  | finish
  /-- `os.replace` -/
  | replace
  /-- `os.unlink` of the temporary file -/
  | unlink

/-- What a file operation raises. -/
inductive FileError where
  | os
  /-- Any other `BaseException`. -/
  | other
  deriving DecidableEq, Repr

/-- What an operation does when it does not raise. -/
def FileOp.perform : FileOp → Disk → Disk
  | .mkdir, d => d
  | .mkstemp, d => { d with temporary := .unreadable [] }
  | .dump v, d => { d with temporary := .document v }
  | .finish, d => d
  | .replace, d => ⟨d.temporary, .missing⟩
  | .unlink, d => { d with temporary := .missing }

/-- Any operation may raise, and then leaves the file of the store. -/
def fileSystem : Sem FileOp (fun _ => Unit) FileError Disk (Option FileError) where
  act
    | o, none, d => (.ok (), o.perform d)
    | _, some e, d => (.error e, d)

abbrev Saving := Prog FileOp (fun _ => Unit) FileError Unit

def onDisk (o : FileOp) : Saving := Prog.perform o

/-- The `with` block, and the replacement of the file behind it. -/
def writeAndReplace (value : Json.Value) : Saving := do
  Prog.andFinally (onDisk (.dump value)) (onDisk .finish)
  onDisk .replace

/-- `JsonFileStore.save`. -/
def save (value : Json.Value) : Saving := do
  onDisk .mkdir
  onDisk .mkstemp
  Prog.handle (writeAndReplace value) fun e => do
    Prog.suppress (· = .os) (onDisk .unlink)
    throw e

def Ensures (p : Saving) (Q : Except FileError Unit → Disk → Prop) (d : Disk) : Prop :=
  wp fileSystem (fun _ _ _ => True) (fun _ _ => True) p Q d

section Saves
variable {value : Json.Value} {d : Disk}

lemma ensures_onDisk (o : FileOp) {Q : Except FileError Unit → Disk → Prop} (hok : Q (.ok ()) (o.perform d))
    (herr : ∀ e, Q (.error e) d) : Ensures (onDisk o) Q d := by
  refine (Effect.wp_perform _ _ _).2 ⟨trivial, fun c _ => ?_⟩
  cases c with
  | none => exact hok
  | some e => exact herr e

/-- The temporary file is complete, or the block raised; the file of the store is as it was. -/
lemma ensures_block : Ensures (Prog.andFinally (onDisk (.dump value)) (onDisk .finish))
    (fun r d' => d'.target = d.target ∧ (r = .ok () → d'.temporary = .document value)) d := by
  have hdump : Ensures (onDisk (.dump value))
      (fun r d' => d'.target = d.target ∧ (r = .ok () → d'.temporary = .document value)) d :=
    ensures_onDisk _ ⟨rfl, fun _ => rfl⟩ fun e => ⟨rfl, fun h => by cases h⟩
  refine Effect.wp_andFinally hdump fun r d' h => ?_
  exact ensures_onDisk .finish h fun e => ⟨h.1, fun he => by cases he⟩

lemma ensures_writeAndReplace : Ensures (writeAndReplace value)
    (Effect.seqPost (fun _ d' => d'.target = .document value) fun _ d' => d'.target = d.target) d := by
  refine Effect.wp_bind_of ensures_block (fun a d' h => ?_) fun e d' h => h.1
  exact ensures_onDisk .replace (h.2 rfl) fun e => h.1

/-- The handler raises again, and leaves the file of the store. -/
lemma ensures_cleanUp (e : FileError) : Ensures
    (Prog.bind (Prog.suppress (· = .os) (onDisk .unlink)) fun _ => Prog.raise e)
    (Effect.seqPost (fun _ _ => False) fun _ d' => d'.target = d.target) d := by
  rw [Ensures, Effect.wp_bind, Prog.suppress, Effect.wp_handle]
  refine ensures_onDisk .unlink rfl fun f => ?_
  exact Effect.wp_ite (fun _ => rfl) fun _ => rfl

/-- A save that returns leaves the document, one that raises leaves the file. -/
theorem ensures_save : Ensures (save value)
    (Effect.seqPost (fun _ d' => d'.target = .document value) fun _ d' => d'.target = d.target) d := by
  refine Effect.wp_bind_of (ensures_onDisk .mkdir rfl fun _ => rfl : Ensures (onDisk .mkdir) (fun _ d' => d'.target = d.target) d)
    (fun _ d₁ h₁ => ?_) fun _ _ h => h
  refine Effect.wp_bind_of (ensures_onDisk .mkstemp h₁ fun _ => h₁ : Ensures (onDisk .mkstemp) (fun _ d' => d'.target = d.target) d₁)
    (fun _ d₂ h₂ => ?_) fun _ _ h => h
  rw [← h₂]
  refine Effect.wp_handle_of ensures_writeAndReplace (fun _ _ h => h) fun e d₃ h₃ => ?_
  refine Effect.wp_mono (fun r d₄ h₄ => ?_) (ensures_cleanUp e)
  cases r with
  | ok u => exact h₄.elim
  | error f => exact (show d₄.target = d₃.target from h₄).trans h₃

/-- The run of a save on its choices. -/
abbrev saving (value : Json.Value) (d : Disk) (c : ℕ → Option FileError) : Except FileError Unit × Disk :=
  ((exec fileSystem (save value) d c).1, (exec fileSystem (save value) d c).2.1)

lemma saving_spec (value : Json.Value) (d : Disk) (c : ℕ → Option FileError) :
    Effect.seqPost (fun _ d' => d'.target = .document value) (fun _ d' => d'.target = d.target)
      (saving value d c).1 (saving value d c).2 :=
  Effect.wp_exec ensures_save (Effect.meets_of_forall fun _ _ _ => trivial)

end Saves

/-! ### Stores -/

/-- A store: the operations that may change its records, and how its records are written and loaded. -/
structure Store (μ ω ε : Type) where
  /-- The records an operation puts in memory, to be saved then; or nothing, when it returns without a save; or
  what it raises before. -/
  change : ω → μ → Except ε (Option μ)
  dump : μ → Json.Value
  /-- The records of a fresh instance, unless its constructor raises. -/
  load : File → Option μ

/-- The records of an instance and the file behind it. -/
structure Backed (μ : Type) where
  memory : μ
  disk : Disk

/-- An operation with the outcomes of the file operations of its save. -/
structure Performed (ω : Type) where
  op : ω
  outcomes : ℕ → Option FileError

namespace Store
variable {μ ω ε : Type} (st : Store μ ω ε)

/-- An operation: the memory first, then the file. -/
def perform (p : Performed ω) (b : Backed μ) : Except (ε ⊕ FileError) Unit × Backed μ :=
  match st.change p.op b.memory with
  | .error e => (.error (.inl e), b)
  | .ok none => (.ok (), b)
  | .ok (some m) =>
    ((saving (st.dump m) b.disk p.outcomes).1.mapError .inr, ⟨m, (saving (st.dump m) b.disk p.outcomes).2⟩)

/-- A fresh instance has the records of this one, in their order. -/
def Synced (b : Backed μ) : Prop := st.load b.disk.target = some b.memory

/-- An operation that returns leaves memory and file alike, one that raises leaves both as they were. -/
def Faithful (p : Performed ω) (b : Backed μ) : Prop :=
  ((st.perform p b).1 = .ok () → st.Synced (st.perform p b).2) ∧
    ∀ e, (st.perform p b).1 = .error e →
      (st.perform p b).2.memory = b.memory ∧ (st.perform p b).2.disk.target = b.disk.target

/-- What the stores keep of their records, and which operations their callers ask for. -/
structure Lawful (Sound : μ → Prop) (Storable : ω → Prop) : Prop where
  sound_load : ∀ {f m}, st.load f = some m → Sound m
  sound_change : ∀ {o m m'}, Sound m → Storable o → st.change o m = .ok (some m') → Sound m'
  load_dump : ∀ {m}, Sound m → st.load (.document (st.dump m)) = some m
  /-- Records a file cannot give back. -/
  unstorable : ∀ {o m m'}, Sound m → ¬Storable o → st.change o m = .ok (some m') →
    st.load (.document (st.dump m')) ≠ some m' ∧ m' ≠ m

/-- The save the operation reaches succeeds, or it writes the records that are there. -/
def Kept (Storable : ω → Prop) (p : Performed ω) (b : Backed μ) : Prop :=
  ∀ m, st.change p.op b.memory = .ok (some m) →
    Storable p.op ∧ ((saving (st.dump m) b.disk p.outcomes).1 = .ok () ∨ m = b.memory)

/-- The state behind a run of operations. -/
def after (b : Backed μ) : List (Performed ω) → Backed μ
  | [] => b
  | p :: ps => after (st.perform p b).2 ps

/-- Every operation of the run meets the condition in its state. -/
def AllKept (Storable : ω → Prop) (b : Backed μ) : List (Performed ω) → Prop
  | [] => True
  | p :: ps => st.Kept Storable p b ∧ AllKept Storable (st.perform p b).2 ps

variable {st} {Sound : μ → Prop} {Storable : ω → Prop} {b : Backed μ}

lemma perform_error {p : Performed ω} {e : ε} (h : st.change p.op b.memory = .error e) :
    st.perform p b = (.error (.inl e), b) := by
  rw [perform, h]

lemma perform_unchanged {p : Performed ω} (h : st.change p.op b.memory = .ok none) : st.perform p b = (.ok (), b) := by
  rw [perform, h]

lemma perform_changed {p : Performed ω} {m : μ} (h : st.change p.op b.memory = .ok (some m)) :
    st.perform p b =
      ((saving (st.dump m) b.disk p.outcomes).1.mapError .inr, ⟨m, (saving (st.dump m) b.disk p.outcomes).2⟩) := by
  rw [perform, h]

/-- The save went through: the file holds the records of the memory. -/
lemma saved_target {p : Performed ω} {m : μ} (hs : (saving (st.dump m) b.disk p.outcomes).1 = .ok ()) :
    (saving (st.dump m) b.disk p.outcomes).2.target = .document (st.dump m) := by
  have h := saving_spec (st.dump m) b.disk p.outcomes
  rw [hs] at h
  exact h

/-- The save raised: the file is as it was. -/
lemma unsaved_target {p : Performed ω} {m : μ} {e : FileError}
    (hs : (saving (st.dump m) b.disk p.outcomes).1 = .error e) :
    (saving (st.dump m) b.disk p.outcomes).2.target = b.disk.target := by
  have h := saving_spec (st.dump m) b.disk p.outcomes
  rw [hs] at h
  exact h

/-- One operation, from a state where memory and file agree. -/
theorem faithful_performed_iff (h : st.Lawful Sound Storable) (hm : Sound b.memory) (hb : st.Synced b) (p : Performed ω) :
    st.Faithful p b ↔ st.Kept Storable p b := by
  cases hc : st.change p.op b.memory with
  | error e =>
    refine ⟨fun _ m hm => ?_, fun _ => ⟨fun hr => ?_, fun f hr => ?_⟩⟩
    · rw [hc] at hm
      cases hm
    · rw [perform_error hc] at hr
      cases hr
    · rw [perform_error hc]
      exact ⟨rfl, rfl⟩
  | ok next =>
    cases next with
    | none =>
      refine ⟨fun _ m hm => ?_, fun _ => ⟨fun hr => ?_, fun f hr => ?_⟩⟩
      · rw [hc] at hm
        cases hm
      · rw [perform_unchanged hc]
        exact hb
      · rw [perform_unchanged hc] at hr
        cases hr
    | some m =>
      rw [Faithful, perform_changed hc, Synced]
      cases hs : (saving (st.dump m) b.disk p.outcomes).1 with
      | ok u =>
        have htarget := saved_target hs
        constructor
        · intro hf m' hm'
          obtain rfl : m = m' := by rw [hc] at hm'; cases hm'; rfl
          refine ⟨not_not.1 fun hn => (h.unstorable hm hn hc).1 ?_, .inl hs⟩
          rw [← htarget]
          exact hf.1 rfl
        · intro hk
          refine ⟨fun _ => ?_, fun e he => by cases he⟩
          rw [htarget]
          exact h.load_dump (h.sound_change hm (hk m hc).1 hc)
      | error e =>
        constructor
        · intro hf m' hm'
          obtain rfl : m = m' := by rw [hc] at hm'; cases hm'; rfl
          have hsame : m = b.memory := (hf.2 _ rfl).1
          exact ⟨not_not.1 fun hn => (h.unstorable hm hn hc).2 hsame, .inr hsame⟩
        · intro hk
          refine ⟨(fun he => by cases he), fun f _ => ⟨?_, unsaved_target hs⟩⟩
          refine ((hk m hc).2).resolve_left fun hok => ?_
          rw [hs] at hok
          cases hok

/-- An operation under the condition leaves memory and file agreeing. -/
lemma synced_perform (h : st.Lawful Sound Storable) (hm : Sound b.memory) (hb : st.Synced b) {p : Performed ω}
    (hk : st.Kept Storable p b) : Sound (st.perform p b).2.memory ∧ st.Synced (st.perform p b).2 := by
  cases hc : st.change p.op b.memory with
  | error e =>
    rw [perform_error hc]
    exact ⟨hm, hb⟩
  | ok next =>
    cases next with
    | none =>
      rw [perform_unchanged hc]
      exact ⟨hm, hb⟩
    | some m =>
      obtain ⟨hstorable, hsaved⟩ := hk m hc
      have hsound : Sound m := h.sound_change hm hstorable hc
      rw [perform_changed hc, Synced]
      refine ⟨hsound, ?_⟩
      cases hs : (saving (st.dump m) b.disk p.outcomes).1 with
      | ok u =>
        show st.load (saving (st.dump m) b.disk p.outcomes).2.target = some m
        rw [saved_target hs]
        exact h.load_dump hsound
      | error e =>
        show st.load (saving (st.dump m) b.disk p.outcomes).2.target = some m
        rw [unsaved_target hs]
        obtain rfl : m = b.memory := hsaved.resolve_left fun hok => by
          rw [hs] at hok
          cases hok
        exact hb

/-- Behind a run under the condition, the next operation is faithful exactly when it meets it too. -/
theorem faithful_after (h : st.Lawful Sound Storable) (hm : Sound b.memory) (hb : st.Synced b)
    {ps : List (Performed ω)} (hk : st.AllKept Storable b ps) (p : Performed ω) :
    st.Faithful p (st.after b ps) ↔ st.Kept Storable p (st.after b ps) := by
  induction ps generalizing b with
  | nil => exact faithful_performed_iff h hm hb p
  | cons q ps ih =>
    obtain ⟨hm', hb'⟩ := synced_perform h hm hb hk.1
    exact ih hm' hb' hk.2

end Store

end SshGpuConsole.Persistence
