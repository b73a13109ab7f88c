import SshGpuConsole.DirectAuth.Lines
import SshGpuConsole.DirectAuth.TransientFailures
import SshGpuConsole.Ssh.Primitives

/-!
# The materials of a pair

What the programs of the service do to the two files and to the key files, whatever the environment does: a
missing file is the server's answer and no failure (`Honest`), everything else may fail at any step, with or
without an effect.
-/

namespace SshGpuConsole.DirectAuth
open Shell (Text)
open Effect PosixPath PyText PyLines Ssh Planner

/-- A primitive that fails does not say that the file is missing. -/
def Honest (c : Choice) : Prop := ∀ e, c.fails = some e → e.isMissing = false

/-- Every run of a session's program ends in the postcondition. -/
abbrev EnsuresSftp {α : Type} (p : Sftp α) (Q : Except Exn α → Servers → Prop) (w : Servers) : Prop :=
  wp sftp (fun _ _ c => Honest c) (fun _ _ => True) p Q w

/-- Every run of a program of the service ends in the postcondition. -/
abbrev Ensures (cfg : Config) {α : Type} (p : Auth α) (Q : Except Raised α → World → Prop) (w : World) : Prop :=
  wp (environment cfg) (fun _ _ c => Honest c.sftp) (fun _ _ => True) p Q w

/-! ### Reading -/

section Reading
variable {s : Side} {path : Text} {w : Servers}

lemma ensures_stat : EnsuresSftp (stat s path)
    (fun r w' => w' = w ∧ ∀ st, r = .ok st → st.exists_ = (w s path).isSome) w := by
  refine wp_and (Reads.wp (reads_stat path)) ?_
  rw [stat]
  simp only [Prog.bind_eq, Prog.pure_eq, Prog.throw_eq]
  refine wp_handle_of (R := seqPost (fun st _ => st.exists_ = true ∧ (w s path).isSome = true)
      fun e _ => e.isMissing = true → w s path = none) ?_ ?_ ?_
  · rw [wp_bind]
    refine wp_client fun c hc => ?_
    cases hr : ((SftpOp.stat path).act c (w s)).1 with
    | ok a =>
      have hp := (act_ok hr).2
      simp only [SftpOp.perform] at hp
      split at hp
      · cases hp
      · rename_i n hn
        exact ⟨rfl, by rw [hn]; rfl⟩
    | error e =>
      intro hm
      rcases act_error hr with hf | ⟨-, hp⟩
      · rw [hc e hf] at hm
        cases hm
      · simp only [SftpOp.perform] at hp
        split at hp
        · assumption
        · cases hp
  · intro st w' h st' hst
    obtain rfl := Except.ok.inj hst
    exact h.1.trans h.2.symm
  · intro e w' h
    refine wp_ite (fun hm => ?_) fun _ => ?_
    · intro st hst
      obtain rfl := Except.ok.inj hst
      rw [h hm]
      rfl
    · intro st hst
      cases hst

/-- One chunk. -/
lemma ensures_read (h : Handle) (n : Nat) : EnsuresSftp (h.read n)
    (fun r w' => w' = w ∧ ∀ x, r = .ok x → ∃ b, (w h.side).content h.path = some b ∧ x.1 = (b.drop h.pos).take n ∧
      x.2 = { h with pos := h.pos + x.1.length }) w := by
  refine wp_and (Reads.wp (reads_read h n)) ?_
  rw [Handle.read]
  simp only [Prog.bind_eq, Prog.pure_eq]
  rw [wp_bind]
  refine wp_client fun c _ => ?_
  cases hr : ((SftpOp.read h.path h.pos n).act c (w h.side)).1 with
  | error e => exact fun x hx => by cases hx
  | ok chunk =>
    intro x hx
    obtain rfl := Except.ok.inj hx
    have hp := (act_ok hr).2
    simp only [SftpOp.perform] at hp
    split at hp
    · rename_i f hf
      refine ⟨f.data, by rw [Server.content, hf], (Except.ok.inj hp).symm, rfl⟩
    · cases hp

lemma ensures_readLoop {h : Handle} {chunks : Bytes} (n : Nat)
    (hc : ∀ b, (w h.side).content h.path = some b → chunks = b.take h.pos) :
    EnsuresSftp (readLoop n h chunks)
      (fun r w' => w' = w ∧ ∀ b, r = .ok b → (w h.side).content h.path = some b) w := by
  induction n generalizing h chunks with
  | zero => exact ⟨rfl, fun b hb => by cases hb⟩
  | succ n ih =>
    rw [readLoop, Prog.bind_eq]
    refine wp_bind_of (ensures_read h 65536) (fun x w' hx => ?_) fun e w' hx => ⟨hx.1, fun b hb => by cases hb⟩
    obtain ⟨rfl, hx⟩ := hx
    obtain ⟨b, hb, hchunk, hhandle⟩ := hx x rfl
    obtain ⟨chunk, handle⟩ := x
    dsimp only at hchunk hhandle ⊢
    rw [hc b hb]
    refine wp_ite (fun hempty => ?_) fun hmore => ?_
    · -- the end of the file: everything has been read
      refine ⟨rfl, fun b' hb' => ?_⟩
      obtain rfl := Except.ok.inj hb'
      have hrest : b.drop h.pos = [] := by
        rw [hempty] at hchunk
        have hlen := congrArg List.length hchunk
        rw [List.length_take, List.length_nil] at hlen
        exact List.length_eq_zero_iff.1 (by omega)
      rw [hb]
      refine congrArg some (List.take_of_length_le ?_).symm
      exact List.drop_eq_nil_iff.1 hrest
    · have hnext := @ih handle (b.take h.pos ++ chunk) fun b' hb' => ?_
      · rwa [hhandle] at hnext ⊢
      · rw [hhandle] at hb' ⊢
        obtain rfl := Option.some.inj (hb.symm.trans hb')
        show b.take h.pos ++ chunk = b.take (h.pos + chunk.length)
        rw [List.take_add, hchunk, List.length_take]
        exact congrArg (b.take h.pos ++ ·) List.take_eq_take_min

/-- A read that returns has read the file. -/
lemma ensures_readRemoteBytes (rounds : Nat) : EnsuresSftp (readRemoteBytes rounds s path)
    (fun r w' => w' = w ∧ ∀ b, r = .ok b → (w s).content path = some b) w := by
  rw [readRemoteBytes, Prog.bind_eq]
  have hopen : EnsuresSftp (openReader s path) (fun r w' => w' = w ∧ ∀ h, r = .ok h → h = ⟨s, path, .read, 0⟩) w := by
    refine wp_and (Reads.wp (reads_openReader path 0)) ?_
    rw [openReader]
    simp only [Prog.bind_eq, Prog.pure_eq]
    rw [wp_bind]
    refine wp_client fun c _ => ?_
    cases ((SftpOp.open path .read).act c (w s)).1 with
    | ok u => exact fun h hh => (Except.ok.inj hh).symm
    | error e => exact fun h hh => by cases hh
  refine wp_bind_of hopen (fun h w' hh => ?_) fun e w' hh => ⟨hh.1, fun b hb => by cases hb⟩
  obtain ⟨rfl, hh⟩ := hh
  obtain rfl := hh h rfl
  refine wp_andFinally (ensures_readLoop rounds fun b _ => rfl) fun r w'' hr => ?_
  obtain ⟨rfl, hr⟩ := hr
  refine wp_mono (fun r' w3 h3 => ?_) (Reads.wp (reads_closeQuiet ⟨s, path, .read, 0⟩))
  subst h3
  cases r' with
  | ok u => exact ⟨rfl, hr⟩
  | error e => exact ⟨rfl, fun b hb => by cases hb⟩

lemma ensures_readExisting (rounds : Nat) : EnsuresSftp (readExisting rounds s path)
    (fun r w' => w' = w ∧ ∀ b, r = .ok b → w s path = none ∧ b = [] ∨ (w s).content path = some b) w := by
  rw [readExisting, Prog.bind_eq]
  refine wp_bind_of ensures_stat (fun st w' hst => ?_) fun e w' h => ⟨h.1, fun b hb => by cases hb⟩
  obtain ⟨rfl, hst⟩ := hst
  refine wp_ite (fun _ => ?_) fun hno => ?_
  · exact wp_mono (fun r w'' h => ⟨h.1, fun b hb => .inr (h.2 b hb)⟩) (ensures_readRemoteBytes rounds)
  · refine ⟨rfl, fun b hb => .inl ⟨?_, (Except.ok.inj hb).symm⟩⟩
    rw [hst st rfl] at hno
    simpa using hno

end Reading

/-! ### Writing -/

/-- What writing a file comes to: the new bytes, or, when it raises, the old node, the new bytes or nothing. -/
def Written (s : Side) (path : Text) (data : Bytes) (w : Servers) {ε : Type} (r : Except ε Unit) (w' : Servers) : Prop :=
  match r with
  | .ok _ => (w' s).content path = some data
  | .error _ => w' s path = w s path ∨ (w' s).content path = some data ∨ w' s path = none

lemma content_file {t : Server} {p : Text} {f : RegularFile} (h : t p = some (.file f)) : t.content p = some f.data := by
  rw [Server.content, h]

lemma ensures_writeBody {s : Side} {temp path : Text} {w : Servers} (data : Bytes) (mode : Nat) (ht : temp ≠ path) :
    EnsuresSftp (writeBody s temp path data mode) (fun r w' => Written s path data w r w') w := by
  have hkeeps : ∀ {w₁ w₂ : Servers}, w₁ s path = w s path → w₂ s path = w₁ s path → w₂ s path = w s path :=
    fun h h' => h'.trans h
  rw [writeBody]
  simp only [Prog.bind_eq]
  -- the temporary file is opened
  have hopen : EnsuresSftp (openWriter s temp)
      (fun r w' => w' s path = w s path ∧ ∀ h, r = .ok h → h = ⟨s, temp, .write, 0⟩ ∧ (w' s).content temp = some []) w := by
    refine wp_and (Avoids.wp (Prog.Only.ite ?_ ?_) rfl) ?_
    · exact Prog.Only.bind (avoids_client fun _ => List.not_mem_nil) fun _ => trivial
    · exact Prog.Only.bind (avoids_client fun _ => by simpa [SftpOp.touches] using ht.symm) fun _ => trivial
    · simp only [openWriter, lt_irrefl, if_false, Prog.bind_eq, Prog.pure_eq]
      rw [wp_bind]
      refine wp_client fun c _ => ?_
      cases hr : ((SftpOp.open temp .write).act c (w s)).1 with
      | error e => exact fun h hh => by cases hh
      | ok u =>
        intro h hh
        refine ⟨(Except.ok.inj hh).symm, ?_⟩
        rw [Servers.set_same]
        rcases (act_openWrite temp c (w s)).2 with ⟨-, -, hne⟩ | h
        · exact absurd hr hne
        · exact h
  refine wp_bind_of hopen (fun h w₁ h₁ => ?_) fun e w₁ h₁ => .inl h₁.1
  obtain ⟨hp₁, h₁⟩ := h₁
  obtain ⟨rfl, hempty⟩ := h₁ h rfl
  -- the bytes are written and the file is closed
  have hwrite : EnsuresSftp (Prog.andFinally (do let _ ← (Handle.mk s temp .write 0).write data)
      (Handle.mk s temp .write 0).closeQuiet)
      (fun r w' => w' s path = w₁ s path ∧ ∀ u, r = .ok u → (w' s).content temp = some data) w₁ := by
    have hne : path ∉ [temp] := fun hm => ht (List.mem_singleton.1 hm).symm
    refine wp_and (Avoids.wp (Prog.Only.andFinally ?_ ((reads_closeQuiet _).avoids s path)) rfl) ?_
    · exact Prog.Only.bind (Prog.Only.bind (avoids_client fun _ => hne) fun _ => trivial) fun _ => trivial
    · refine wp_andFinally (R := fun r w' => ∀ u, r = .ok u → (w' s).content temp = some data) ?_ fun r w' hr => ?_
      · simp only [Handle.write, Prog.bind_eq, Prog.pure_eq]
        rw [wp_bind, wp_bind]
        refine wp_client fun c _ => ?_
        rcases (act_write hempty rfl data).2 with ⟨-, hok, hdone⟩ | ⟨⟨e, -, herr⟩, -⟩
        · rw [show ((SftpOp.write temp 0 data).act c (w₁ s)).1 = .ok () from hok]
          intro u _
          rw [Servers.set_same]
          exact hdone
        · rw [show ((SftpOp.write temp 0 data).act c (w₁ s)).1 = .error e from herr]
          exact fun u hu => by cases hu
      · refine wp_mono (fun r' w'' h'' => ?_) (Reads.wp (reads_closeQuiet _))
        subst h''
        cases r' with
        | ok u => exact hr
        | error e => exact fun u hu => by cases hu
  refine wp_bind_of hwrite (fun u w₂ h₂ => ?_) fun e w₂ h₂ => .inl (hkeeps hp₁ h₂.1)
  have hdata := h₂.2 u rfl
  have hp₂ := hkeeps hp₁ h₂.1
  -- its mode is set
  have hmode : EnsuresSftp (setMode s temp mode)
      (fun r w' => w' s path = w₂ s path ∧ ∀ u, r = .ok u → (w' s).content temp = some data) w₂ := by
    refine wp_and (Avoids.wp (avoids_setMode mode fun _ => ht.symm) rfl) (wp_client fun c _ u hu => ?_)
    obtain ⟨hf, -⟩ := act_ok hu
    rw [Servers.set_same, SftpOp.act, hf]
    rw [Server.content] at hdata
    split at hdata
    · rename_i f hn
      simp only [SftpOp.perform, hn]
      rw [Server.content, Server.set_same]
      exact hdata
    · cases hdata
  refine wp_bind_of hmode (fun u w₃ h₃ => ?_) fun e w₃ h₃ => .inl (hkeeps hp₂ h₃.1)
  have hdata := h₃.2 u rfl
  have hp₃ := hkeeps hp₂ h₃.1
  obtain ⟨f, hn, rfl⟩ : ∃ f, w₃ s temp = some (.file f) ∧ f.data = data := by
    rw [Server.content] at hdata
    split at hdata
    · exact ⟨_, ‹_›, Option.some.inj hdata⟩
    · cases hdata
  -- and it is renamed
  refine wp_mono (fun r w₄ h₄ => ?_) (wp_rename ht hn)
  cases r with
  | ok u => exact content_file h₄
  | error e => exact h₄.imp (fun h => h.trans hp₃) fun h => h.imp content_file id

lemma ensures_writeRemoteFile {s : Side} {path tag hex : Text} {w : Servers} (data : Bytes) (mode : Nat)
    (ht : tempPath path tag hex ≠ path) :
    EnsuresSftp (writeRemoteFile s path data mode tag hex) (fun r w' => Written s path data w r w') w := by
  have hdef : writeRemoteFile s path data mode tag hex =
      Prog.handle (writeBody s (tempPath path tag hex) path data mode) fun e =>
        (Prog.suppress Exn.isException (remove s (tempPath path tag hex))).bind fun _ => .raise e := rfl
  rw [hdef]
  refine wp_handle_of (ensures_writeBody data mode ht) (fun _ _ h => h) fun e w' h => ?_
  have hclean : Avoids s path ((Prog.suppress Exn.isException (remove s (tempPath path tag hex))).bind fun _ =>
      (.raise e : Sftp Unit)) :=
    Prog.Only.bind (Prog.Only.suppress (avoids_remove fun _ => ht.symm)) fun _ => trivial
  -- the clean-up raises what it was given or something else
  have hraises : EnsuresSftp ((Prog.suppress Exn.isException (remove s (tempPath path tag hex))).bind fun _ =>
      (.raise e : Sftp Unit)) (fun r _ => ∃ e', r = .error e') w' := by
    refine wp_bind_of (R := fun _ _ => True) (wp_mono (fun _ _ _ => trivial) (Avoids.wp (s := s) (q := path)
      (Prog.Only.suppress (avoids_remove fun _ => ht.symm)) rfl)) (fun _ _ _ => ⟨e, rfl⟩) fun e' _ _ => ⟨e', rfl⟩
  refine wp_mono (fun r w'' h' => ?_) (wp_and (Avoids.wp hclean rfl) hraises)
  obtain ⟨hpath, e', rfl⟩ := h'
  have hcontent : (w'' s).content path = (w' s).content path := by rw [Server.content, Server.content, hpath]
  show w'' s path = w s path ∨ (w'' s).content path = some data ∨ w'' s path = none
  rw [hcontent, hpath]
  exact h

/-! ### Programs of the service -/

section Service
variable {cfg : Config} {α β : Type} {w : World}

/-- A program of a session, as a program of the service. -/
lemma ensures_ofSftp {p : Sftp α} {Q : Except Raised α → World → Prop}
    (h : EnsuresSftp p (fun r v => Q (r.mapError .session) { w with servers := v }) w.servers) :
    Ensures cfg (ofSftp p) Q w := by
  have hback : ∀ {β : Type} (r : Except Exn β), ((r.mapError Raised.session).map id).mapError Raised.ofSession = r := by
    intro β r
    cases r <;> rfl
  have hput : ∀ (v : Servers) (w : World), World.servers ((fun v w => { w with servers := v }) v w) = v := fun _ _ => rfl
  exact wp_embed hput (fun _ _ _ => rfl) (fun _ => rfl) (fun o c s => hback _) (fun _ _ _ => rfl) (fun _ _ _ hc => hc) h

lemma ensures_call {o : AuthOp} {Q : Except Raised o.Ans → World → Prop}
    (h : ∀ c : AuthChoice, Honest c.sftp → Q (o.act cfg c w).1 (o.act cfg c w).2) : Ensures cfg (call o) Q w := by
  rw [call, Ensures, wp_perform]
  exact ⟨trivial, fun c hc => h c hc⟩

/-- The steps that leave a path of a side. -/
def AuthOp.Keeps (s : Side) (q : Text) : AuthOp → Prop
  | .onServer o => o.1 = s → q ∉ o.2.touches
  | .run t (.keygen _ path) => t = s → q ≠ path ∧ q ≠ pubPath path
  | _ => True

/-- A program that leaves a path of a side. -/
abbrev Spares (s : Side) (q : Text) (p : Auth α) : Prop := p.Only (AuthOp.Keeps s q)

lemma keeps_act {s : Side} {q : Text} {o : AuthOp} (h : o.Keeps s q) (c : AuthChoice) (w : World) :
    (o.act cfg c w).2.servers s q = w.servers s q := by
  cases o
  case onServer o => exact servers_act_untouched h c.sftp w.servers
  case get => rfl
  case uuid => rfl
  case run t command =>
    have heffect : (AuthOp.effect cfg c w (.run t command)).servers s q = w.servers s q := by
      show (w.servers.set t (command.perform c.key_files _ (w.servers t))) s q = w.servers s q
      by_cases hs : s = t
      · subst hs
        rw [Servers.set_same]
        cases command
        case keygen comment path =>
          obtain ⟨h1, h2⟩ := h rfl
          simp only [Command.perform]
          split <;> split <;> simp only [Server.set_other _ h1, Server.set_other _ h2]
        all_goals rfl
      · rw [Servers.set_other _ hs]
    simp only [AuthOp.act]
    cases c.raises <;> exact heffect
  all_goals
    simp only [AuthOp.act]
    cases c.raises <;> rfl

/-- The frame rule. -/
lemma Spares.ensures {s : Side} {q : Text} {p : Auth α} (h : Spares s q p) {n : Option Node}
    (hn : w.servers s q = n) : Ensures cfg p (fun _ w' => w'.servers s q = n) w :=
  wp_only (fun _ ho w c hw => (keeps_act ho c w).trans hw) h hn

lemma spares_ofSftp {s : Side} {q : Text} {p : Sftp α} (h : Avoids s q p) : Spares s q (ofSftp p) := Prog.Only.embed h

lemma spares_trying {s : Side} {q : Text} {p : Auth α} (h : Spares s q p) : Spares s q (trying p) := h.catching

lemma spares_talk {s : Side} {q : Text} {o : AuthOp} (h : o.Talks) : Spares s q (call o) := by
  refine Prog.Only.perform ?_
  cases o
  case onServer | run | uuid | get | put | remove => exact h.elim
  all_goals trivial

/-- A caught exception comes as a value. -/
lemma ensures_trying {p : Auth α} {R : Except Raised α → World → Prop} {Q : Except Raised (Except Raised α) → World → Prop}
    (hp : Ensures cfg p R w) (hok : ∀ a w', R (.ok a) w' → Q (.ok (.ok a)) w')
    (hcaught : ∀ e w', e.isException = true → R (.error e) w' → Q (.ok (.error e)) w')
    (hraised : ∀ e w', e.isException = false → R (.error e) w' → Q (.error e) w') :
    Ensures cfg (trying p) Q w :=
  wp_catching hp hok hcaught hraised

/-- A program that leaves everything. -/
lemma ensures_talk {o : AuthOp} (h : o.Talks) : Ensures cfg (call o) (fun _ w' => w' = w) w := by
  refine ensures_call fun c _ => ?_
  cases o
  case onServer | run | uuid | get | put | remove => exact h.elim
  all_goals
    simp only [AuthOp.act]
    cases c.raises <;> rfl

lemma ensures_tryTalk {o : AuthOp} (h : o.Talks) : Ensures cfg (trying (call o)) (fun _ w' => w' = w) w :=
  ensures_trying (ensures_talk h) (fun _ _ h => h) (fun _ _ _ h => h) fun _ _ _ h => h

lemma ensures_closing {s : Side} :
    Ensures cfg (suppressing (call (.closeSession s))) (fun _ w' => w' = w) w := by
  have h : Ensures cfg (call (.closeSession s)) (fun _ w' => w' = w) w := ensures_talk (o := .closeSession s) trivial
  exact wp_suppress h

end Service

end SshGpuConsole.DirectAuth
