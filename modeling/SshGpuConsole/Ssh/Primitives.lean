import SshGpuConsole.Ssh.FileTransfer

/-!
# One primitive, whatever becomes of it

What a primitive of the SFTP client does to a server when it answers and when it raises, with or without an
effect, and from it the rules for programs of a session: a program leaves every path its primitives do not
touch (`Avoids.wp`), a read returns the content (`wp_readFile`), a rename puts the source in place of the
target or leaves one of three nodes there (`wp_rename`).
-/

namespace SshGpuConsole.Ssh
open Shell (Text)
open Effect PosixPath

/-- A successful answer is the server's. -/
lemma act_ok {o : SftpOp} {c : Choice} {s : Server} {a : o.Ans} (h : (o.act c s).1 = .ok a) :
    c.fails = none ∧ (o.perform c.now s).1 = .ok a := by
  rw [SftpOp.act] at h
  split at h
  · exact ⟨‹_›, h⟩
  · cases h

lemma act_error {o : SftpOp} {c : Choice} {s : Server} {e : Exn} (h : (o.act c s).1 = .error e) :
    c.fails = some e ∨ c.fails = none ∧ (o.perform c.now s).1 = .error e := by
  rw [SftpOp.act] at h
  split at h
  · exact .inr ⟨‹_›, h⟩
  · rename_i e' he
    cases h
    exact .inl he

lemma content_set_other {s : Server} {p q : Text} (h : q ≠ p) (n : Option Node) :
    (s.set p n).content q = s.content q := by
  rw [Server.content, Server.set_other _ h, Server.content]

/-- Opening for writing, whatever becomes of the call: the file is as it was or empty. -/
lemma act_openWrite (p : Text) (c : Choice) (s : Server) :
    (∀ q, q ≠ p → ((SftpOp.open p .write).act c s).2.content q = s.content q) ∧
      (((SftpOp.open p .write).act c s).2.content p = s.content p ∧
          (c.fails ≠ none → c.applied ≠ 0 → s.content p = none) ∧ ((SftpOp.open p .write).act c s).1 ≠ .ok () ∨
        ((SftpOp.open p .write).act c s).2.content p = some []) := by
  have hperf : ∀ now, ((SftpOp.open p .write).perform now s).1 = .error .sftp ∧
        ((SftpOp.open p .write).perform now s).2 = s ∧ s.content p = none ∨
      ((SftpOp.open p .write).perform now s).1 = .ok () ∧
        ∃ g, g.data = [] ∧ ((SftpOp.open p .write).perform now s).2 = s.set p (some (.file g)) := by
    intro now
    cases hn : s p with
    | none =>
      simp only [SftpOp.perform, hn]
      exact .inr ⟨trivial, _, rfl, rfl⟩
    | some n =>
      cases n with
      | dir =>
        simp only [SftpOp.perform, hn]
        exact .inl ⟨trivial, trivial, by rw [Server.content, hn]⟩
      | file g =>
        simp only [SftpOp.perform, hn]
        exact .inr ⟨trivial, _, rfl, rfl⟩
  have hdone : ∀ g : RegularFile, g.data = [] → (s.set p (some (.file g))).content p = some [] := by
    intro g hg
    rw [Server.content, Server.set_same]
    exact congrArg some hg
  rw [SftpOp.act]
  cases hf : c.fails with
  | none =>
    rcases hperf c.now with ⟨h1, h2, hnone⟩ | ⟨h1, g, hg, h2⟩
    · simp only [h1, h2]
      exact ⟨fun _ _ => trivial, .inl ⟨trivial, fun h => absurd rfl h, (fun h => by cases h)⟩⟩
    · simp only [h2]
      exact ⟨fun q hq => content_set_other hq _, .inr (hdone g hg)⟩
  | some e =>
    dsimp only
    split
    · exact ⟨fun _ _ => rfl, .inl ⟨rfl, fun _ h => absurd ‹_› h, (fun h => by cases h)⟩⟩
    · rcases hperf c.now with ⟨-, h2, hnone⟩ | ⟨-, g, hg, h2⟩
      · simp only [SftpOp.cut, h2]
        exact ⟨fun _ _ => trivial, .inl ⟨trivial, fun _ _ => hnone, (fun h => by cases h)⟩⟩
      · simp only [SftpOp.cut, h2]
        exact ⟨fun q hq => content_set_other hq _, .inr (hdone g hg)⟩

lemma overwrite_end (b data : Bytes) : overwrite b b.length data = b ++ data := by
  simp [overwrite]

/-- Writing at the end of a file, whatever becomes of the call: a part of the bytes is there. -/
lemma act_write {p : Text} {b : Bytes} {k : Nat} {c : Choice} {s : Server} (hs : s.content p = some b)
    (hk : b.length = k) (data : Bytes) :
    (∀ q, q ≠ p → ((SftpOp.write p k data).act c s).2.content q = s.content q) ∧
      (c.fails = none ∧ ((SftpOp.write p k data).act c s).1 = .ok () ∧
          ((SftpOp.write p k data).act c s).2.content p = some (b ++ data) ∨
        (∃ e, c.fails = some e ∧ ((SftpOp.write p k data).act c s).1 = .error e) ∧
          ((SftpOp.write p k data).act c s).2.content p = some (b ++ data.take c.applied)) := by
  subst hk
  obtain ⟨f, hn, rfl⟩ : ∃ f, s p = some (.file f) ∧ f.data = b := by
    rw [Server.content] at hs
    split at hs
    · exact ⟨_, ‹_›, Option.some.inj hs⟩
    · cases hs
  have hperf : ∀ now d, (SftpOp.write p f.data.length d).perform now s =
      (.ok (), s.set p (some (.file { f with data := f.data ++ d, mtime := now }))) := by
    intro now d
    simp only [SftpOp.perform, hn, overwrite_end]
  have hdone : ∀ now d, (s.set p (some (.file { f with data := f.data ++ d, mtime := now }))).content p =
      some (f.data ++ d) := by
    intro now d
    rw [Server.content, Server.set_same]
  rw [SftpOp.act]
  cases hf : c.fails with
  | none =>
    simp only [hperf]
    exact ⟨fun q hq => content_set_other hq _, .inl ⟨trivial, trivial, hdone _ _⟩⟩
  | some e =>
    dsimp only
    split
    · rename_i h0
      rw [h0, List.take_zero, List.append_nil]
      exact ⟨fun _ _ => rfl, .inr ⟨⟨e, rfl, rfl⟩, hs⟩⟩
    · simp only [SftpOp.cut, hperf]
      exact ⟨fun q hq => content_set_other hq _, .inr ⟨⟨e, rfl, rfl⟩, hdone _ _⟩⟩

/-- Moving a file, whatever becomes of the call. -/
lemma act_move {o : SftpOp} {a b : Text} (ho : o = .posixRename a b ∨ o = .rename a b)
    (c : Choice) (s : Server) :
    ((o.act c s).2 = s ∨ s a ≠ none ∧ (o.act c s).2 = s.move a b) ∧
      ∀ r, (o.act c s).1 = .ok r → s a ≠ none ∧ (o.act c s).2 = s.move a b := by
  have hperf : ∀ now, (∃ e, o.perform now s = (.error e, s)) ∨
      s a ≠ none ∧ (o.perform now s).2 = s.move a b := by
    intro now
    rcases ho with rfl | rfl
    · cases ha : s a with
      | none => exact .inl ⟨_, by simp only [SftpOp.perform, ha]; rfl⟩
      | some n =>
        cases hb : s b with
        | none =>
          refine .inr ⟨(fun h => by cases h), ?_⟩
          cases n <;> simp only [SftpOp.perform, ha, hb]
        | some m =>
          cases n with
          | dir => exact .inl ⟨.sftp, by simp only [SftpOp.perform, ha, hb]⟩
          | file g =>
            cases m with
            | dir => exact .inl ⟨.sftp, by simp only [SftpOp.perform, ha, hb]⟩
            | file g' => exact .inr ⟨(fun h => by cases h), by simp only [SftpOp.perform, ha, hb]⟩
    · cases ha : s a with
      | none => exact .inl ⟨_, by simp only [SftpOp.perform, ha]; rfl⟩
      | some n =>
        cases hb : s b with
        | none => exact .inr ⟨(fun h => by cases h), by simp only [SftpOp.perform, ha, hb]⟩
        | some m => exact .inl ⟨_, by simp only [SftpOp.perform, ha, hb]; rfl⟩
  have hcut : ∀ k, o.cut k = o := by
    rcases ho with rfl | rfl <;> exact fun _ => rfl
  rw [SftpOp.act]
  cases c.fails with
  | none =>
    dsimp only
    rcases hperf c.now with ⟨e, he⟩ | h
    · rw [he]
      exact ⟨.inl rfl, fun _ h => by cases h⟩
    · exact ⟨.inr h, fun _ _ => h⟩
  | some e =>
    dsimp only
    refine ⟨?_, fun _ h => by cases h⟩
    split
    · exact .inl rfl
    · rw [hcut]
      rcases hperf c.now with ⟨e, he⟩ | h
      · rw [he]
        exact .inl rfl
      · exact .inr h

/-- Removing a file, whatever becomes of the call. -/
lemma act_remove (p : Text) (c : Choice) (s : Server) :
    ((SftpOp.remove p).act c s).2 = s ∨ ((SftpOp.remove p).act c s).2 = s.set p none := by
  have hperf : ∀ now, ((SftpOp.remove p).perform now s).2 = s ∨
      ((SftpOp.remove p).perform now s).2 = s.set p none := by
    intro now
    simp only [SftpOp.perform]
    split
    · exact .inl rfl
    · exact .inl rfl
    · exact .inr rfl
  rw [SftpOp.act]
  split
  · exact hperf _
  · dsimp only
    split
    · exact .inl rfl
    · exact hperf _

/-! ### Frames -/

/-- The paths a primitive may change. -/
def SftpOp.touches : SftpOp → List Text
  | .mkdir p | .open p .write | .write p _ _ | .remove p | .setMtime p _ | .chmod p _ => [p]
  | .posixRename a b | .rename a b => [a, b]
  | _ => []

lemma move_untouched (s : Server) {a b q : Text} (ha : q ≠ a) (hb : q ≠ b) : s.move a b q = s q := by
  rw [Server.move]
  split
  · rfl
  · rw [Server.set_other _ ha, Server.set_other _ hb]

lemma perform_untouched {o : SftpOp} {q : Text} (h : q ∉ o.touches) (now : Nat) (s : Server) :
    (o.perform now s).2 q = s q := by
  have hset : ∀ {p : Text} (n : Option Node), q ∉ [p] → s.set p n q = s q := fun n hq =>
    Server.set_other s (fun hp => hq (by rw [hp]; exact List.mem_singleton_self _)) n
  have hmove : ∀ {a b : Text}, q ∉ [a, b] → s.move a b q = s q := fun hq =>
    move_untouched s (fun ha => hq (by rw [ha]; exact List.mem_cons_self))
      fun hb => hq (by rw [hb]; exact List.mem_cons_of_mem _ (List.mem_singleton_self _))
  cases o with
  | stat p => simp only [SftpOp.perform]; split <;> rfl
  | lstat p => simp only [SftpOp.perform]; split <;> rfl
  | mkdir p =>
    simp only [SftpOp.perform]
    split
    · rfl
    · exact hset _ h
  | «open» p m =>
    simp only [SftpOp.perform]
    split
    · rfl
    · exact hset _ h
    · rfl
    · exact hset _ h
    · rfl
  | read p k n => simp only [SftpOp.perform]; split <;> rfl
  | write p k d =>
    simp only [SftpOp.perform]
    split
    · exact hset _ h
    · rfl
  | close p m => rfl
  | posixRename a b =>
    simp only [SftpOp.perform]
    split
    · rfl
    · rfl
    · rfl
    · exact hmove h
  | rename a b =>
    simp only [SftpOp.perform]
    split
    · rfl
    · rfl
    · exact hmove h
  | remove p =>
    simp only [SftpOp.perform]
    split
    · rfl
    · rfl
    · exact hset _ h
  | setMtime p t =>
    simp only [SftpOp.perform]
    split
    · rfl
    · rfl
    · exact hset _ h
  | chmod p t =>
    simp only [SftpOp.perform]
    split
    · rfl
    · rfl
    · exact hset _ h

/-- Whatever becomes of a primitive, the paths it does not touch are as they were. -/
lemma act_untouched {o : SftpOp} {q : Text} (h : q ∉ o.touches) (c : Choice) (s : Server) :
    (o.act c s).2 q = s q := by
  have hcut : (o.cut c.applied).touches = o.touches := by
    cases o <;> rfl
  rw [SftpOp.act]
  split
  · exact perform_untouched h _ s
  · dsimp only
    split
    · rfl
    · exact perform_untouched (by rwa [hcut]) _ s

/-- A program that never changes a path of a side. -/
abbrev Avoids (s : Side) (q : Text) {α : Type} (p : Sftp α) : Prop := p.Only fun o => o.1 = s → q ∉ o.2.touches

/-- A program that changes nothing. -/
abbrev Reads {α : Type} (p : Sftp α) : Prop := p.Only fun o => o.2.touches = []

section Rules
variable {G : SideOp → Servers → Choice → Prop} {α : Type} {w : Servers} {s : Side} {q : Text}

lemma servers_act_untouched {o : SideOp} (h : o.1 = s → q ∉ o.2.touches) (c : Choice) (w : Servers) :
    (sftp.act o c w).2 s q = w s q := by
  show (w.set o.1 (o.2.act c (w o.1)).2) s q = w s q
  by_cases hs : s = o.1
  · rw [hs, Servers.set_same]
    exact act_untouched (h hs.symm) c _
  · rw [Servers.set_other _ hs]

/-- The frame rule. -/
lemma Avoids.wp {p : Sftp α} (h : Avoids s q p) {n : Option Node} (hn : w s q = n) :
    wp sftp G (fun _ _ => True) p (fun _ w' => w' s q = n) w :=
  wp_only (fun _ ho w c hw => (servers_act_untouched ho c w).trans hw) h hn

lemma Reads.avoids {p : Sftp α} (h : Reads p) (s : Side) (q : Text) : Avoids s q p :=
  h.mono fun o ho _ => by rw [ho]; exact List.not_mem_nil

lemma Reads.wp {p : Sftp α} (h : Reads p) : wp sftp G (fun _ _ => True) p (fun _ w' => w' = w) w := by
  refine wp_only (fun o ho w' c hw => ?_) h rfl
  rw [← hw]
  funext t q
  exact servers_act_untouched (fun _ => by rw [ho]; exact List.not_mem_nil) c w'

/-- One primitive. -/
lemma wp_client {o : SftpOp} {Q : Except Exn o.Ans → Servers → Prop}
    (h : ∀ c, G (s, o) w c → Q (o.act c (w s)).1 (w.set s (o.act c (w s)).2)) :
    wp sftp G (fun _ _ => True) (client s o) Q w := by
  rw [client, wp_perform]
  exact ⟨trivial, fun c hc => h c hc⟩

end Rules

/-! ### The methods of a session -/

section Methods
variable {G : SideOp → Servers → Choice → Prop} {s t : Side} {q : Text}

lemma avoids_client {o : SftpOp} (h : t = s → q ∉ o.touches) : Avoids s q (client t o) := Prog.Only.perform h

lemma reads_client {o : SftpOp} (h : o.touches = []) : Reads (client t o) := Prog.Only.perform h

lemma reads_stat (path : Text) : Reads (stat t path) := by
  refine Prog.Only.handle (Prog.Only.bind (reads_client rfl) fun info => ?_) fun e => Prog.Only.ite ?_ ?_
  · exact trivial
  · exact trivial
  · exact trivial

lemma reads_openReader (path : Text) (offset : Nat) : Reads (openReader t path offset) :=
  Prog.Only.bind (reads_client rfl) fun _ => trivial

lemma reads_read (h : Handle) (n : Nat) : Reads (h.read n) :=
  Prog.Only.bind (reads_client rfl) fun _ => trivial

lemma reads_closeQuiet (h : Handle) : Reads h.closeQuiet := Prog.Only.suppress (reads_client rfl)

lemma avoids_remove {path : Text} (h : t = s → q ≠ path) : Avoids s q (remove t path) :=
  avoids_client fun ht => by simpa [SftpOp.touches] using h ht

lemma avoids_setMode {path : Text} (mode : Nat) (h : t = s → q ≠ path) : Avoids s q (setMode t path mode) :=
  avoids_client fun ht => by simpa [SftpOp.touches] using h ht

lemma avoids_rename {a b : Text} (h : t = s → q ≠ a ∧ q ≠ b) : Avoids s q (rename t a b) := by
  have hmove : ∀ {o : SftpOp}, o.touches = [a, b] → Avoids s q (client t o) := fun ho =>
    avoids_client fun ht => by
      rw [ho]
      simpa using h ht
  refine Prog.Only.handle (hmove rfl) fun e => Prog.Only.ite ?_ trivial
  exact Prog.Only.bind (avoids_remove fun ht => (h ht).2).suppress fun _ => hmove rfl

/-- The levels `mkdir` may make. -/
def mkdirLevels (path : Text) : Text → List Text → List Text
  | _, [] => []
  | current, part :: parts => nextLevel path current part :: mkdirLevels path (nextLevel path current part) parts

lemma avoids_mkdirLevel {current : Text} (h : t = s → q ≠ current) : Avoids s q (mkdirLevel t current) := by
  have hstat : Avoids s q (do let _ ← client t (.stat current)) :=
    Prog.Only.bind (avoids_client fun _ => List.not_mem_nil) fun _ => trivial
  refine hstat.handle fun e => Prog.Only.ite ?_ trivial
  refine Prog.Only.handle (avoids_client fun ht => ?_) fun e' => Prog.Only.ite hstat trivial
  simpa [SftpOp.touches] using h ht

lemma avoids_mkdirLoop {path : Text} {parts : List Text} {current : Text}
    (h : t = s → q ∉ mkdirLevels path current parts) : Avoids s q (mkdirLoop t path current parts) := by
  induction parts generalizing current with
  | nil => trivial
  | cons part parts ih =>
    refine Prog.Only.bind (avoids_mkdirLevel fun ht => ?_) fun _ => ih fun ht => ?_
    · exact fun hq => h ht (hq ▸ List.mem_cons_self)
    · exact fun hq => h ht (List.mem_cons_of_mem _ hq)

lemma avoids_mkdir {path : Text} (h : t = s → q ∉ mkdirLevels path [] ((stripSlash (normpath path)).splitOn '/')) :
    Avoids s q (mkdir t path) :=
  avoids_mkdirLoop h

/-- A rename of a regular file puts it in place of the target; when it raises, the target is as it was, gone, or
the file. -/
lemma wp_rename {a b : Text} {f : RegularFile} {w : Servers} (hab : a ≠ b) (ha : w s a = some (.file f)) :
    wp sftp G (fun _ _ => True) (rename s a b)
      (seqPost (fun _ w' => w' s b = some (.file f))
        fun _ w' => w' s b = w s b ∨ w' s b = some (.file f) ∨ w' s b = none) w := by
  -- what every one of the three primitives keeps
  obtain ⟨K, hK⟩ : ∃ K : Servers → Prop, ∀ w', K w' ↔ (w' s a = some (.file f) ∨ w' s a = none) ∧
      (w' s b = w s b ∨ w' s b = some (.file f) ∨ w' s b = none) := ⟨_, fun _ => Iff.rfl⟩
  have hmove : ∀ {w' : Servers} {o : SftpOp}, K w' → (o = .posixRename a b ∨ o = .rename a b) →
      wp sftp G (fun _ _ => True) (client s o) (seqPost (fun _ w'' => w'' s b = some (.file f)) fun _ w'' => K w'') w' := by
    intro w' o hw ho
    have hmoved : w' s a ≠ none → K (w'.set s ((w' s).move a b)) ∧ (w'.set s ((w' s).move a b)) s b = some (.file f) := by
      intro hne
      have hf := ((hK w').1 hw).1.resolve_right hne
      have hb : (w'.set s ((w' s).move a b)) s b = some (.file f) := by
        rw [Servers.set_same, Server.move_target hab, hf]
      refine ⟨(hK _).2 ⟨.inr ?_, .inr (.inl hb)⟩, hb⟩
      rw [Servers.set_same, Server.move, if_neg hab, Server.set_same]
    refine wp_client fun c _ => ?_
    obtain ⟨h1, h2⟩ := act_move ho c (w' s)
    cases hr : (o.act c (w' s)).1 with
    | ok r =>
      obtain ⟨hne, hs⟩ := h2 r hr
      rw [hs]
      exact (hmoved hne).2
    | error e =>
      rcases h1 with hs | ⟨hne, hs⟩
      · rw [hs, Servers.set_self]
        exact hw
      · rw [hs]
        exact (hmoved hne).1
  have hremove : ∀ {w' : Servers}, K w' →
      wp sftp G (fun _ _ => True) (Prog.suppress Exn.isMissing (client s (.remove b))) (fun _ => K) w' := by
    intro w' hw
    refine wp_suppress (wp_client fun c _ => ?_)
    rcases act_remove b c (w' s) with hs | hs
    · rw [hs, Servers.set_self]
      exact hw
    · rw [hs]
      refine (hK _).2 ⟨?_, .inr (.inr (by rw [Servers.set_same, Server.set_same]))⟩
      rw [Servers.set_same, Server.set_other _ hab]
      exact ((hK w').1 hw).1
  rw [rename]
  simp only [Prog.bind_eq, Prog.throw_eq]
  refine wp_handle_of (hmove ((hK w).2 ⟨.inl ha, .inl rfl⟩) (.inl rfl)) (fun _ _ h => h) fun e w' hw' => ?_
  refine wp_ite (fun _ => ?_) fun _ => ((hK w').1 hw').2
  refine wp_bind_of (hremove hw') (fun _ w'' hw'' => ?_) fun _ w'' hw'' => ((hK w'').1 hw'').2
  refine wp_mono (fun r w3 h3 => ?_) (hmove hw'' (.inr rfl))
  cases r with
  | ok u => exact h3
  | error e => exact ((hK w3).1 h3).2

end Methods

end SshGpuConsole.Ssh
