import SshGpuConsole.Transfer.TreeRelay
import SshGpuConsole.Transfer.WalkAgreement

/-!
# What a relay tells its job

A relay of a directory that returns normally has counted every file of the tree and every byte, whatever the target had
before and however its calls fail: what is done is what there is to do, and never more on the way.
-/

namespace SshGpuConsole.LocalRelay
open Shell (Text)
open Effect PosixPath Ssh TreeWalks

/-! ### Programs that leave the source -/

/-- The program changes nothing on the source. -/
abbrev SourceKept {α : Type} (p : Sftp α) : Prop := p.Only fun o => o.1 = .source → o.2.touches = []

section
variable {α : Type}

lemma keeps_target (o : SftpOp) : SourceKept (client .target o) := Prog.Only.perform fun h => nomatch h

lemma keeps_reads {p : Sftp α} (h : Reads p) : SourceKept p := h.mono fun _ ho _ => ho

lemma keeps_lstat (path : Text) : SourceKept (lstat .target path) :=
  Prog.Only.handle (Prog.Only.bind (keeps_target _) fun _ => trivial) fun _ => Prog.Only.ite trivial trivial

lemma keeps_mkdir (path : Text) : SourceKept (mkdir .target path) := by
  have hstat : ∀ p, SourceKept (do let _ ← client .target (.stat p)) := fun p =>
    Prog.Only.bind (keeps_target _) fun _ => trivial
  have hlevel : ∀ p, SourceKept (mkdirLevel .target p) := fun p =>
    (hstat p).handle fun e => Prog.Only.ite ((keeps_target _).handle fun e' => Prog.Only.ite (hstat p) trivial) trivial
  have hloop : ∀ parts current, SourceKept (mkdirLoop .target path current parts) := by
    intro parts
    induction parts with
    | nil => exact fun _ => trivial
    | cons part parts ih => exact fun current => Prog.Only.bind (hlevel _) fun _ => ih _
  exact hloop _ _

lemma keeps_openWriter (path : Text) (offset : ℕ) : SourceKept (openWriter .target path offset) :=
  Prog.Only.ite (Prog.Only.bind (keeps_target _) fun _ => trivial) (Prog.Only.bind (keeps_target _) fun _ => trivial)

lemma keeps_write {h : Handle} (hside : h.side = .target) (data : Bytes) : SourceKept (h.write data) := by
  unfold Handle.write
  rw [hside]
  exact Prog.Only.bind (keeps_target _) fun _ => trivial

lemma keeps_close (h : Handle) : SourceKept h.close := Prog.Only.perform fun _ => rfl

lemma keeps_closeQuiet (h : Handle) : SourceKept h.closeQuiet := keeps_reads (reads_closeQuiet h)

lemma keeps_writeMeta (job : Job) (meta_path source_path target_path : Text) (source_size source_mtime : ℕ) :
    SourceKept (writeMeta job meta_path source_path target_path source_size source_mtime) := by
  have hopen : openWriter .target meta_path = (client .target (.open meta_path .write)).bind fun _ =>
      Prog.ret ⟨.target, meta_path, .write, 0⟩ := if_neg (Nat.lt_irrefl 0)
  unfold writeMeta
  dsimp only
  rw [hopen, Prog.bind_eq, Prog.bind_assoc]
  refine Prog.Only.bind (keeps_target _) fun _ => Prog.Only.handle ?_ fun e => ?_
  · exact Prog.Only.bind (keeps_write rfl _) fun writer => keeps_close writer
  · exact Prog.Only.bind (keeps_closeQuiet _) fun _ => trivial

lemma keeps_readMeta (meta_path : Text) : SourceKept (readMeta meta_path) := by
  have hchunks : ∀ n reader received, SourceKept (readChunks n reader received) := by
    intro n
    induction n with
    | zero => exact fun _ _ => trivial
    | succ n ih =>
      intro reader received
      exact Prog.Only.ite (Prog.Only.bind (keeps_reads (reads_read reader 4096)) fun x =>
        Prog.Only.ite trivial (ih _ _)) trivial
  refine Prog.Only.handle (Prog.Only.bind (keeps_reads (reads_openReader _ _)) fun reader =>
    Prog.Only.bind (Prog.Only.andFinally (hchunks _ _ _) (keeps_closeQuiet reader)) fun data => ?_) fun e =>
      Prog.Only.ite trivial trivial
  split
  · trivial
  · trivial

lemma keeps_resumeOffset (job : Job) (partial_path meta_path source_path target_path : Text)
    (source_size source_mtime : ℕ) :
    SourceKept (resumeOffset job partial_path meta_path source_path target_path source_size source_mtime) :=
  Prog.Only.bind (keeps_lstat _) fun _ => Prog.Only.ite trivial (Prog.Only.bind (keeps_readMeta _) fun _ =>
    Prog.Only.ite trivial (Prog.Only.ite trivial trivial))

lemma keeps_rename (a b : Text) : SourceKept (rename .target a b) :=
  (keeps_target _).handle fun _ => Prog.Only.ite
    (Prog.Only.bind (Prog.Only.suppress (keeps_target _)) fun _ => keeps_target _) trivial

/-- What leaves the source keeps it, whatever fails. -/
lemma wp_kept {G : SideOp → Servers → Choice → Prop} {A : Prop} (hA : A) {p : Sftp α} (hp : SourceKept p) {w : Servers} :
    wp sftp G (fun _ _ => A) p (fun _ w' => w' .source = w .source) w := by
  have hact : ∀ (o : SideOp) (c : Choice) (w : Servers), (o.1 = .source → o.2.touches = []) →
      (sftp.act o c w).2 .source = w .source := by
    intro o c w ho
    funext q
    exact servers_act_untouched (fun h => by rw [ho h]; exact List.not_mem_nil) c w
  suffices h : ∀ w', w' .source = w .source → wp sftp G (fun _ _ => A) p (fun _ w'' => w'' .source = w .source) w' from
    h w rfl
  induction p with
  | ret a => exact fun w' h => h
  | raise e => exact fun w' h => h
  | call o k ih => exact fun w' h => ⟨hA, fun c _ => ih _ (hp.2 _) _ ((hact o c w' hp.1).trans h)⟩

end

/-! ### Counting -/

/-- There is room in the totals for so many files and bytes more. -/
structure Room (t : Counters) (files bytes : ℕ) : Prop where
  files : ∀ total, t.files_total = some total → t.files_done + files ≤ total
  bytes : ∀ total, t.bytes_total = some total → t.bytes_done + bytes ≤ total

/-- Not more is done than there is to do. -/
abbrev Counted (t : Counters) : Prop := Room t 0 0

lemma Room.less {t : Counters} {files bytes files' bytes' : ℕ} (h : Room t files bytes) (hf : files' ≤ files)
    (hb : bytes' ≤ bytes) : Room t files' bytes' :=
  ⟨fun total ht => (Nat.add_le_add_left hf _).trans (h.files total ht),
    fun total ht => (Nat.add_le_add_left hb _).trans (h.bytes total ht)⟩

lemma Room.counted {t : Counters} {files bytes : ℕ} (h : Room t files bytes) : Counted t :=
  h.less (Nat.zero_le _) (Nat.zero_le _)

/-- A file that is there is not said to be missing. -/
def Honest : SideOp → Servers → Choice → Prop
  | (.source, .stat _), _, c => ∀ e, c.fails = some e → e.isMissing = false
  | _, _, _ => True

/-- The source, and what the job was told. -/
abbrev At (S : Server) (t : Counters) (W : Servers × Counters) : Prop := W.1 .source = S ∧ W.2 = t

/-- From the state the program ends in the postcondition or is stopped, and all the while not more is done than there
is to do. -/
abbrev Accounts {α : Type} (p : Relay α) (Q : α → Servers × Counters → Prop) (W : Servers × Counters) : Prop :=
  wp relay (Transfer.OnServers Honest) (fun _ W => Counted W.2) p (seqPost Q fun _ W => Counted W.2) W

/-- Where the program answers, it answers such a value. -/
abbrev Answers {α : Type} (A : Prop) (p : Sftp α) (Q : α → Prop) (w : Servers) : Prop :=
  wp sftp Honest (fun _ _ => A) p (seqPost (fun a _ => Q a) fun _ _ => True) w

section
variable {α β : Type} {A : Prop} {w : Servers}

lemma answers_bind {p : Sftp α} {k : α → Sftp β} {R : α → Prop} {Q : β → Prop} (hp : Answers A p R w)
    (hk : ∀ a w', R a → Answers A (k a) Q w') : Answers A (p.bind k) Q w :=
  wp_bind_of hp hk fun _ _ h => h

lemma answers_any (hA : A) {p : Sftp α} (hp : SourceKept p) : Answers A p (fun _ => True) w :=
  wp_mono (fun r _ _ => by cases r <;> trivial) (wp_kept hA hp)

/-- One call, from what it can answer. -/
lemma wp_call (hA : A) {side : Side} {o : SftpOp} {Q : o.Ans → Prop} {E : Exn → Prop}
    (hok : ∀ c a, Honest (side, o) w c → (o.act c (w side)).1 = .ok a → Q a)
    (herr : ∀ c e, Honest (side, o) w c → (o.act c (w side)).1 = .error e → E e) :
    wp sftp Honest (fun _ _ => A) (client side o) (seqPost (fun a _ => Q a) fun e _ => E e) w := by
  rw [client, wp_perform]
  refine ⟨hA, fun c hc => ?_⟩
  have hact : (sftp.act (side, o) c w).1 = (o.act c (w side)).1 := rfl
  rw [hact]
  cases h : (o.act c (w side)).1 with
  | ok a => exact hok c a hc h
  | error e => exact herr c e hc h

lemma answers_call (hA : A) {side : Side} {o : SftpOp} {Q : o.Ans → Prop}
    (hok : ∀ c a, (o.act c (w side)).1 = .ok a → Q a) : Answers A (client side o) Q w :=
  wp_call hA (fun c a _ => hok c a) fun _ _ _ _ => trivial

end

section
variable {α β : Type} {S : Server} {t : Counters} {W : Servers × Counters} {path : Text} {f : RegularFile}

lemma accounts_bind {p : Relay α} {k : α → Relay β} {R : α → Servers × Counters → Prop}
    {Q : β → Servers × Counters → Prop} (hp : Accounts p R W) (hk : ∀ a W', R a W' → Accounts (k a) Q W') :
    Accounts (p.bind k) Q W :=
  wp_bind_of hp hk fun _ _ h => h

lemma accounts_handle {p : Relay α} {h : Exn → Relay α} {Q : α → Servers × Counters → Prop} (hp : Accounts p Q W)
    (hh : ∀ e W', Counted W'.2 → Accounts (h e) Q W') : Accounts (p.handle h) Q W :=
  wp_handle_of hp (fun _ _ h => h) hh

lemma accounts_mono {p : Relay α} {R Q : α → Servers × Counters → Prop} (hp : Accounts p R W)
    (h : ∀ a W', R a W' → Q a W') : Accounts p Q W :=
  wp_mono (fun r W' hr => match r with
    | .ok a => h a W' hr
    | .error _ => hr) hp

/-- A program of the servers tells the job nothing. -/
lemma accounts_lift (ht : Counted t) (hW : At S t W) {p : Sftp α} {Q : Except Exn α → Servers → Prop}
    (h : wp sftp Honest (fun _ _ => Counted W.2) p Q W.1) :
    Accounts (Prog.liftL p) (fun a W' => Q (.ok a) W'.1 ∧ W'.2 = t) W := by
  refine (wp_liftL p _ W.1 W.2).2 (wp_mono (fun r w' hq => ?_) h)
  cases r with
  | ok a => exact ⟨hq, hW.2⟩
  | error e => exact hW.2 ▸ ht

lemma At.counted (hW : At S t W) (ht : Counted t) : Counted W.2 := hW.2 ▸ ht

lemma accounts_kept (ht : Counted t) (hW : At S t W) {p : Sftp α} (hp : SourceKept p) :
    Accounts (Prog.liftL p) (fun _ => At S t) W :=
  accounts_mono (accounts_lift ht hW (wp_kept (At.counted hW ht) hp)) fun _ _ h => ⟨h.1.trans hW.1, h.2⟩

/-- What a program answers that leaves the source. -/
lemma accounts_answers (ht : Counted t) (hW : At S t W) {p : Sftp α} {Q : α → Prop} (hp : SourceKept p)
    (hQ : Answers (Counted W.2) p Q W.1) : Accounts (Prog.liftL p) (fun a W' => Q a ∧ At S t W') W :=
  accounts_mono (accounts_lift ht hW (wp_and hQ (wp_kept (At.counted hW ht) hp))) fun _ _ h =>
    ⟨h.1.1, h.1.2.trans hW.1, h.2⟩

lemma accounts_update (ht : Counted t) (hW : At S t W) (g : Counters → Counters) :
    Accounts (update g) (fun _ => At S (g t)) W :=
  ⟨At.counted hW ht, fun _ _ => ⟨hW.1, congrArg g hW.2⟩⟩

lemma accounts_isCancelled (ht : Counted t) (hW : At S t W) : Accounts isCancelled (fun _ => At S t) W :=
  ⟨At.counted hW ht, fun _ _ => hW⟩

/-- What the source says of a file. -/
lemma accounts_stat (ht : Counted t) (hW : At S t W) (hf : S path = some (.file f)) :
    Accounts (Prog.liftL (stat .source path)) (fun s W' => s = FileStat.of (Node.file f).attrs ∧ At S t W') W := by
  have hsource := congrFun hW.1 path
  have hinfo : ∀ c a, ((SftpOp.stat path).act c (W.1 .source)).1 = .ok a → a = (Node.file f).attrs := by
    intro c a ha
    have hp := (act_ok ha).2
    simp only [SftpOp.perform, hsource, hf] at hp
    cases hp
    rfl
  have hthere : ∀ c e, Honest (.source, .stat path) W.1 c → ((SftpOp.stat path).act c (W.1 .source)).1 = .error e →
      e.isMissing = false := by
    intro c e hc he
    rcases act_error he with h | ⟨-, h⟩
    · exact hc e h
    · simp only [SftpOp.perform, hsource, hf] at h
      cases h
  refine accounts_answers ht hW (keeps_reads (reads_stat path)) ?_
  refine wp_handle_of (R := seqPost (fun s _ => s = FileStat.of (Node.file f).attrs) fun e _ => e.isMissing = false) ?_
    (fun _ _ h => h) fun e w' he => ?_
  · exact wp_bind_of (wp_call (At.counted hW ht) (fun c a _ => hinfo c a) hthere)
      (fun a w' ha => congrArg FileStat.of ha) fun e w' he => he
  · rw [show e.isMissing = false from he]
    trivial

/-- A read of the source answers its next chunk. -/
lemma accounts_read (ht : Counted t) (hW : At S t W) (hf : S path = some (.file f)) (k n : ℕ) :
    Accounts (Prog.liftL (Handle.read ⟨.source, path, .read, k⟩ n)) (fun x W' => x = ((f.data.drop k).take n,
      ⟨.source, path, .read, k + ((f.data.drop k).take n).length⟩) ∧ At S t W') W := by
  have hsource := congrFun hW.1 path
  have hchunk : ∀ c a, ((SftpOp.read path k n).act c (W.1 .source)).1 = .ok a → a = (f.data.drop k).take n := by
    intro c a ha
    have hp := (act_ok ha).2
    simp only [SftpOp.perform, hsource, hf] at hp
    cases hp
    rfl
  refine accounts_answers ht hW (keeps_reads (reads_read _ n)) ?_
  refine answers_bind (answers_call (At.counted hW ht) hchunk) fun a w' ha => ?_
  subst ha
  rfl

lemma accounts_write (ht : Counted t) (hW : At S t W) {h : Handle} (hside : h.side = .target) (data : Bytes) :
    Accounts (Prog.liftL (h.write data)) (fun h' W' => h'.side = .target ∧ At S t W') W :=
  accounts_answers ht hW (keeps_write hside data)
    (answers_bind (answers_call (At.counted hW ht) fun _ _ _ => trivial) fun _ _ _ => hside)

/-! ### One file -/

/-- The loop counts the bytes that are still to copy. -/
lemma accounts_copyLoop (chunk_size : ChunkSize) (hf : S path = some (.file f)) (n : ℕ) {k : ℕ} {writer : Handle}
    (hside : writer.side = .target) (hk : k ≤ f.data.length) (ht : Room t 0 (f.data.length - k)) (hW : At S t W)
    (hn : f.data.length - k < n) :
    Accounts (copyLoop chunk_size n ⟨.source, path, .read, k⟩ writer)
      (fun _ => At S { t with bytes_done := t.bytes_done + (f.data.length - k) }) W := by
  induction n generalizing k t W writer with
  | zero => exact absurd hn (Nat.not_lt_zero _)
  | succ n ih =>
    rw [copyLoop]
    simp only [Prog.bind_eq, Prog.pure_eq, Prog.throw_eq, Transfer.lift_eq]
    refine accounts_bind (accounts_isCancelled ht.counted hW) fun b W1 h1 => ?_
    cases b with
    | true => exact h1.2 ▸ ht.counted
    | false =>
      refine accounts_bind (accounts_read ht.counted h1 hf k chunk_size.bytes) ?_
      rintro ⟨chunk, reader⟩ W2 ⟨hx, h2⟩
      obtain ⟨rfl, rfl⟩ := Prod.mk.inj hx
      have hlen : ((f.data.drop k).take chunk_size.bytes).length = min chunk_size.bytes (f.data.length - k) := by
        rw [List.length_take, List.length_drop]
      have hmin := chunk_size.min
      dsimp only
      refine wp_ite (fun hend => ?_) fun hne => ?_
      · -- the end of the source
        rw [hend, List.length_nil] at hlen
        rw [show f.data.length - k = 0 by omega]
        exact h2
      · have hpos := List.length_pos_iff.2 hne
        refine accounts_bind (accounts_write ht.counted h2 hside _) ?_
        rintro writer' W3 ⟨hside', h3⟩
        refine accounts_bind (accounts_update ht.counted h3 _) fun _ W4 h4 => ?_
        have hroom : Room { t with bytes_done := t.bytes_done + ((f.data.drop k).take chunk_size.bytes).length } 0
            (f.data.length - (k + ((f.data.drop k).take chunk_size.bytes).length)) := by
          refine ⟨ht.files, fun total h => ?_⟩
          have := ht.bytes total h
          dsimp only
          omega
        refine accounts_mono (ih hside' (by omega) hroom h4 (by omega)) fun _ W5 h5 => ⟨h5.1, h5.2.trans ?_⟩
        rw [Counters.mk.injEq]
        exact ⟨rfl, rfl, rfl, rfl, rfl, by dsimp only; omega, rfl, rfl⟩

/-- What is kept of a staged file is not longer than the source. -/
lemma accounts_resumeOffset (ht : Counted t) (hW : At S t W) (job : Job) (partial_path meta_path source_path
    target_path : Text) (source_size source_mtime : ℕ) :
    Accounts (Prog.liftL (resumeOffset job partial_path meta_path source_path target_path source_size source_mtime))
      (fun k W' => k ≤ source_size ∧ At S t W') W := by
  refine accounts_answers ht hW (keeps_resumeOffset _ _ _ _ _ _ _) ?_
  unfold resumeOffset
  refine answers_bind (answers_any (At.counted hW ht) (keeps_lstat _)) fun st w' _ => ?_
  refine wp_ite (fun _ => Nat.zero_le _) fun _ => ?_
  refine answers_bind (answers_any (At.counted hW ht) (keeps_readMeta _)) fun kvs w'' _ => ?_
  exact wp_ite (fun _ => Nat.zero_le _) fun _ => wp_ite (fun _ => Nat.zero_le _) fun hle => Nat.not_lt.1 hle

lemma accounts_openReader (ht : Counted t) (hW : At S t W) (path : Text) (k : ℕ) :
    Accounts (Prog.liftL (openReader .source path k)) (fun reader W' => reader = ⟨.source, path, .read, k⟩ ∧ At S t W')
      W :=
  accounts_answers ht hW (keeps_reads (reads_openReader path k))
    (answers_bind (answers_call (At.counted hW ht) fun _ _ _ => trivial) fun _ _ _ => rfl)

lemma accounts_openWriter (ht : Counted t) (hW : At S t W) (path : Text) (k : ℕ) :
    Accounts (Prog.liftL (openWriter .target path k)) (fun writer W' => writer.side = .target ∧ At S t W') W := by
  have hopen : ∀ m, Answers (Counted W.2) (client .target (.open path m)) (fun _ => True) W.1 := fun m =>
    answers_any (At.counted hW ht) (keeps_target _)
  refine accounts_answers ht hW (keeps_openWriter path k) (wp_ite (fun _ => ?_) fun _ => ?_)
  · exact answers_bind (hopen .update) fun _ _ _ => rfl
  · exact answers_bind (hopen .write) fun _ _ _ => rfl

/-- Behind what was kept of a file, the rest of it is counted. -/
lemma accounts_deliver (chunk_size : ChunkSize) (hf : S path = some (.file f)) (target_path : Text)
    (ht : Room t 0 f.data.length) {k : ℕ} (hk : k ≤ f.data.length) (hW : At S
      { t with
        current_path := some path, resumed_bytes := t.resumed_bytes + k, bytes_done := t.bytes_done + k } W)
    (mtime : ℕ) :
    Accounts (do
        let reader ← (openReader .source path k : Sftp _)
        let writer ← (openWriter .target (partialPath target_path) k : Sftp _)
        Prog.handle
          (do
            copyLoop chunk_size (f.data.length + 1) reader writer
            writer.close
            reader.close)
          fun e => do
            reader.closeQuiet
            writer.closeQuiet
            throw e
        rename .target (partialPath target_path) target_path
        Prog.liftL (Prog.suppress Exn.isException (remove .target (metaPath target_path)))
        if mtime > 0 then
          Prog.liftL (Prog.suppress Exn.isException (setMtime .target target_path mtime)))
      (fun _ W' => ∃ k ≤ f.data.length, At S
        { t with
          current_path := some path, resumed_bytes := t.resumed_bytes + k, bytes_done := t.bytes_done + f.data.length }
        W') W := by
  simp only [Prog.bind_eq, Prog.pure_eq, Prog.throw_eq, Transfer.lift_eq]
  have hroom : Room { t with
      current_path := some path, resumed_bytes := t.resumed_bytes + k, bytes_done := t.bytes_done + k } 0
      (f.data.length - k) := by
    refine ⟨ht.files, fun total h => ?_⟩
    have := ht.bytes total h
    dsimp only
    omega
  have hall : Counted { t with
      current_path := some path, resumed_bytes := t.resumed_bytes + k, bytes_done := t.bytes_done + f.data.length } :=
    ⟨ht.files, fun total h => ht.bytes total h⟩
  refine accounts_bind (accounts_openReader hroom.counted hW path k) ?_
  rintro reader W1 ⟨rfl, h1⟩
  refine accounts_bind (accounts_openWriter hroom.counted h1 _ k) ?_
  rintro writer W2 ⟨hside, h2⟩
  refine accounts_bind (R := fun _ => At S { t with
    current_path := some path, resumed_bytes := t.resumed_bytes + k, bytes_done := t.bytes_done + f.data.length }) ?_ ?_
  · refine accounts_handle ?_ fun e W3 h3 => ?_
    · refine accounts_bind (accounts_copyLoop chunk_size hf _ hside hk hroom h2 (by omega)) fun _ W3 h3 => ?_
      have h3' : At S { t with
          current_path := some path, resumed_bytes := t.resumed_bytes + k,
          bytes_done := t.bytes_done + f.data.length } W3 := by
        refine ⟨h3.1, h3.2.trans ?_⟩
        rw [Counters.mk.injEq]
        exact ⟨rfl, rfl, rfl, rfl, rfl, by dsimp only; omega, rfl, rfl⟩
      exact accounts_bind (accounts_kept hall h3' (keeps_close _)) fun _ W4 h4 =>
        accounts_kept hall h4 (keeps_close _)
    · -- the handles are closed behind a failure
      refine accounts_bind (accounts_kept h3 ⟨rfl, rfl⟩ (keeps_closeQuiet _)) fun _ W4 h4 => ?_
      exact accounts_bind (accounts_kept h3 h4 (keeps_closeQuiet _)) fun _ W5 h5 => At.counted h5 h3
  · intro _ W3 h3
    refine accounts_bind (accounts_kept hall h3 (keeps_rename _ _)) fun _ W4 h4 => ?_
    refine accounts_bind (accounts_kept hall h4 (Prog.Only.suppress (keeps_target _))) fun _ W5 h5 => ?_
    refine wp_ite (fun _ => ?_) fun _ => ⟨k, hk, h5⟩
    exact accounts_mono (accounts_kept hall h5 (Prog.Only.suppress (keeps_target _))) fun _ W6 h6 => ⟨k, hk, h6⟩

/-- A file that was copied is counted once, whatever of it was there. -/
lemma accounts_relayFile (job : Job) (chunk_size : ChunkSize) (hf : S path = some (.file f)) (target_path : Text)
    (ht : Room t 0 f.data.length) (hW : At S t W) :
    Accounts (relayFile job path target_path chunk_size) (fun _ W' => ∃ k ≤ f.data.length, At S
      { t with
        current_path := some path, resumed_bytes := t.resumed_bytes + k, bytes_done := t.bytes_done + f.data.length }
      W') W := by
  rw [relayFile]
  simp only [Prog.bind_eq, Prog.pure_eq, Prog.throw_eq, Transfer.lift_eq]
  refine accounts_bind (accounts_update ht.counted hW _) fun _ W1 h1 => ?_
  have ht1 : Room { t with current_path := some path } 0 f.data.length := ⟨ht.files, ht.bytes⟩
  refine accounts_bind (accounts_kept ht1.counted h1 (keeps_mkdir _)) fun _ W2 h2 => ?_
  refine accounts_bind (accounts_stat ht1.counted h2 hf) ?_
  rintro s W3 ⟨rfl, h3⟩
  refine accounts_bind (accounts_resumeOffset ht1.counted h3 _ _ _ _ _ _ _) ?_
  rintro k W4 ⟨hk, h4⟩
  replace hk : k ≤ f.data.length := hk
  refine wp_ite (fun hpos => ?_) fun hpos => ?_
  · exact accounts_bind (accounts_update ht1.counted h4 _) fun _ W5 h5 =>
      accounts_deliver chunk_size hf target_path ht hk h5 _
  · obtain rfl : k = 0 := by omega
    exact accounts_bind (accounts_kept ht1.counted h4 (keeps_writeMeta _ _ _ _ _ _)) fun _ W5 h5 =>
      accounts_deliver chunk_size hf target_path ht hk h5 _

end

/-! ### What there is to do in a tree -/

/-- Whether a walk goes down, or what it counts. -/
def entryTally (tree : SourceTree) (excludes : List Text) (below : Text → ℕ × ℕ × ℕ) (dir name : Text) : ℕ × ℕ × ℕ :=
  if !kept excludes name then 0
  else
    let s := tree.lstat (child dir name)
    if !s.exists_ then 0
    else if s.is_symlink then 0
    else if s.is_dir then below (child dir name)
    else (0, 1, s.size_b)

/-- The directories, the files and the bytes of a directory, at most so deep. -/
def tally (tree : SourceTree) (excludes : List Text) : ℕ → Text → ℕ × ℕ × ℕ
  | 0, _ => 0
  | n + 1, dir =>
    (1, 0, 0) + (((tree.listdir dir).getD []).map (entryTally tree excludes (tally tree excludes n) dir)).sum

/-- A directory that is at most so deep. -/
def Deep (tree : SourceTree) : ℕ → Text → Prop
  | 0, _ => False
  | n + 1, dir => ∃ names, tree.listdir dir = some names ∧ ∀ name ∈ names, name ≠ ['.'] → name ≠ ['.', '.'] →
      Enters (tree.lstat (child dir name)) → Deep tree n (child dir name)

section
variable {tree : SourceTree} {excludes : List Text} {dir name : Text}

lemma Deep.succ {n : ℕ} (h : Deep tree n dir) : Deep tree (n + 1) dir := by
  induction n generalizing dir with
  | zero => exact h.elim
  | succ n ih =>
    obtain ⟨names, hlist, hdeep⟩ := h
    exact ⟨names, hlist, fun name hname h1 h2 he => ih (hdeep name hname h1 h2 he)⟩

lemma Deep.mono {n m : ℕ} (h : Deep tree n dir) (hle : n ≤ m) : Deep tree m dir := by
  induction hle with
  | refl => exact h
  | step _ ih => exact ih.succ

lemma exists_deep (h : Finite tree.lstat tree.listdir dir) : ∃ n, Deep tree n dir := by
  induction h with
  | @intro dir names hlist hbelow ih =>
    -- one depth that is enough for every entry
    have hall : ∀ l : List Text, (∀ name ∈ l, name ∈ names) → ∃ n, ∀ name ∈ l, name ≠ ['.'] → name ≠ ['.', '.'] →
        Enters (tree.lstat (child dir name)) → Deep tree n (child dir name) := by
      intro l
      induction l with
      | nil => exact fun _ => ⟨0, fun name h => absurd h List.not_mem_nil⟩
      | cons name l ihl =>
        intro hl
        obtain ⟨n, hn⟩ := ihl fun x hx => hl x (List.mem_cons_of_mem _ hx)
        by_cases he : name ≠ ['.'] ∧ name ≠ ['.', '.'] ∧ Enters (tree.lstat (child dir name))
        · obtain ⟨m, hm⟩ := ih name (hl name List.mem_cons_self) he.1 he.2.1 he.2.2
          refine ⟨max n m, fun x hx h1 h2 h3 => ?_⟩
          rcases List.mem_cons.1 hx with rfl | hx
          · exact hm.mono (le_max_right n m)
          · exact (hn x hx h1 h2 h3).mono (le_max_left n m)
        · refine ⟨n, fun x hx h1 h2 h3 => ?_⟩
          rcases List.mem_cons.1 hx with rfl | hx
          · exact absurd ⟨h1, h2, h3⟩ he
          · exact hn x hx h1 h2 h3
    obtain ⟨n, hn⟩ := hall names fun _ h => h
    exact ⟨n + 1, names, hlist, hn⟩

lemma kept_dots (h : kept excludes name = true) : name ≠ ['.'] ∧ name ≠ ['.', '.'] := by
  simp only [kept, Bool.not_eq_true', Bool.or_eq_false_iff, decide_eq_false_iff_not] at h
  exact h.1

lemma entry_cases (s : FileStat) : s.exists_ = false ∨ s.is_symlink = true ∨ Enters s ∨ Copies s := by
  unfold Enters Copies
  cases s.exists_
  · exact .inl rfl
  · cases s.is_symlink
    · cases s.is_dir
      · exact .inr (.inr (.inr ⟨rfl, rfl, rfl⟩))
      · exact .inr (.inr (.inl ⟨rfl, rfl, rfl⟩))
    · exact .inr (.inl rfl)

section
variable {below below' : Text → ℕ × ℕ × ℕ}

lemma entryTally_skipped (hkept : kept excludes name = false) : entryTally tree excludes below dir name = 0 := by
  simp only [entryTally, hkept, Bool.not_false, if_true]

lemma entryTally_missing (hexists : (tree.lstat (child dir name)).exists_ = false) :
    entryTally tree excludes below dir name = 0 := by
  simp only [entryTally, hexists, Bool.not_false, if_true, ite_self]

lemma entryTally_link (hlink : (tree.lstat (child dir name)).is_symlink = true) :
    entryTally tree excludes below dir name = 0 := by
  simp only [entryTally, hlink, if_true, ite_self]

lemma entryTally_enters (hkept : kept excludes name = true) (h : Enters (tree.lstat (child dir name))) :
    entryTally tree excludes below dir name = below (child dir name) := by
  simp only [entryTally, hkept, h.1, h.2.1, h.2.2, Bool.not_true, Bool.false_eq_true, if_true, if_false]

lemma entryTally_copies (hkept : kept excludes name = true) (h : Copies (tree.lstat (child dir name))) :
    entryTally tree excludes below dir name = (0, 1, (tree.lstat (child dir name)).size_b) := by
  simp only [entryTally, hkept, h.1, h.2.1, h.2.2, Bool.not_true, Bool.false_eq_true, if_false]

lemma entryTally_congr (h : name ≠ ['.'] → name ≠ ['.', '.'] → Enters (tree.lstat (child dir name)) →
      below (child dir name) = below' (child dir name)) :
    entryTally tree excludes below dir name = entryTally tree excludes below' dir name := by
  cases hkept : kept excludes name with
  | false => rw [entryTally_skipped hkept, entryTally_skipped hkept]
  | true =>
    rcases entry_cases (tree.lstat (child dir name)) with hexists | hlink | henters | hcopies
    · rw [entryTally_missing hexists, entryTally_missing hexists]
    · rw [entryTally_link hlink, entryTally_link hlink]
    · rw [entryTally_enters hkept henters, entryTally_enters hkept henters]
      exact h (kept_dots hkept).1 (kept_dots hkept).2 henters
    · rw [entryTally_copies hkept hcopies, entryTally_copies hkept hcopies]

end

/-- A tally that went all the way down does not change. -/
lemma tally_deep {n m : ℕ} (h : Deep tree n dir) (hle : n ≤ m) :
    tally tree excludes m dir = tally tree excludes n dir := by
  induction n generalizing dir m with
  | zero => exact h.elim
  | succ n ih =>
    obtain ⟨m, rfl⟩ : ∃ k, m = k + 1 := ⟨m - 1, by omega⟩
    obtain ⟨names, hlist, hdeep⟩ := h
    simp only [tally, hlist, Option.getD_some]
    congr 2
    refine List.map_congr_left fun name hname => entryTally_congr fun h1 h2 he => ?_
    exact ih (hdeep name hname h1 h2 he) (by omega)

variable (excludes) in
/-- What is under a directory is what its entries come to. -/
lemma tally_step {d : ℕ} (h : Deep tree d dir) : ∃ names, tree.listdir dir = some names ∧
    (∀ name ∈ names, name ≠ ['.'] → name ≠ ['.', '.'] → Enters (tree.lstat (child dir name)) →
      Deep tree d (child dir name)) ∧
    tally tree excludes d dir = (1, 0, 0) + (names.map (entryTally tree excludes (tally tree excludes d) dir)).sum := by
  cases d with
  | zero => exact h.elim
  | succ d =>
    obtain ⟨names, hlist, hdeep⟩ := h
    refine ⟨names, hlist, fun name hname h1 h2 he => (hdeep name hname h1 h2 he).succ, ?_⟩
    rw [tally, hlist, Option.getD_some]
    congr 2
    refine List.map_congr_left fun name hname => entryTally_congr fun h1 h2 he => ?_
    exact (tally_deep (hdeep name hname h1 h2 he) (Nat.le_succ d)).symm

end

/-! ### The walks -/

/-- A guard on the calls of the relay as a guard on those of the walks. -/
def OnRelay (G : SideOp ⊕ JobOp → Servers × Counters → Choice → Prop) :
    (SideOp ⊕ JobOp) ⊕ WalkOp → (Servers × Counters) × List Text → Choice → Prop
  | .inl o, V, c => G o V.1 c
  | .inr _, _, _ => True

/-- What a relay of a directory accounts for. -/
def AccountsWalk {α : Type} (tree : SourceTree) (p : Walk α) (Q : α → Servers × Counters → Prop)
    (V : (Servers × Counters) × List Text) : Prop :=
  wp (relayOf tree) (OnRelay (Transfer.OnServers Honest)) (fun _ V => Counted V.1.2) p
    (seqPost (fun a V' => Q a V'.1) fun _ V' => Counted V'.1.2) V

/-- What the server of the source has is what its listings and its `lstat` say. -/
structure Mirrors (tree : SourceTree) (S : Server) : Prop where
  files : ∀ path, Copies (tree.lstat path) → ∃ f, S path = some (.file f) ∧ f.data.length = (tree.lstat path).size_b
  links : ∀ path, (tree.lstat path).is_symlink = true → (tree.lstat path).is_dir = false

/-- So many files and bytes more are done. -/
structure Grown (t t' : Counters) (files bytes : ℕ) : Prop where
  files_total : t'.files_total = t.files_total
  bytes_total : t'.bytes_total = t.bytes_total
  files_done : t'.files_done = t.files_done + files
  bytes_done : t'.bytes_done = t.bytes_done + bytes
  /-- What was skipped or was there already is part of what is done. -/
  files_skipped : t'.files_skipped + t.files_done ≤ t.files_skipped + t'.files_done
  bytes_kept : t'.resumed_bytes + t'.bytes_skipped + t.bytes_done ≤ t.resumed_bytes + t.bytes_skipped + t'.bytes_done

lemma Grown.refl (t : Counters) : Grown t t 0 0 := ⟨rfl, rfl, rfl, rfl, le_rfl, le_rfl⟩

lemma Grown.trans {t t' t'' : Counters} {files bytes files' bytes' : ℕ} (h : Grown t t' files bytes)
    (h' : Grown t' t'' files' bytes') : Grown t t'' (files + files') (bytes + bytes') where
  files_total := h'.files_total.trans h.files_total
  bytes_total := h'.bytes_total.trans h.bytes_total
  files_done := by rw [h'.files_done, h.files_done, Nat.add_assoc]
  bytes_done := by rw [h'.bytes_done, h.bytes_done, Nat.add_assoc]
  files_skipped := by
    have := h.files_skipped
    have := h'.files_skipped
    omega
  bytes_kept := by
    have := h.bytes_kept
    have := h'.bytes_kept
    omega

lemma Room.rest {t t' : Counters} {files bytes files' bytes' : ℕ} (ht : Room t (files + files') (bytes + bytes'))
    (h : Grown t t' files bytes) : Room t' files' bytes' where
  files total htotal := by
    have := ht.files total (h.files_total ▸ htotal)
    rw [h.files_done]
    omega
  bytes total htotal := by
    have := ht.bytes total (h.bytes_total ▸ htotal)
    rw [h.bytes_done]
    omega

section
variable {α β : Type} {tree : SourceTree} {excludes : List Text} {S : Server} {t : Counters}
  {V : (Servers × Counters) × List Text} {dir : Text}

lemma walk_ret {a : α} {Q : α → Servers × Counters → Prop} (h : Q a V.1) : AccountsWalk tree (Prog.ret a) Q V := h

lemma walk_raise {e : Exn} {Q : α → Servers × Counters → Prop} (h : Counted V.1.2) :
    AccountsWalk tree (Prog.raise e) Q V := h

lemma walk_ite {b : Prop} [Decidable b] {p q : Walk α} {Q : α → Servers × Counters → Prop}
    (hp : b → AccountsWalk tree p Q V) (hq : ¬b → AccountsWalk tree q Q V) :
    AccountsWalk tree (if b then p else q) Q V :=
  wp_ite hp hq

lemma walk_bind {p : Walk α} {k : α → Walk β} {R : α → Servers × Counters → Prop} {Q : β → Servers × Counters → Prop}
    (hp : AccountsWalk tree p R V) (hk : ∀ a V', R a V'.1 → AccountsWalk tree (k a) Q V') :
    AccountsWalk tree (p.bind k) Q V :=
  wp_bind_of hp hk fun _ _ h => h

lemma walk_mono {p : Walk α} {R Q : α → Servers × Counters → Prop} (hp : AccountsWalk tree p R V)
    (h : ∀ a W', R a W' → Q a W') : AccountsWalk tree p Q V :=
  wp_mono (fun r V' hr => match r with
    | .ok a => h a V'.1 hr
    | .error _ => hr) hp

lemma walk_lift {p : Relay α} {Q : α → Servers × Counters → Prop} (h : Accounts p Q V.1) :
    AccountsWalk tree (Prog.liftL p) Q V :=
  (wp_liftL p _ V.1 V.2).2 (wp_mono (fun r _ hr => match r with
    | .ok _ => hr
    | .error _ => hr) h)

lemma walk_listdir (ht : Counted t) (hW : At S t V.1) : AccountsWalk tree (onWalk (.listdir dir))
    (fun names W' => tree.listdir dir = some names ∧ At S t W') V := by
  refine (wp_perform _ _ _).2 ⟨At.counted hW ht, fun c _ => ?_⟩
  simp only [relayOf, Sem.sum_act_inr, walks]
  cases c.fails with
  | some e => exact At.counted hW ht
  | none =>
    cases hlist : tree.listdir dir with
    | none => exact At.counted hW ht
    | some names => exact ⟨rfl, hW⟩

lemma walk_lstat (ht : Counted t) (hW : At S t V.1) (path : Text) : AccountsWalk tree (onWalk (.lstat path))
    (fun s W' => s = tree.lstat path ∧ At S t W') V := by
  refine (wp_perform _ _ _).2 ⟨At.counted hW ht, fun c _ => ?_⟩
  simp only [relayOf, Sem.sum_act_inr, walks]
  cases c.fails with
  | some e => exact At.counted hW ht
  | none => exact ⟨rfl, hW⟩

lemma walk_warn (ht : Counted t) (hW : At S t V.1) (text : Text) :
    AccountsWalk tree (onWalk (.warn text)) (fun _ => At S t) V :=
  (wp_perform _ _ _).2 ⟨At.counted hW ht, fun _ _ => hW⟩

lemma walk_lift_eq (p : Relay α) : (liftM p : Walk α) = Prog.liftL p := rfl

lemma walk_lift_eq_sftp (p : Sftp α) : (liftM p : Walk α) = Prog.liftL (Prog.liftL p) := rfl

/-- The names of a directory: what they come to is added or is left to do. -/
lemma walk_countEntries {d : ℕ} (ht : Counted t) (names : List Text)
    (hdeep : ∀ name ∈ names, name ≠ ['.'] → name ≠ ['.', '.'] → Enters (tree.lstat (child dir name)) →
      Deep tree d (child dir name)) (hlinks : ∀ path, (tree.lstat path).is_symlink = true →
      (tree.lstat path).is_dir = false) {stack : List Text} (hstack : ∀ x ∈ stack, Deep tree d x) (totals : ℕ × ℕ)
    (hW : At S t V.1) :
    AccountsWalk tree (countEntries excludes dir names stack totals) (fun r W' => At S t W' ∧
      (∀ x ∈ r.1, Deep tree d x) ∧ (r.1.map (tally tree excludes d)).sum + (0, r.2) =
        (stack.map (tally tree excludes d)).sum + (0, totals) +
          (names.map (entryTally tree excludes (tally tree excludes d) dir)).sum) V := by
  induction names generalizing stack totals V with
  | nil => exact walk_ret ⟨hW, hstack, rfl⟩
  | cons name names ih =>
    have ih' := fun (stack : List Text) (hstack : ∀ x ∈ stack, Deep tree d x) (totals : ℕ × ℕ)
      {V : (Servers × Counters) × List Text} (hW : At S t V.1) =>
        ih (fun x hx => hdeep x (List.mem_cons_of_mem _ hx)) hstack totals hW
    simp only [List.map_cons, List.sum_cons]
    rw [countEntries]
    simp only [Prog.bind_eq]
    -- an entry that comes to nothing
    have hnone : entryTally tree excludes (tally tree excludes d) dir name = 0 → ∀ V, At S t V.1 →
        AccountsWalk tree (countEntries excludes dir names stack totals) (fun r W' => At S t W' ∧
          (∀ x ∈ r.1, Deep tree d x) ∧ (r.1.map (tally tree excludes d)).sum + (0, r.2) =
            (stack.map (tally tree excludes d)).sum + (0, totals) +
              (entryTally tree excludes (tally tree excludes d) dir name +
                (names.map (entryTally tree excludes (tally tree excludes d) dir)).sum)) V := by
      intro h0 V hV
      rw [h0, zero_add]
      exact ih' stack hstack totals hV
    refine walk_ite (fun hkept => hnone (entryTally_skipped (by simpa using hkept)) V hW) fun hkept => ?_
    replace hkept : kept excludes name = true := by simpa using hkept
    refine walk_bind (walk_lstat ht hW _) ?_
    rintro s V' ⟨rfl, hV'⟩
    refine walk_ite (fun hexists => hnone (entryTally_missing (by simpa using hexists)) V' hV') fun hexists => ?_
    refine walk_ite (fun hdir => ?_) fun hdir => walk_ite (fun hlink => ?_) fun hlink =>
      hnone (entryTally_link (by simpa using hlink)) V' hV'
    · -- a directory is left for later
      have hlink : ¬(tree.lstat (child dir name)).is_symlink = true := fun h => by
        rw [hlinks _ h] at hdir
        cases hdir
      have henters : Enters (tree.lstat (child dir name)) := ⟨by simpa using hexists, by simpa using hlink, hdir⟩
      have hchild : Deep tree d (child dir name) :=
        hdeep name List.mem_cons_self (kept_dots hkept).1 (kept_dots hkept).2 henters
      refine walk_mono (ih' (child dir name :: stack) ?_ totals hV') fun r W' h => ⟨h.1, h.2.1, ?_⟩
      · intro x hx
        rcases List.mem_cons.1 hx with rfl | hx
        · exact hchild
        · exact hstack x hx
      · rw [h.2.2, entryTally_enters hkept henters, List.map_cons, List.sum_cons]
        abel
    · -- a file is counted
      have hcopies : Copies (tree.lstat (child dir name)) :=
        ⟨by simpa using hexists, by simpa using hlink, by simpa using hdir⟩
      refine walk_mono (ih' stack hstack (totals.1 + 1, totals.2 + (tree.lstat (child dir name)).size_b) hV') fun r W' h =>
        ⟨h.1, h.2.1, ?_⟩
      rw [h.2.2, entryTally_copies hkept hcopies]
      have hadd : ((0, totals.1 + 1, totals.2 + (tree.lstat (child dir name)).size_b) : ℕ × ℕ × ℕ) =
          (0, totals) + (0, 1, (tree.lstat (child dir name)).size_b) := rfl
      rw [hadd]
      abel

/-- The walk that counts comes to what there is to do, given steps for every directory. -/
lemma walk_countTree {d : ℕ} (ht : Counted t) (hlinks : ∀ path, (tree.lstat path).is_symlink = true →
    (tree.lstat path).is_dir = false) (n : ℕ) {stack : List Text} (hstack : ∀ x ∈ stack, Deep tree d x)
    (totals : ℕ × ℕ) (hn : ((stack.map (tally tree excludes d)).sum).1 ≤ n) (hW : At S t V.1) :
    AccountsWalk tree (countTree excludes n stack totals) (fun r W' => At S t W' ∧
      r = some ((stack.map (tally tree excludes d)).sum + (0, totals)).2) V := by
  induction n generalizing stack totals V with
  | zero =>
    cases stack with
    | nil => exact walk_ret ⟨hW, by simp⟩
    | cons current stack =>
      obtain ⟨names, -, -, hcurrent⟩ := tally_step excludes (hstack current List.mem_cons_self)
      rw [List.map_cons, List.sum_cons, hcurrent] at hn
      simp only [Prod.fst_add] at hn
      omega
  | succ n ih =>
    cases stack with
    | nil => exact walk_ret ⟨hW, by simp⟩
    | cons current stack =>
      obtain ⟨names, hlist, hdeep, hcurrent⟩ := tally_step excludes (hstack current List.mem_cons_self)
      rw [countTree]
      simp only [Prog.bind_eq, Prog.throw_eq, walk_lift_eq]
      refine walk_bind (walk_lift (accounts_isCancelled ht hW)) fun b V1 h1 => ?_
      cases b with
      | true => exact walk_raise (At.counted h1 ht)
      | false =>
        refine walk_bind (walk_listdir ht h1) ?_
        rintro names' V2 ⟨hlist', h2⟩
        obtain rfl := Option.some.inj (hlist'.symm.trans hlist)
        refine walk_bind (walk_countEntries ht names' hdeep hlinks
          (fun x hx => hstack x (List.mem_cons_of_mem _ hx)) totals h2) ?_
        rintro ⟨stack', totals'⟩ V3 ⟨h3, hstack', hsum⟩
        have hstep : (1, 0, 0) + ((stack'.map (tally tree excludes d)).sum + (0, totals')) =
            ((current :: stack).map (tally tree excludes d)).sum + (0, totals) := by
          rw [hsum, List.map_cons, List.sum_cons, hcurrent]
          abel
        have h1st := congrArg Prod.fst hstep
        rw [Prod.fst_add, Prod.fst_add, Prod.fst_add] at h1st
        have hfuel : ((stack'.map (tally tree excludes d)).sum).1 ≤ n := by
          dsimp only at h1st
          omega
        refine walk_mono (ih hstack' totals' hfuel h3) fun r W' h => ⟨h.1, h.2.trans ?_⟩
        rw [← hstep]
        simp

/-- A file of the tree is done once, copied or skipped. -/
lemma accounts_relayChild (job : Job) (chunk_size : ChunkSize) {source_child target_child : Text}
    {W : Servers × Counters} (hmirror : Mirrors tree S) (hcopies : Copies (tree.lstat source_child))
    (ht : Room t 1 (tree.lstat source_child).size_b) (hW : At S t W) :
    Accounts (relayChild job chunk_size source_child target_child (tree.lstat source_child))
      (fun _ W' => ∃ t', Grown t t' 1 (tree.lstat source_child).size_b ∧ At S t' W') W := by
  obtain ⟨f, hf, hsize⟩ := hmirror.files _ hcopies
  rw [relayChild]
  simp only [Prog.bind_eq, Transfer.lift_eq]
  refine accounts_bind (accounts_kept ht.counted hW (keeps_lstat _)) fun target_stat W1 h1 => ?_
  refine wp_ite (fun _ => ?_) fun _ => ?_
  · refine accounts_mono (accounts_update ht.counted h1 _) fun _ W2 h2 => ⟨_, ?_, h2⟩
    refine ⟨rfl, rfl, rfl, rfl, ?_, ?_⟩
    · dsimp only
      omega
    · dsimp only
      omega
  · have hfile : Room t 0 f.data.length := ht.less (Nat.zero_le 1) (le_of_eq hsize)
    refine accounts_bind (accounts_relayFile job chunk_size hf target_child hfile h1) ?_
    rintro _ W2 ⟨k, hk, h2⟩
    have hdone : Counted { t with
        current_path := some source_child, resumed_bytes := t.resumed_bytes + k,
        bytes_done := t.bytes_done + f.data.length } := ⟨hfile.files, hfile.bytes⟩
    refine accounts_mono (accounts_update hdone h2 _) fun _ W3 h3 => ⟨_, ?_, h3⟩
    refine ⟨rfl, rfl, rfl, congrArg (t.bytes_done + ·) hsize, ?_, ?_⟩
    · dsimp only
      omega
    · dsimp only
      omega

/-- From every state with room the program does so many files and bytes, and goes down far enough. -/
def Delivers (tree : SourceTree) (S : Server) (p : Walk Bool) (todo : ℕ × ℕ × ℕ) : Prop :=
  ∀ t V, Room t todo.2.1 todo.2.2 → At S t V.1 →
    AccountsWalk tree p (fun b W' => b = true ∧ ∃ t', Grown t t' todo.2.1 todo.2.2 ∧ At S t' W') V

/-- What there is to do first, then the rest of it. -/
lemma Delivers.after {p : Walk α} {k : α → Walk Bool} {R : α → Servers × Counters → Prop} {first rest : ℕ × ℕ × ℕ}
    (ht : Room t (first + rest).2.1 (first + rest).2.2)
    (hp : AccountsWalk tree p (fun a W' => R a W' ∧ ∃ t', Grown t t' first.2.1 first.2.2 ∧ At S t' W') V)
    (hk : ∀ a W', R a W' → Delivers tree S (k a) rest) :
    AccountsWalk tree (p.bind k)
      (fun b W' => b = true ∧ ∃ t', Grown t t' (first + rest).2.1 (first + rest).2.2 ∧ At S t' W') V := by
  refine walk_bind hp ?_
  rintro a V' ⟨ha, t', hgrown, hV'⟩
  refine walk_mono (hk a _ ha t' V' (Room.rest ht hgrown) hV') ?_
  rintro b W' ⟨hb, t'', hgrown', hW'⟩
  exact ⟨hb, t'', hgrown.trans hgrown', hW'⟩

lemma delivers_entries (job : Job) (chunk_size : ChunkSize) (hmirror : Mirrors tree S)
    {descend : Text → Text → Walk Bool} {below : Text → ℕ × ℕ × ℕ} (target_dir : Text) (names : List Text)
    (hdescend : ∀ name ∈ names, name ≠ ['.'] → name ≠ ['.', '.'] → Enters (tree.lstat (child dir name)) →
      ∀ target_child, Delivers tree S (descend (child dir name) target_child) (below (child dir name))) :
    Delivers tree S (relayEntries job chunk_size excludes descend dir target_dir names)
      (names.map (entryTally tree excludes below dir)).sum := by
  induction names with
  | nil => exact fun t V _ hV => walk_ret ⟨rfl, t, Grown.refl t, hV⟩
  | cons name names ih =>
    have hrest := ih fun x hx => hdescend x (List.mem_cons_of_mem _ hx)
    intro t V ht hV
    rw [List.map_cons, List.sum_cons] at ht ⊢
    rw [relayEntries]
    simp only [Prog.bind_eq, Prog.throw_eq, Prog.pure_eq, walk_lift_eq]
    -- an entry that comes to nothing
    have hnone : entryTally tree excludes below dir name = 0 → ∀ V, At S t V.1 →
        AccountsWalk tree (relayEntries job chunk_size excludes descend dir target_dir names) (fun b W' => b = true ∧
          ∃ t', Grown t t' (entryTally tree excludes below dir name +
            (names.map (entryTally tree excludes below dir)).sum).2.1 (entryTally tree excludes below dir name +
              (names.map (entryTally tree excludes below dir)).sum).2.2 ∧ At S t' W') V := by
      intro h0 V hV
      rw [h0, zero_add] at ht ⊢
      exact hrest t V ht hV
    have hcounted := ht.counted
    refine walk_ite (fun hkept => hnone (entryTally_skipped (by simpa using hkept)) V hV) fun hkept => ?_
    replace hkept : kept excludes name = true := by simpa using hkept
    refine walk_bind (walk_lift (accounts_isCancelled hcounted hV)) fun b V1 h1 => ?_
    cases b with
    | true => exact walk_raise (At.counted h1 hcounted)
    | false =>
      refine walk_bind (walk_lstat hcounted h1 _) ?_
      rintro s V2 ⟨rfl, h2⟩
      refine walk_ite (fun hexists => hnone (entryTally_missing (by simpa using hexists)) V2 h2) fun hexists => ?_
      refine walk_ite (fun hlink => ?_) fun hlink => walk_ite (fun hdir => ?_) fun hdir => ?_
      · exact walk_bind (walk_warn hcounted h2 _) fun _ V3 h3 => hnone (entryTally_link hlink) V3 h3
      · have henters : Enters (tree.lstat (child dir name)) := ⟨by simpa using hexists, by simpa using hlink, hdir⟩
        have hdots := kept_dots hkept
        rw [entryTally_enters hkept henters] at ht ⊢
        refine Delivers.after (R := fun b _ => b = true) ht
          (hdescend name List.mem_cons_self hdots.1 hdots.2 henters _ t V2 (ht.less ?_ ?_) h2) ?_
        · exact Nat.le_add_right _ _
        · exact Nat.le_add_right _ _
        · rintro b W' rfl
          exact hrest
      · have hcopies : Copies (tree.lstat (child dir name)) :=
          ⟨by simpa using hexists, by simpa using hlink, by simpa using hdir⟩
        rw [entryTally_copies hkept hcopies] at ht ⊢
        refine Delivers.after (R := fun _ _ => True) ht (walk_lift (accounts_mono
          (accounts_relayChild job chunk_size hmirror hcopies (ht.less ?_ ?_) h2) fun _ W' h => ⟨trivial, h⟩)) ?_
        · exact Nat.le_add_right _ _
        · exact Nat.le_add_right _ _
        · exact fun _ W' _ => hrest

variable (excludes) in
/-- The walk that copies does what there is to do. -/
lemma delivers_directory (job : Job) (chunk_size : ChunkSize) (hmirror : Mirrors tree S) {n : ℕ}
    (hdeep : Deep tree n dir) (target_dir : Text) :
    Delivers tree S (relayDirectory job chunk_size excludes n dir target_dir) (tally tree excludes n dir) := by
  induction n generalizing dir target_dir with
  | zero => exact hdeep.elim
  | succ n ih =>
    obtain ⟨names, hlist, hbelow⟩ := hdeep
    intro t V ht hV
    rw [relayDirectory]
    simp only [Prog.bind_eq, walk_lift_eq_sftp]
    refine walk_bind (walk_lift (accounts_kept ht.counted hV (keeps_mkdir _))) fun _ V1 h1 => ?_
    refine walk_bind (walk_listdir ht.counted h1) ?_
    rintro names' V2 ⟨hlist', h2⟩
    obtain rfl := Option.some.inj (hlist'.symm.trans hlist)
    have htally : (tally tree excludes (n + 1) dir).2 =
        ((names'.map (entryTally tree excludes (tally tree excludes n) dir)).sum).2 := by
      rw [tally, hlist, Option.getD_some, Prod.snd_add, Prod.mk_zero_zero, zero_add]
    rw [htally] at ht ⊢
    exact delivers_entries job chunk_size hmirror target_dir names'
      (fun name hname h1 h2 he target_child => ih (hbelow name hname h1 h2 he) target_child) t V2 ht h2

end

/-! ### Whole relays -/

/-- Of so many files and bytes every one is done, and what was skipped or was there already is part of it. -/
structure Done (t : Counters) (files bytes : ℕ) : Prop where
  files_total : t.files_total = some files
  bytes_total : t.bytes_total = some bytes
  files_done : t.files_done = files
  bytes_done : t.bytes_done = bytes
  files_skipped : t.files_skipped ≤ files
  bytes_kept : t.resumed_bytes + t.bytes_skipped ≤ bytes

/-- Where there is nothing in the totals yet there is room for anything. -/
lemma room_fresh (files bytes : ℕ) : Room {} files bytes :=
  ⟨fun _ h => (nomatch h), fun _ h => nomatch h⟩

section
variable {tree : SourceTree} {excludes : List Text} {S : Server} {V : (Servers × Counters) × List Text}

variable (excludes) in
lemma walk_relayTree (job : Job) (chunk_size : ChunkSize) (hroot : job.source_path = tree.root) (hmirror : Mirrors tree S)
    {d n m : ℕ} (hdeep : Deep tree d tree.root) (hn : (tally tree excludes d tree.root).1 ≤ n) (hm : d ≤ m)
    (hV : At S {} V.1) :
    AccountsWalk tree (relayTree job chunk_size excludes n m) (fun b W' => b = true ∧
      Done W'.2 (tally tree excludes d tree.root).2.1 (tally tree excludes d tree.root).2.2) V := by
  rw [relayTree, hroot]
  simp only [Prog.bind_eq, Prog.pure_eq, walk_lift_eq, walk_lift_eq_sftp]
  have hfresh := room_fresh 0 0
  refine walk_bind (walk_lift (accounts_kept hfresh hV (keeps_mkdir _))) fun _ V1 h1 => ?_
  have hstack : ∀ x ∈ [tree.root], Deep tree d x := fun x hx => List.mem_singleton.1 hx ▸ hdeep
  refine walk_bind (walk_countTree hfresh hmirror.links n hstack (0, 0) ?_ h1) ?_
  · simpa using hn
  · rintro r V2 ⟨h2, hr⟩
    have hcount : r = some (tally tree excludes d tree.root).2 := by
      rw [hr]
      simp
    rw [hcount]
    dsimp only
    refine walk_bind (walk_lift (accounts_update hfresh h2 _)) fun _ V3 h3 => ?_
    have hroom : Room { ({} : Counters) with
        files_total := some (tally tree excludes d tree.root).2.1,
        bytes_total := some (tally tree excludes d tree.root).2.2 }
        (tally tree excludes d tree.root).2.1 (tally tree excludes d tree.root).2.2 := by
      refine ⟨fun total h => ?_, fun total h => ?_⟩
      · exact Option.some.inj h ▸ le_of_eq (Nat.zero_add _)
      · exact Option.some.inj h ▸ le_of_eq (Nat.zero_add _)
    have hdelivers := delivers_directory excludes job chunk_size hmirror (hdeep.mono hm) job.target_path
    rw [tally_deep hdeep hm] at hdelivers
    refine walk_bind (hdelivers _ _ hroom h3) ?_
    rintro b V4 ⟨rfl, t, hgrown, h4⟩
    have hdone : Done t (tally tree excludes d tree.root).2.1 (tally tree excludes d tree.root).2.2 := by
      refine ⟨hgrown.files_total, hgrown.bytes_total, hgrown.files_done.trans (Nat.zero_add _),
        hgrown.bytes_done.trans (Nat.zero_add _), ?_, ?_⟩
      · have hskipped : t.files_skipped + 0 ≤ 0 + t.files_done := hgrown.files_skipped
        have hfiles : t.files_done = 0 + (tally tree excludes d tree.root).2.1 := hgrown.files_done
        omega
      · have hkept : t.resumed_bytes + t.bytes_skipped + 0 ≤ 0 + 0 + t.bytes_done := hgrown.bytes_kept
        have hbytes : t.bytes_done = 0 + (tally tree excludes d tree.root).2.2 := hgrown.bytes_done
        omega
    have hcounted : Counted t := by
      refine ⟨fun total h => ?_, fun total h => ?_⟩
      · rw [hdone.files_total] at h
        exact Option.some.inj h ▸ le_of_eq hdone.files_done
      · rw [hdone.bytes_total] at h
        exact Option.some.inj h ▸ le_of_eq hdone.bytes_done
    simp only [if_true]
    refine walk_bind (walk_lift (accounts_update hcounted h4 _)) fun _ V5 h5 => walk_ret ⟨rfl, ?_⟩
    rw [h5.2]
    exact ⟨hdone.files_total, hdone.bytes_total, hdone.files_done, hdone.bytes_done, hdone.files_skipped,
      hdone.bytes_kept⟩

/-- In every run of a relay of a directory, whatever fails and whatever the target has, never more is done than there is
to do; and when it returns, every file and every byte that the walk counts in the tree is done, once. -/
theorem relay_accounts (tree : SourceTree) (excludes : List Text) (job : Job) (chunk_size : ChunkSize) (w : Servers)
    (hroot : job.source_path = tree.root) (hmirror : Mirrors tree (w .source)) :
    (∃ d, Deep tree d tree.root) ∧ ∀ d, Deep tree d tree.root → ∀ n ≥ (tally tree excludes d tree.root).1, ∀ m ≥ d, ∀ c,
      Meets (relayOf tree) (OnRelay (Transfer.OnServers Honest)) (relayTree job chunk_size excludes n m) ((w, {}), []) c →
      (∀ o V, (o, V) ∈ pending (relayOf tree) (relayTree job chunk_size excludes n m) ((w, {}), []) c → Counted V.1.2) ∧
      ∀ b V c', exec (relayOf tree) (relayTree job chunk_size excludes n m) ((w, {}), []) c = (.ok b, V, c') →
        b = true ∧ Done V.1.2 (tally tree excludes d tree.root).2.1 (tally tree excludes d tree.root).2.2 := by
  refine ⟨exists_deep tree.finite, fun d hd n hn m hm c hc => ?_⟩
  have hwp := walk_relayTree (V := ((w, {}), [])) excludes job chunk_size hroot hmirror hd hn hm ⟨rfl, rfl⟩
  refine ⟨fun o V ho => wp_pending hwp hc _ ho, fun b V c' hrun => ?_⟩
  have hpost := wp_exec hwp hc
  rw [hrun] at hpost
  exact hpost

end

/-- A file of eight bytes. -/
def linkedFile : RegularFile := ⟨[1, 2, 3, 4, 5, 6, 7, 8], 0o644, 1⟩

/-- The directory with the file and a link to it, and nothing on the target. -/
def linkedServers : Servers
  | .source => Server.set (fun _ => none) "/s/a".toList (some (.file linkedFile))
  | .target => fun _ => none

lemma linkedChunk_min : 65536 ≤ 65536 := le_rfl

lemma linkedChunk_max : 65536 ≤ 64 * 1048576 := by decide

/-- The smallest chunks. -/
def linkedChunk : ChunkSize := ⟨65536, linkedChunk_min, linkedChunk_max⟩

/-- The relay of it that nothing stops. -/
def runLinked : Except Exn Bool × ((Servers × Counters) × List Text) × (ℕ → Choice) :=
  exec (relayOf linkedTree) (relayTree ⟨"j".toList, "a".toList, "/s".toList, "/t".toList⟩ linkedChunk []
    1 1) ((linkedServers, {}), []) fun _ => .ok

lemma mirrors_linked : Mirrors linkedTree (linkedServers .source) := by
  have hcases : ∀ path, linkedTree.lstat path = .missing ∨ path = "/s".toList ∨ path = "/s/a".toList ∨
      path = "/s/latest".toList := by
    intro path
    show linkedStat path = .missing ∨ _
    unfold linkedStat
    split
    · exact .inr (.inl ‹_›)
    · split
      · exact .inr (.inr (.inl ‹_›))
      · split
        · exact .inr (.inr (.inr ‹_›))
        · exact .inl rfl
  refine ⟨fun path h => ?_, fun path h => ?_⟩
  · rcases hcases path with hp | rfl | rfl | rfl
    · rw [hp] at h
      exact absurd h.1 (by decide)
    · exact absurd h.2.2 (by decide +kernel)
    · exact ⟨linkedFile, Server.set_same (fun _ => none) _ _, by decide +kernel⟩
    · exact absurd h.2.1 (by decide +kernel)
  · rcases hcases path with hp | rfl | rfl | rfl
    · rw [hp]
      rfl
    · exact absurd h (by decide +kernel)
    · exact absurd h (by decide +kernel)
    · decide +kernel

lemma deep_linked : Deep linkedTree 1 linkedTree.root := by
  refine ⟨["a".toList, "latest".toList], by decide +kernel, fun name hname _ _ henters => ?_⟩
  rcases List.mem_cons.1 hname with rfl | hname
  · exact absurd henters (by decide +kernel)
  · rw [List.mem_singleton.1 hname] at henters
    exact absurd henters (by decide +kernel)

/-- The file is done, and the link is not counted. -/
theorem relay_accounts_linked : runLinked.1 = .ok true ∧ Done runLinked.2.1.1.2 1 8 := by
  have hok : runLinked.1 = .ok true := by decide +kernel
  have htally : tally linkedTree [] 1 linkedTree.root = (1, 1, 8) := by decide +kernel
  have hmeets : Meets (relayOf linkedTree) (OnRelay (Transfer.OnServers Honest))
      (relayTree ⟨"j".toList, "a".toList, "/s".toList, "/t".toList⟩ linkedChunk [] 1 1)
      ((linkedServers, {}), []) fun _ => .ok := by
    refine meets_of_forall fun n o s => ?_
    rcases o with (⟨side, o⟩ | o) | o
    · cases side with
      | source =>
        cases o with
        | stat path => exact fun e he => nomatch he
        | _ => trivial
      | target => trivial
    · trivial
    · trivial
  have hruns := (relay_accounts linkedTree [] ⟨"j".toList, "a".toList, "/s".toList, "/t".toList⟩
    linkedChunk linkedServers rfl mirrors_linked).2 1 deep_linked 1 (by rw [htally]) 1 le_rfl _ hmeets
  have hdone := (hruns.2 true runLinked.2.1 runLinked.2.2 (Prod.ext hok rfl)).2
  rw [htally] at hdone
  exact ⟨hok, hdone⟩

end SshGpuConsole.LocalRelay
