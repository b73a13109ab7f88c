import SshGpuConsole.Transfer.Resume

/-!
# Relay jobs one after another

`relay_transfer` keeps the invariant of `Resume` from call to call, so it holds between any number of jobs,
whatever stops them outside the window and however the source is replaced between them.
-/

namespace SshGpuConsole.LocalRelay
open Shell (Text)
open Effect PosixPath PyText Ssh

namespace Transfer
variable {T : Transfer}

/-! ### The relay -/

/-- A guard on the calls to the servers as a guard on those of the relay. -/
def OnServers (G : SideOp → Servers → Choice → Prop) : SideOp ⊕ JobOp → Servers × Counters → Choice → Prop
  | .inl o, W, c => G o W.1 c
  | .inr _, _, _ => True

/-- At every call outside the window the law holds. -/
def RelayAssert (T : Transfer) : SideOp ⊕ JobOp → Servers × Counters → Prop
  | .inl o, W => T.Window o ∨ T.Law W.1
  | .inr _, W => T.Law W.1

abbrev HoldsR {α : Type} (T : Transfer) (p : Relay α) (Q : Except Exn α → Servers × Counters → Prop)
    (W : Servers × Counters) : Prop :=
  wp relay (OnServers T.Admitted) T.RelayAssert p Q W

lemma lift_eq {α : Type} (p : Sftp α) : (liftM p : Relay α) = Prog.liftL p := rfl

lemma holdsR_lift {α : Type} {p : Sftp α} {Q : Except Exn α → Servers → Prop} {W : Servers × Counters}
    (h : T.Holds p Q W.1) : T.HoldsR (Prog.liftL p) (fun r W' => Q r W'.1) W :=
  (wp_liftL p (fun r W' => Q r W'.1) W.1 W.2).2 h

/-- Counting does not touch the servers. -/
lemma holdsR_update (g : Counters → Counters) {W : Servers × Counters} (h : T.Law W.1) :
    T.HoldsR (update g) (fun r W' => r = .ok () ∧ W'.1 = W.1) W :=
  ⟨h, fun _ _ => ⟨rfl, rfl⟩⟩

lemma holdsR_isCancelled {W : Servers × Counters} (h : T.Law W.1) :
    T.HoldsR isCancelled (fun r W' => (∃ b, r = .ok b) ∧ W'.1 = W.1) W :=
  ⟨h, fun _ _ => ⟨⟨_, rfl⟩, rfl⟩⟩

/-- The loop copies the rest, or the job ends in a sound state. -/
lemma holdsR_copyLoop (chunk_size : ChunkSize) {f : RegularFile} {m : OpenMode} (n : Nat) {k : Nat}
    {W : Servers × Counters} (h : T.Copying W.1 f k) (hn : f.data.length - k < n) :
    T.HoldsR (copyLoop chunk_size n ⟨.source, T.source_path, .read, k⟩ ⟨.target, partialPath T.target_path, m, k⟩)
      (seqPost (fun _ W' => T.Copying W'.1 f f.data.length) fun _ W' => T.Sound W'.1) W := by
  induction n generalizing k W with
  | zero => exact absurd hn (Nat.not_lt_zero _)
  | succ n ih =>
    rw [copyLoop]
    simp only [Prog.bind_eq, Prog.pure_eq, Prog.throw_eq, lift_eq]
    refine wp_bind_of (holdsR_isCancelled h.sound.law) ?_ fun e W' h' => nomatch h'.1
    rintro b W' ⟨-, hW⟩
    rw [← hW] at h
    cases b with
    | true => exact h.sound
    | false =>
      refine wp_bind_of (holdsR_lift (holds_readSource h chunk_size.bytes)) ?_ fun e W' h' => h'.1.sound
      rintro ⟨chunk, reader⟩ W2 ⟨hcopy, hx⟩
      obtain ⟨rfl, rfl⟩ := Prod.mk.inj (hx _ rfl)
      dsimp only
      split
      · -- the end of the source
        rename_i hend
        have hk : k = f.data.length := by
          have hlen := congrArg List.length hend
          simp only [List.length_take, List.length_drop, List.length_nil] at hlen
          have := chunk_size.min
          have := hcopy.bound
          omega
        rw [← hk]
        exact hcopy
      · rename_i hne
        refine wp_bind_of (holdsR_lift (holds_writeStaged hcopy)) ?_ fun e W' h' => h'
        rintro writer W3 ⟨rfl, hcopy'⟩
        refine wp_bind_of (holdsR_update _ hcopy'.sound.law) ?_ fun e W' h' => nomatch h'.1
        rintro u W4 ⟨-, hW4⟩
        rw [← hW4] at hcopy'
        refine ih hcopy' ?_
        have hpos := List.length_pos_iff.2 hne
        have := hcopy'.bound
        omega

/-- A handle closed quietly leaves a sound state sound. -/
lemma holdsR_closeQuiet (h : Handle) {W : Servers × Counters} (hs : T.Sound W.1) :
    T.HoldsR (Prog.liftL h.closeQuiet) (fun _ W' => T.Sound W'.1) W := by
  cases h with
  | mk side p m k => exact holdsR_lift (wp_mono (fun _ _ hq => hs.quiet hq) (holds_closeQuiet p m k side hs))

/-- A handle closed behind the copy leaves it complete. -/
lemma holdsR_close (h : Handle) {f : RegularFile} {k : Nat} {W : Servers × Counters} (hc : T.Copying W.1 f k) :
    T.HoldsR (Prog.liftL h.close) (fun _ W' => T.Copying W'.1 f k) W := by
  cases h with
  | mk side p m k =>
    refine holdsR_lift (wp_mono (fun _ _ hq => hc.quiet hq.1) (holds_quiet side (.close p m) ?_ hc.sound))
    split <;> trivial

/-- From a sidecar of the current source on: the copy, the rename and what is tidied up behind it. -/
lemma holdsR_deliver (chunk_size : ChunkSize) {W : Servers × Counters} {f : RegularFile} {k : Nat}
    (h : T.Armed W.1 f k) (mtime : Nat) :
    T.HoldsR (do
        let reader ← (openReader .source T.source_path k : Sftp _)
        let writer ← (openWriter .target (partialPath T.target_path) k : Sftp _)
        Prog.handle
          (do
            copyLoop chunk_size (f.data.length + 1) reader writer
            writer.close
            reader.close)
          fun e => do
            reader.closeQuiet
            writer.closeQuiet
            throw e
        rename .target (partialPath T.target_path) T.target_path
        Prog.liftL (Prog.suppress Exn.isException (remove .target (metaPath T.target_path)))
        if mtime > 0 then
          Prog.liftL (Prog.suppress Exn.isException (setMtime .target T.target_path mtime)))
      (seqPost (fun _ W' => T.Arrived W'.1 f) fun _ W' => T.Sound W'.1) W := by
  simp only [Prog.bind_eq, Prog.pure_eq, Prog.throw_eq, lift_eq]
  refine wp_bind_of (holdsR_lift (holds_openReader h)) ?_ fun e W' h' => h'
  rintro reader W1 ⟨rfl, h1⟩
  refine wp_bind_of (holdsR_lift (holds_openWriter h1)) ?_ fun e W' h' => h'
  rintro writer W2 ⟨m, rfl, h2⟩
  refine wp_bind_of (R := seqPost (fun _ (W' : Servers × Counters) => T.Copying W'.1 f f.data.length)
    fun _ W' => T.Sound W'.1) ?_ ?_ fun e W' h' => h'
  · refine wp_handle_of (R := seqPost (fun _ (W' : Servers × Counters) => T.Copying W'.1 f f.data.length)
      fun _ W' => T.Sound W'.1) ?_ (fun _ _ h => h) fun e W3 h3 => ?_
    · refine wp_bind_of (holdsR_copyLoop chunk_size _ h2 (by omega)) ?_ fun e W' h' => h'
      intro u W3 h3
      refine wp_bind_of (holdsR_close _ h3) ?_ fun e W' h' => h'.sound
      intro u W4 h4
      refine wp_mono (fun r W5 h5 => ?_) (holdsR_close _ h4)
      cases r with
      | ok u => exact h5
      | error e => exact Copying.sound h5
    · refine wp_bind_of (holdsR_closeQuiet _ h3) ?_ fun e W' h' => h'
      intro u W4 h4
      exact wp_bind_of (holdsR_closeQuiet _ h4) (fun u W5 h5 => h5) fun e W' h' => h'
  · intro u W3 h3
    refine wp_bind_of (holdsR_lift (holds_rename h3)) ?_ fun e W' h' => h'
    intro u W4 h4
    refine wp_bind_of (holdsR_lift (holds_removeMeta h4)) ?_ fun e W' h' => h'.1
    intro u W5 h5
    split
    · refine wp_mono (fun r W6 h6 => ?_) (holdsR_lift (holds_setMtime h5 _ _))
      cases r with
      | ok u => exact h6
      | error e => exact h6.1
    · exact h5

lemma holdsR_mkdir (path : Text) {W : Servers × Counters} (hs : T.Sound W.1) :
    T.HoldsR (Prog.liftL (mkdir .target path)) (fun _ W' => Quiet W.1 W'.1) W :=
  holdsR_lift (holds_mkdir path hs)

/-- Copying one file: the target holds the source, or the job ends in a sound state. -/
lemma holdsR_relayFile {job : Job} (hj : job.artifact_id = T.artifact_id) (chunk_size : ChunkSize)
    {W : Servers × Counters} {f : RegularFile} (hs : T.Sound W.1)
    (hf : W.1 .source T.source_path = some (.file f)) :
    T.HoldsR (relayFile job T.source_path T.target_path chunk_size)
      (seqPost (fun _ W' => T.Arrived W'.1 f) fun _ W' => T.Sound W'.1) W := by
  rw [relayFile]
  simp only [Prog.bind_eq, Prog.pure_eq, Prog.throw_eq, lift_eq]
  refine wp_bind_of (holdsR_update _ hs.law) ?_ fun e W' h' => nomatch h'.1
  intro u W1 hx
  have hW1 := hx.2
  rw [← hW1] at hs hf
  refine wp_bind_of (holdsR_mkdir _ hs) ?_ fun e W' h' => hs.quiet h'
  intro u W2 hq2
  have hs2 := hs.quiet hq2
  have hf2 : W2.1 .source T.source_path = some (.file f) := by rw [hq2.1, hf]
  refine wp_bind_of (holdsR_lift (holds_statSource hs2 hf2)) ?_ fun e W' h' => hs2.quiet h'.1
  rintro st W3 ⟨hq3, hst⟩
  obtain rfl := hst _ rfl
  have hs3 := hs2.quiet hq3
  have hf3 : W3.1 .source T.source_path = some (.file f) := by rw [hq3.1, hf2]
  refine wp_bind_of (holdsR_lift (holds_resumeOffset hj hs3 hf3)) ?_ fun e W' h' => hs3.quiet h'.1
  rintro k W4 ⟨hq4, hk⟩
  have hs4 := hs3.quiet hq4
  have hf4 : W4.1 .source T.source_path = some (.file f) := by rw [hq4.1, hf3]
  split
  · -- resuming onto what a whole sidecar of the current source stands next to
    rename_i hpos
    obtain ⟨hle, hmeta, hpart⟩ := (hk _ rfl).resolve_left (Nat.ne_of_gt hpos)
    obtain ⟨f', hf', hgen⟩ := hs3.source
    obtain rfl : f' = f := Node.file.inj (Option.some.inj (hf'.symm.trans hf3))
    have harmed : T.Armed W4.1 f' k :=
      Armed.quiet ⟨hf3, hgen, hmeta, fun _ => ⟨hle, hpart⟩⟩ hq4
    refine wp_bind_of (holdsR_update _ hs4.law) ?_ fun e W' h' => nomatch h'.1
    rintro u W5 ⟨-, hW5⟩
    rw [← hW5] at harmed
    exact holdsR_deliver chunk_size harmed _
  · -- afresh
    rename_i hpos
    obtain rfl : k = 0 := by omega
    refine wp_bind_of (holdsR_lift (holds_writeMeta hj hs4 hf4)) ?_ fun e W' h' => h'
    exact fun u W5 h5 => holdsR_deliver chunk_size h5 _

/-- A run of the relay that is not told to stop puts the current source at the target or skips a target that
is up to date; however it ends, the state is sound. -/
lemma holdsR_relayTransfer (relayTree : Job → ChunkSize → Relay Unit) (job_id : Text) (chunk_size : ChunkSize)
    {W : Servers × Counters} (hs : T.Sound W.1) :
    T.HoldsR (relayTransfer relayTree ⟨job_id, T.artifact_id, T.source_path, T.target_path⟩ chunk_size)
      (fun r W' => T.Sound W'.1 ∧ (r = .ok () → W'.2.files_skipped = 0 →
        (W'.1 .target).content T.target_path = (W.1 .source).content T.source_path)) W := by
  obtain ⟨f, hf, -⟩ := hs.source
  have hcontent : (W.1 .source).content T.source_path = some f.data := by rw [Server.content, hf]
  rw [relayTransfer, hcontent]
  simp only [Prog.bind_eq, Prog.throw_eq, lift_eq]
  refine wp_bind_of (holdsR_lift (holds_statSource hs hf)) ?_ fun e W' h' => ⟨hs.quiet h'.1, fun he => by cases he⟩
  rintro st W1 ⟨hq1, hst⟩
  obtain rfl := hst _ rfl
  have hs1 := hs.quiet hq1
  have hf1 : W1.1 .source T.source_path = some (.file f) := by rw [hq1.1, hf]
  simp only [FileStat.of, Node.attrs, Bool.not_true, Bool.not_false, Bool.false_eq_true, if_true, if_false]
  refine wp_bind_of (holdsR_lift (holds_lstat _ hs1)) ?_ fun e W' h' => ⟨hs1.quiet h'.1, fun he => by cases he⟩
  rintro tst W2 ⟨hq2, -⟩
  have hs2 := hs1.quiet hq2
  have hf2 : W2.1 .source T.source_path = some (.file f) := by rw [hq2.1, hf1]
  refine wp_ite (fun _ => ?_) fun _ => ?_
  · exact ⟨hs2.law, fun _ _ => ⟨hs2, fun _ h => absurd h Nat.one_ne_zero⟩⟩
  · refine wp_bind_of (holdsR_update _ hs2.law) ?_ fun e W' h' => by cases h'.1
    rintro u W3 ⟨-, hW3⟩
    rw [← hW3] at hs2 hf2
    refine wp_bind_of (holdsR_relayFile rfl chunk_size hs2 hf2) ?_ fun e W' h' => ⟨h', fun he => by cases he⟩
    intro u W4 h4
    refine wp_mono (fun r W5 h5 => ?_) (holdsR_update _ h4.1.law)
    rw [h5.2]
    exact ⟨h4.1, fun _ _ => h4.2⟩

/-! ### Jobs one after another -/

/-- The job of a transfer. -/
def job (T : Transfer) (job_id : Text) : Job := ⟨job_id, T.artifact_id, T.source_path, T.target_path⟩

/-- The states between the jobs: at first there is no sidecar; then a job runs until it returns or is
stopped, or the source is replaced. -/
inductive Reachable (T : Transfer) (relayTree : Job → ChunkSize → Relay Unit)
    (G : SideOp → Servers → Choice → Prop) : Servers → Prop where
  | init {w : Servers} {f : RegularFile} (hf : w .source T.source_path = some (.file f)) (hg : T.Genuine f)
    (hm : T.metaBytes w = none) : Reachable T relayTree G w
  | replace {w : Servers} {f : RegularFile} (h : Reachable T relayTree G w) (hg : T.Genuine f) :
    Reachable T relayTree G (w.set .source ((w .source).set T.source_path (some (.file f))))
  | run {w : Servers} (h : Reachable T relayTree G w) (job_id : Text) (chunk_size : ChunkSize) {c : ℕ → Choice}
    (hc : Meets relay (OnServers G) (relayTransfer relayTree (T.job job_id) chunk_size) (w, {}) c) :
    Reachable T relayTree G (exec relay (relayTransfer relayTree (T.job job_id) chunk_size) (w, {}) c).2.1.1

/-- Replacing the source does not touch the target. -/
lemma Sound.replace {w : Servers} {f : RegularFile} (hs : T.Sound w) (hg : T.Genuine f) :
    T.Sound (w.set .source ((w .source).set T.source_path (some (.file f)))) where
  source := by
    rw [Servers.set_same]
    exact ⟨f, Server.set_same _ _ _, hg⟩
  sidecar d hd := by
    rw [metaBytes, Servers.set_other _ (by decide)] at hd
    exact hs.sidecar d hd
  fits g hgen hm := by
    rw [metaBytes, Servers.set_other _ (by decide)] at hm
    intro d hd
    rw [partialBytes, Servers.set_other _ (by decide)] at hd
    exact hs.fits g hgen hm d hd

lemma Reachable.sound {relayTree : Job → ChunkSize → Relay Unit} {w : Servers}
    (h : T.Reachable relayTree T.Admitted w) : T.Sound w := by
  induction h with
  | init hf hg hm =>
    exact ⟨⟨_, hf, hg⟩, (fun d hd => nomatch hm.symm.trans hd), fun f _ hf => nomatch hm.symm.trans hf⟩
  | replace _ hg ih => exact ih.replace hg
  | run _ job_id chunk_size hc ih =>
    exact (wp_exec (holdsR_relayTransfer relayTree job_id chunk_size (W := (_, {})) ih) hc).1

/-- Where no job is stopped between the write of the sidecar and the truncation of the staged file while that
is a leftover: between the jobs the law holds, it holds at every call of a job outside the window, and a job
that returns and has not skipped the file leaves the current source at the target. -/
theorem resume_never_stitches (T : Transfer) (relayTree : Job → ChunkSize → Relay Unit) (w : Servers)
    (h : T.Reachable relayTree T.Admitted w) :
    T.Law w ∧ ∀ (job_id : Text) (chunk_size : ChunkSize) (c : ℕ → Choice),
      Meets relay (OnServers T.Admitted) (relayTransfer relayTree (T.job job_id) chunk_size) (w, {}) c →
      (∀ o W, (Sum.inl o, W) ∈ pending relay (relayTransfer relayTree (T.job job_id) chunk_size) (w, {}) c →
        T.Window o ∨ T.Law W.1) ∧
      ∀ W c', exec relay (relayTransfer relayTree (T.job job_id) chunk_size) (w, {}) c = (.ok (), W, c') →
        W.2.files_skipped = 0 →
        (W.1 .target).content T.target_path = (w .source).content T.source_path := by
  refine ⟨h.sound.law, fun job_id chunk_size c hc => ?_⟩
  have hwp := holdsR_relayTransfer relayTree job_id chunk_size (W := (w, {})) h.sound
  refine ⟨fun o W ho => wp_pending hwp hc _ ho, fun W c' hrun => ?_⟩
  have hpost := (wp_exec hwp hc).2
  rw [show exec relay (relayTransfer relayTree ⟨job_id, T.artifact_id, T.source_path, T.target_path⟩ chunk_size)
    (w, {}) c = (.ok (), W, c') from hrun] at hpost
  exact hpost rfl

/-! ### A small transfer -/

/-- A source of three bytes, of which there are two versions. -/
def report : Transfer :=
  ⟨"a".toList, "/s/x".toList, "/d/x".toList, fun _ mtime => if mtime = 1 then [1, 2, 3] else [4, 5, 6]⟩

/-- A version of the source. -/
def reportFile (mtime : Nat) : RegularFile := ⟨report.content 3 mtime, 0o644, mtime⟩

/-- The first version, and nothing on the target. -/
def reportServers : Servers
  | .source => Server.set (fun _ => none) report.source_path (some (.file (reportFile 1)))
  | .target => fun _ => none

/-- One job, whose call of a number is stopped before it took effect. -/
def runReport (stopped : Option Nat) (w : Servers) : Except Exn Unit × (Servers × Counters) × (ℕ → Choice) :=
  exec relay (relayTransfer (fun _ _ => pure ()) (report.job "j".toList) ⟨65536, by decide, by decide⟩) (w, {})
    fun n => if stopped = some n then .raise .other else .ok

/-- A job that nothing stops. -/
theorem resume_never_stitches_afresh :
    ∃ W c', runReport none reportServers = (.ok (), W, c') ∧
      (W.1 .target).content report.target_path = some [1, 2, 3] := by
  have h : report.Reachable (fun _ _ => pure ()) report.Admitted reportServers :=
    .init (f := reportFile 1) rfl rfl rfl
  have hok : (runReport none reportServers).1 = .ok () := by decide +kernel
  have hcopied : (runReport none reportServers).2.1.2.files_skipped = 0 := by decide +kernel
  have hmeets : ∀ p : Relay Unit, Meets relay (OnServers report.Admitted) p (reportServers, {})
      (fun n => if (none : Option Nat) = some n then .raise .other else .ok) := by
    refine fun p => meets_of_forall fun n o s => ?_
    cases o with
    | inl o => exact ⟨fun _ e he => (nomatch he), fun hf => absurd rfl hf⟩
    | inr o => trivial
  have hlast := ((resume_never_stitches report (fun _ _ => pure ()) reportServers h).2 "j".toList
    ⟨65536, by decide, by decide⟩ _ (hmeets _)).2 (runReport none reportServers).2.1 (runReport none reportServers).2.2
      (Prod.ext hok rfl) hcopied
  exact ⟨_, _, Prod.ext hok rfl, hlast⟩

set_option maxRecDepth 4000 in
/-- A job is stopped at its second round, the source is replaced, and a second job is stopped between its
sidecar and its staged file: the law fails, and the job after them puts the old bytes under the new source's
name. -/
theorem resume_stitches_when_stopped :
    ∃ w, report.Reachable (fun _ _ => pure ()) (fun o _ c => report.Stays o c) w ∧ ¬report.Law w ∧
      (w .source).content report.source_path = some [4, 5, 6] ∧
      ∃ W c', runReport none w = (.ok (), W, c') ∧ (W.1 .target).content report.target_path = some [1, 2, 3] := by
  have hmeets : ∀ (p : Relay Unit) (k : ℕ) (W : Servers × Counters),
      Meets relay (OnServers fun o _ c => report.Stays o c) p W
        (fun n => if some k = some n then .raise .other else .ok) := by
    refine fun p k W => meets_of_forall fun n o s => ?_
    cases o with
    | inr o => trivial
    | inl o =>
      intro _ e he
      split at he
      · cases he
        rfl
      · cases he
  have h0 : report.Reachable (fun _ _ => pure ()) (fun o _ c => report.Stays o c) reportServers :=
    .init (f := reportFile 1) rfl rfl rfl
  have h1 := Reachable.replace (f := reportFile 2) (h0.run "j".toList ⟨65536, by decide, by decide⟩ (hmeets _ 17 _)) rfl
  have h2 := h1.run "j".toList ⟨65536, by decide, by decide⟩ (hmeets _ 14 _)
  obtain ⟨w, hw⟩ : ∃ w, w = (runReport (some 14) (((runReport (some 17) reportServers).2.1.1).set .source
      ((((runReport (some 17) reportServers).2.1.1) .source).set report.source_path
        (some (.file (reportFile 2)))))).2.1.1 := ⟨_, rfl⟩
  have hreached : report.Reachable (fun _ _ => pure ()) (fun o _ c => report.Stays o c) w := hw ▸ h2
  have hstate : (w .source report.source_path = some (.file (reportFile 2)) ∧
      report.metaBytes w = some (report.payload (reportFile 2)) ∧ report.partialBytes w = some [1, 2, 3]) ∧
      (runReport none w).1 = .ok () ∧
        ((runReport none w).2.1.1 .target).content report.target_path = some [1, 2, 3] := by
    rw [hw]
    decide +kernel
  obtain ⟨⟨hsource, hmeta, hpart⟩, hok, htarget⟩ := hstate
  clear hw
  refine ⟨w, hreached, fun hlaw => ?_, ?_, _, _, Prod.ext hok rfl, htarget⟩
  · have hpre : [1, 2, 3] <+: (reportFile 2).data :=
      hlaw (reportFile 2) hsource ⟨report.payload (reportFile 2), _, hmeta, loads_payload _, matches_fields.2 ⟨rfl, rfl⟩⟩
        [1, 2, 3] hpart nofun (le_refl 3)
    exact absurd hpre (by decide)
  · rw [Server.content, hsource]
    rfl

end Transfer
end SshGpuConsole.LocalRelay
