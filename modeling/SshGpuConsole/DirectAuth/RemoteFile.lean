import SshGpuConsole.Transfer.LocalRelay

/-!
# Remote files of the direct-auth service

`DirectAuthService._write_remote_file` (`direct_auth/service.py`), through which `authorized_keys` and the
console's own `known_hosts` are rewritten: a temporary file next to the old one, and a rename.
-/

namespace SshGpuConsole.DirectAuth
open Shell (Text)
open Effect PosixPath Ssh

/-- `_TARGET_AUTH_KEYS`. -/
def targetAuthKeys : Text := ".ssh/authorized_keys".toList

/-- `_SOURCE_KNOWN_HOSTS`. -/
def sourceKnownHosts : Text := ".ssh/gpu-console/known_hosts".toList

/-- The temporary file of `_write_remote_file`; `hex` are the digits taken from a fresh UUID. -/
def tempPath (path tag hex : Text) : Text :=
  let directory := if dirname path = [] then ".".toList else dirname path
  join directory (".sgc-tmp-".toList ++ tag ++ "-".toList ++ hex)

/-- `_write_remote_file`. -/
def writeRemoteFile (s : Side) (path : Text) (data : Bytes) (mode : Nat) (tag hex : Text) : Sftp Unit :=
  let temp := tempPath path tag hex
  Prog.handle
    (do
      let handle ← openWriter s temp
      Prog.andFinally (do let _ ← handle.write data) handle.closeQuiet
      setMode s temp mode
      rename s temp path)
    fun e => do
      Prog.suppress Exn.isException (remove s temp)
      throw e

/-! ### What each part does -/

/-- The temporary file is written and has its mode. -/
def Staged (temp : Option Node) (c : ℕ → Choice) : Prop :=
  temp ≠ some .dir ∧ (c 0).fails = none ∧ (c 1).fails = none ∧ (c 2).fails ≠ some .cancelled ∧
    (c 3).fails = none

/-- Opening for writing leaves an empty file, or raises and leaves everything. -/
lemma exec_openWriter {s : Side} {p : Text} {w : Servers} {c : ℕ → Choice} (hc : Atomic c) :
    ((c 0).fails = none ∧ w s p ≠ some .dir ∧ ∃ f, f.data = [] ∧
      exec sftp (openWriter s p) w c = (.ok ⟨s, p, .write, 0⟩, w.set s ((w s).set p (some (.file f))), later c)) ∨
    (¬((c 0).fails = none ∧ w s p ≠ some .dir) ∧
      ∃ e, exec sftp (openWriter s p) w c = (.error e, w, later c)) := by
  simp only [openWriter, lt_irrefl, if_false, Prog.bind_eq, exec_bind]
  cases hf : (c 0).fails with
  | some e =>
    rw [exec_client_fails hc hf]
    exact .inr ⟨(fun h => by cases h.1), e, rfl⟩
  | none =>
    cases hp : w s p with
    | none =>
      have h : (SftpOp.open p .write).perform (c 0).now (w s) =
          (.ok (), (w s).set p (some (.file ⟨[], 0o644, (c 0).now⟩))) := by
        simp only [SftpOp.perform, hp]
      rw [exec_client_ok hf h]
      exact .inl ⟨rfl, (fun h => by cases h), _, rfl, rfl⟩
    | some n =>
      cases n with
      | dir =>
        have h : (SftpOp.open p .write).perform (c 0).now (w s) = (.error .sftp, w s) := by
          simp only [SftpOp.perform, hp]
        rw [exec_client_ok hf h, Servers.set_self]
        exact .inr ⟨fun hn => hn.2 rfl, _, rfl⟩
      | file f =>
        have h : (SftpOp.open p .write).perform (c 0).now (w s) =
            (.ok (), (w s).set p (some (.file { f with data := [], mtime := (c 0).now }))) := by
          simp only [SftpOp.perform, hp]
        rw [exec_client_ok hf h]
        exact .inl ⟨rfl, (fun h => by cases h), _, rfl, rfl⟩

/-- Closing quietly lets only a cancellation through. -/
lemma exec_closeQuiet {s : Side} {p : Text} {c : ℕ → Choice} (hc : Atomic c) (w : Servers) :
    ((c 0).fails ≠ some .cancelled ∧
      exec sftp (Handle.mk s p .write 0).closeQuiet w c = (.ok (), w, later c)) ∨
    ((c 0).fails = some .cancelled ∧
      exec sftp (Handle.mk s p .write 0).closeQuiet w c =
        (.error .cancelled, w, later c)) := by
  cases hf : (c 0).fails with
  | none =>
    have h : (SftpOp.close p .write).perform (c 0).now (w s) = (.ok (), w s) := rfl
    have hx := exec_suppress_of_ok (k := Exn.isException) (exec_client_ok hf h)
    rw [Servers.set_self] at hx
    exact .inl ⟨nofun, hx⟩
  | some e =>
    have hx := exec_suppress_of_error (k := Exn.isException)
      (exec_client_fails (o := .close p .write) (s := s) (w := w) hc hf)
    by_cases he : e = .cancelled
    · subst he
      exact .inr ⟨rfl, hx⟩
    · have hk : e.isException = true := by simpa [Exn.isException] using he
      rw [hk] at hx
      exact .inl ⟨fun h => he (Option.some.inj h), hx⟩

/-- Writing into an empty file and closing it. -/
lemma exec_writeClose {s : Side} {p : Text} {w : Servers} {c : ℕ → Choice} {f : RegularFile}
    (data : Bytes) (hc : Atomic c) (hp : w s p = some (.file f)) (hf : f.data = []) :
    ((c 0).fails = none ∧ (c 1).fails ≠ some .cancelled ∧ ∃ g, g.data = data ∧
      exec sftp (Prog.andFinally (do let _ ← (Handle.mk s p .write 0).write data)
        (Handle.mk s p .write 0).closeQuiet) w c =
        (.ok (), w.set s ((w s).set p (some (.file g))), later (later c))) ∨
    (¬((c 0).fails = none ∧ (c 1).fails ≠ some .cancelled) ∧
      ∃ e w', exec sftp (Prog.andFinally (do let _ ← (Handle.mk s p .write 0).write data)
        (Handle.mk s p .write 0).closeQuiet) w c = (.error e, w', later (later c)) ∧
        ∀ q, q ≠ p → w' s q = w s q) := by
  have hclose := exec_closeQuiet (s := s) (p := p) (c := later c) hc.later
  have hne : ∀ (g : RegularFile) (q : Text), q ≠ p → (w.set s ((w s).set p (some (.file g)))) s q = w s q :=
    fun g q hq => by rw [Servers.set_same, Server.set_other _ hq]
  rw [exec_andFinally]
  simp only [Handle.write, Prog.bind_eq, Prog.pure_eq, exec_bind]
  cases hw : (c 0).fails with
  | some e =>
    rw [exec_client_fails hc hw]
    right
    refine ⟨(fun h => nomatch h.1), ?_⟩
    rcases hclose w with ⟨-, h⟩ | ⟨-, h⟩
    · rw [h]
      exact ⟨e, w, rfl, fun _ _ => rfl⟩
    · rw [h]
      exact ⟨.cancelled, w, rfl, fun _ _ => rfl⟩
  | none =>
    have h : (SftpOp.write p 0 data).perform (c 0).now (w s) =
        (.ok (), (w s).set p (some (.file { f with data := data, mtime := (c 0).now }))) := by
      simp only [SftpOp.perform, hp, hf]
      simp [overwrite]
    rw [exec_client_ok hw h]
    rcases hclose (w.set s ((w s).set p (some (.file { f with data := data, mtime := (c 0).now })))) with
      ⟨h1, hx⟩ | ⟨h1, hx⟩
    · left
      refine ⟨rfl, h1, { f with data := data, mtime := (c 0).now }, rfl, ?_⟩
      simp only [exec_ret]
      rw [hx]
    · right
      refine ⟨fun hn => hn.2 h1, .cancelled, _, ?_, hne { f with data := data, mtime := (c 0).now }⟩
      simp only [exec_ret]
      rw [hx]

/-- Setting the mode of a regular file keeps its data, or raises and leaves everything. -/
lemma exec_setMode {s : Side} {p : Text} {w : Servers} {c : ℕ → Choice} {f : RegularFile} (mode : Nat)
    (hc : Atomic c) (hp : w s p = some (.file f)) :
    ((c 0).fails = none ∧ exec sftp (setMode s p mode) w c =
      (.ok (), w.set s ((w s).set p (some (.file { f with mode := mode }))), later c)) ∨
    ((c 0).fails ≠ none ∧ ∃ e, exec sftp (setMode s p mode) w c = (.error e, w, later c)) := by
  cases hf : (c 0).fails with
  | some e => exact .inr ⟨nofun, e, exec_client_fails hc hf⟩
  | none =>
    have h : (SftpOp.chmod p mode).perform (c 0).now (w s) =
        (.ok (), (w s).set p (some (.file { f with mode := mode }))) := by
      simp only [SftpOp.perform, hp]
    exact .inl ⟨rfl, exec_client_ok hf h⟩

/-- Removing a file touches no other path. -/
lemma perform_remove_other (t : Server) {p q : Text} (h : q ≠ p) (now : Nat) :
    ((SftpOp.remove p).perform now t).2 q = t q := by
  simp only [SftpOp.perform]
  split
  · rfl
  · rfl
  · exact Server.set_other t h none

/-- Cleaning up the temporary file touches no other path. -/
lemma exec_cleanup {s : Side} {p : Text} {w : Servers} {c : ℕ → Choice} (hc : Atomic c) :
    ∃ r w', exec sftp (Prog.suppress Exn.isException (remove s p)) w c = (r, w', later c) ∧
      ∀ q, q ≠ p → w' s q = w s q := by
  have hact : ∃ r w', exec sftp (remove s p) w c = (r, w', later c) ∧ ∀ q, q ≠ p → w' s q = w s q := by
    cases hf : (c 0).fails with
    | some e => exact ⟨_, w, exec_client_fails hc hf, fun _ _ => rfl⟩
    | none =>
      refine ⟨_, _, exec_client_ok hf (Prod.mk.eta).symm, fun q hq => ?_⟩
      rw [Servers.set_same]
      exact perform_remove_other (w s) hq (c 0).now
  obtain ⟨r, w', h, hw⟩ := hact
  cases r with
  | ok u => exact ⟨_, w', exec_suppress_of_ok h, hw⟩
  | error e => exact ⟨_, w', exec_suppress_of_error h, hw⟩

/-! ### The whole write -/

/-- The run of `_write_remote_file` that loses the old file: everything up to the rename goes well. -/
def LosesOld (temp before : Option Node) (c : ℕ → Choice) : Prop :=
  Staged temp c ∧ LosesTarget before fun n => c (n + 4)

/-- The body of `_write_remote_file`, before its clean-up. -/
def writeBody (s : Side) (temp path : Text) (data : Bytes) (mode : Nat) : Sftp Unit := do
  let handle ← openWriter s temp
  Prog.andFinally (do let _ ← handle.write data) handle.closeQuiet
  setMode s temp mode
  rename s temp path

/-- The body loses the old file in one way only. -/
lemma exec_writeBody {s : Side} {temp path : Text} {w : Servers} {c : ℕ → Choice} (data : Bytes)
    (mode : Nat) (hc : Atomic c) (ht : temp ≠ path) :
    ∃ r w' c', exec sftp (writeBody s temp path data mode) w c = (r, w', c') ∧
      ((LosesOld (w s temp) (w s path) c ∧ (∃ e, r = .error e) ∧ w' s path = none) ∨
        (¬LosesOld (w s temp) (w s path) c ∧ Replaces (w s path) data r (w' s path))) := by
  have hset : ∀ (w : Servers) (n : Option Node), (w.set s ((w s).set temp n)) s path = w s path :=
    fun w n => by rw [Servers.set_same, Server.set_other _ ht.symm]
  rw [writeBody]
  simp only [Prog.bind_eq, exec_bind]
  rcases exec_openWriter (s := s) (p := temp) (w := w) hc with ⟨h0, hd, f, hf, hx⟩ | ⟨hn, e, hx⟩
  · rw [hx]
    obtain ⟨w1, hw1⟩ : ∃ w1, w1 = w.set s ((w s).set temp (some (.file f))) := ⟨_, rfl⟩
    have ht1 : w1 s temp = some (.file f) := by rw [hw1, Servers.set_same, Server.set_same]
    have hp1 : w1 s path = w s path := by rw [hw1, hset]
    rw [← hw1]
    rcases exec_writeClose data hc.later ht1 hf with ⟨h1, h2, g, hg, hy⟩ | ⟨hn, e, w2, hy, hw2⟩
    · simp only [Prog.bind_eq] at hy
      simp only [hy]
      obtain ⟨w2, hw2⟩ : ∃ w2, w2 = w1.set s ((w1 s).set temp (some (.file g))) := ⟨_, rfl⟩
      have ht2 : w2 s temp = some (.file g) := by rw [hw2, Servers.set_same, Server.set_same]
      have hp2 : w2 s path = w s path := by rw [hw2, hset, hp1]
      rw [← hw2]
      rcases exec_setMode mode hc.later.later.later ht2 with ⟨h3, hz⟩ | ⟨hn, e, hz⟩
      · rw [hz]
        obtain ⟨w3, hw3⟩ : ∃ w3, w3 = w2.set s ((w2 s).set temp (some (.file { g with mode := mode }))) :=
          ⟨_, rfl⟩
        have ht3 : w3 s temp = some (.file { g with mode := mode }) := by
          rw [hw3, Servers.set_same, Server.set_same]
        have hp3 : w3 s path = w s path := by rw [hw3, hset, hp2]
        rw [← hw3]
        have hstaged : Staged (w s temp) c := ⟨hd, h0, h1, h2, h3⟩
        obtain ⟨r, w', c', hrun, hr⟩ := exec_rename hc.later.later.later.later ht ht3
        rw [hp3, hg] at hr
        exact ⟨r, w', c', hrun, hr.imp (fun h => ⟨⟨hstaged, h.1⟩, h.2⟩) fun h => ⟨fun hl => h.1 hl.2, h.2⟩⟩
      · rw [hz]
        exact ⟨_, _, _, rfl, .inr ⟨fun hl => hn hl.1.2.2.2.2, hp2⟩⟩
    · simp only [Prog.bind_eq] at hy
      simp only [hy]
      refine ⟨_, _, _, rfl, .inr ⟨fun hl => hn ⟨hl.1.2.2.1, hl.1.2.2.2.1⟩, ?_⟩⟩
      rw [Replaces, hw2 path ht.symm, hp1]
  · rw [hx]
    exact ⟨_, _, _, rfl, .inr ⟨fun hl => hn ⟨hl.1.2.1, hl.1.1⟩, rfl⟩⟩

/-- The law of a write: when it raises the old node is there, when it returns the new bytes are. -/
def WriteKeepsOld (s : Side) (path tag hex : Text) (data : Bytes) (mode : Nat) (w : Servers)
    (c : ℕ → Choice) : Prop :=
  Replaces (w s path) data (exec sftp (writeRemoteFile s path data mode tag hex) w c).1
    ((exec sftp (writeRemoteFile s path data mode tag hex) w c).2.1 s path)

/-- The law of the rename that ends a relay of `data`. -/
def RelayKeepsOld (target_path : Text) (data : Bytes) (w : Servers) (c : ℕ → Choice) : Prop :=
  Replaces (w .target target_path) data
    (exec sftp (rename .target (LocalRelay.partialPath target_path) target_path) w c).1
    ((exec sftp (rename .target (LocalRelay.partialPath target_path) target_path) w c).2.1 .target target_path)

/-- Writing a remote file replaces the old one, or leaves it when it raises, in every run but one kind. -/
lemma writeRemoteFile_replaces {s : Side} {path tag hex : Text} {data : Bytes} {mode : Nat} {w : Servers}
    {c : ℕ → Choice} (hc : Atomic c) (ht : tempPath path tag hex ≠ path) :
    WriteKeepsOld s path tag hex data mode w c ↔ ¬LosesOld (w s (tempPath path tag hex)) (w s path) c := by
  rw [WriteKeepsOld]
  obtain ⟨r, w', c', hrun, hr⟩ := exec_writeBody (s := s) (w := w) data mode hc ht
  have hc' : Atomic c' := by
    have h := hc.exec (writeBody s (tempPath path tag hex) path data mode) w
    rwa [hrun] at h
  have hexec : ∃ w'', (exec sftp (writeRemoteFile s path data mode tag hex) w c).2.1 = w'' ∧
      w'' s path = w' s path ∧
      ((exec sftp (writeRemoteFile s path data mode tag hex) w c).1 = r ∨ (∃ e, r = .error e) ∧
        ∃ e, (exec sftp (writeRemoteFile s path data mode tag hex) w c).1 = .error e) := by
    have hdef : writeRemoteFile s path data mode tag hex =
        Prog.handle (writeBody s (tempPath path tag hex) path data mode) fun e =>
          (Prog.suppress Exn.isException (remove s (tempPath path tag hex))).bind fun _ => .raise e := rfl
    rw [hdef, exec_handle, hrun]
    cases r with
    | ok u => exact ⟨w', rfl, rfl, .inl rfl⟩
    | error e =>
      obtain ⟨r2, w2, hx, hw2⟩ := exec_cleanup (s := s) (p := tempPath path tag hex) (w := w') hc'
      simp only [exec_bind, hx]
      cases r2 with
      | ok u => exact ⟨w2, rfl, hw2 path ht.symm, .inl rfl⟩
      | error e2 => exact ⟨w2, rfl, hw2 path ht.symm, .inr ⟨⟨e, rfl⟩, e2, rfl⟩⟩
  obtain ⟨w'', hw'', hpath, hres⟩ := hexec
  rw [hw'', hpath]
  rcases hr with ⟨hl, ⟨e, rfl⟩, hnone⟩ | ⟨hl, hrep⟩
  · refine iff_of_false (fun h => ?_) (fun h => h hl)
    have herr : ∃ e, (exec sftp (writeRemoteFile s path data mode tag hex) w c).1 = .error e :=
      hres.elim (fun h => ⟨e, h⟩) fun h => h.2
    obtain ⟨e', he'⟩ := herr
    obtain ⟨g, hg⟩ := hl.2.2.1
    rw [he', hnone] at h
    exact nomatch (show none = w s path from h).trans hg
  · refine iff_of_true ?_ hl
    rcases hres with h | ⟨⟨e, rfl⟩, e', h⟩
    · rwa [h]
    · rw [h]
      exact hrep

/-! ### The temporary file is another file -/

lemma join_suffix (a b : Text) : ∃ pre, join a b = pre ++ b := by
  rw [join]
  split_ifs
  · exact ⟨[], rfl⟩
  · exact ⟨a, rfl⟩
  · exact ⟨a ++ ['/'], by simp⟩

/-- A path with no hyphen in the ninth place from its end is no temporary file, whatever the tag. -/
lemma tempPath_ne {path hex : Text} (tag : Text) (hh : hex.length = 8) (hp : path.reverse[8]? ≠ some '-') :
    tempPath path tag hex ≠ path := by
  intro h
  obtain ⟨pre, hpre⟩ := join_suffix (if dirname path = [] then ".".toList else dirname path)
    (".sgc-tmp-".toList ++ tag ++ "-".toList ++ hex)
  apply hp
  rw [← h, tempPath, hpre]
  have hrev : (pre ++ (".sgc-tmp-".toList ++ tag ++ "-".toList ++ hex)).reverse =
      hex.reverse ++ '-' :: (pre ++ (".sgc-tmp-".toList ++ tag)).reverse := by simp
  rw [hrev, List.getElem?_append_right (by simp [hh])]
  simp [hh]

lemma targetAuthKeys_ninth : targetAuthKeys.reverse[8]? ≠ some '-' := by decide

lemma sourceKnownHosts_ninth : sourceKnownHosts.reverse[8]? ≠ some '-' := by decide

/-- Replacing a remote file keeps the old one until the new one is there, unless the server refuses the
atomic rename, the old file is removed and the plain rename then fails: for the files direct-auth writes and
for the rename that ends a relay. -/
theorem replace_keeps_old_iff {c : ℕ → Choice} (hc : Atomic c) :
    (∀ (s : Side) (path tag hex : Text) (data : Bytes) (mode : Nat) (w : Servers),
      tempPath path tag hex ≠ path →
      (WriteKeepsOld s path tag hex data mode w c ↔
        ¬LosesOld (w s (tempPath path tag hex)) (w s path) c)) ∧
    ∀ (target_path : Text) (w : Servers) (f : RegularFile),
      w .target (LocalRelay.partialPath target_path) = some (.file f) →
      (RelayKeepsOld target_path f.data w c ↔ ¬LosesTarget (w .target target_path) c) :=
  ⟨fun _ _ _ _ _ _ _ ht => writeRemoteFile_replaces hc ht,
    fun target_path _ _ hf => rename_replaces hc (LocalRelay.partialPath_ne_target target_path) hf⟩

/-- On servers that do everything they are asked to. -/
theorem replace_keeps_old_willing :
    (WriteKeepsOld .target targetAuthKeys "k".toList "0123abcd".toList [107] 0o600 (fun _ _ => none)
        (fun _ => .ok) ↔ ¬LosesOld none none (fun _ => .ok)) ∧
      (RelayKeepsOld "/d/x".toList [1, 2] (fun _ _ => some (.file ⟨[1, 2], 0o644, 5⟩)) (fun _ => .ok) ↔
        ¬LosesTarget (some (.file ⟨[1, 2], 0o644, 5⟩)) (fun _ => .ok)) :=
  ⟨(replace_keeps_old_iff fun _ => rfl).1 .target targetAuthKeys "k".toList "0123abcd".toList [107] 0o600
      (fun _ _ => none) (tempPath_ne _ rfl targetAuthKeys_ninth),
    (replace_keeps_old_iff fun _ => rfl).2 "/d/x".toList (fun _ _ => some (.file ⟨[1, 2], 0o644, 5⟩)) _ rfl⟩

/-- A server without POSIX rename removes the old `authorized_keys` and then fails the plain rename. -/
theorem writeRemoteFile_loses_authorizedKeys :
    ¬∀ (c : ℕ → Choice), Atomic c → ∀ (s : Side) (path tag hex : Text) (data : Bytes) (mode : Nat) (w : Servers),
      tempPath path tag hex ≠ path → WriteKeepsOld s path tag hex data mode w c := by
  intro h
  have hc : Atomic fun n => if n = 4 ∨ n = 6 then Choice.raise .sftp else .ok := by
    intro n
    dsimp only
    split <;> rfl
  have ht : tempPath targetAuthKeys "k".toList "0123abcd".toList ≠ targetAuthKeys :=
    tempPath_ne _ rfl targetAuthKeys_ninth
  obtain ⟨w, hw⟩ : ∃ w : Servers, ∀ t, w t =
      Server.set (fun _ => none) targetAuthKeys (some (.file ⟨[111, 108, 100], 0o600, 5⟩)) :=
    ⟨_, fun _ => rfl⟩
  have hkeeps := h _ hc .target targetAuthKeys "k".toList "0123abcd".toList [107] 0o600 w ht
  refine (writeRemoteFile_replaces hc ht).1 hkeeps
    ⟨⟨?_, rfl, rfl, nofun, rfl⟩, ⟨.sftp, rfl, .inr rfl⟩, ?_, rfl, nofun⟩
  · rw [hw, Server.set_other _ ht]
    exact nofun
  · rw [hw, Server.set_same]
    exact ⟨_, rfl⟩

end SshGpuConsole.DirectAuth
