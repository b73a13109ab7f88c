import SshGpuConsole.Lib.Effect
import SshGpuConsole.Lib.PosixPath

/-!
# File transfer sessions

`SftpTransferSession` (`ssh/transport.py`) over a model of two SFTP servers. A server is a map from paths
to nodes; every primitive of the SFTP client is an operation of the environment, which performs it or
raises. A primitive that raises may have taken effect all the same (its reply was lost, its task was
cancelled): a write any number of its bytes, another primitive none or all of it.
-/

namespace SshGpuConsole.Ssh
open Shell (Text)
open Effect PosixPath

abbrev Bytes := List UInt8

/-- The exceptions the file-transfer code tells apart. -/
inductive Exn where
  | fileNotFound
  | fileExists
  /-- `SFTPNoSuchFile`. -/
  | noSuchFile
  /-- Any other `SFTPError`. -/
  | sftp
  | attributeError
  /-- `CancelRequested` of the relay. -/
  | cancelRequested
  /-- Any other `Exception`. -/
  | other
  /-- `asyncio.CancelledError`, no `Exception`. -/
  | cancelled
  deriving DecidableEq, Repr

/-- Whether `except Exception` catches it. -/
def Exn.isException (e : Exn) : Bool := e ≠ .cancelled

/-- `_MISSING_SFTP`. -/
def Exn.isMissing (e : Exn) : Bool := e = .fileNotFound || e = .noSuchFile

/-- Whether `except SFTPError` catches it. -/
def Exn.isSftp (e : Exn) : Bool := e = .noSuchFile || e = .sftp

/-! ### Servers -/

structure RegularFile where
  data : Bytes
  mode : Nat
  mtime : Nat
  deriving DecidableEq, Repr

inductive Node where
  | file (f : RegularFile)
  | dir
  deriving DecidableEq, Repr

abbrev Server := Text → Option Node

/-- The bytes of the regular file at a path. -/
def Server.content (s : Server) (p : Text) : Option Bytes :=
  match s p with
  | some (.file f) => some f.data
  | _ => none

/-- The server with another node at a path. -/
def Server.set (s : Server) (p : Text) (n : Option Node) : Server := fun q => if q = p then n else s q

@[simp] lemma Server.set_same (s : Server) (p : Text) (n : Option Node) : s.set p n p = n := if_pos rfl

lemma Server.set_other (s : Server) {p q : Text} (h : q ≠ p) (n : Option Node) : s.set p n q = s q :=
  if_neg h

/-- The data of a file after bytes were written at an offset; a gap reads as zeros. -/
def overwrite (data : Bytes) (offset : Nat) (bytes : Bytes) : Bytes :=
  data.take offset ++ List.replicate (offset - data.length) 0 ++ bytes ++ data.drop (offset + bytes.length)

inductive OpenMode where
  /-- `"rb"` -/
  | read
  /-- `"wb"` -/
  | write
  /-- `"r+b"` -/
  | update
  deriving DecidableEq, Repr

/-- The attributes `stat` and `lstat` answer with. -/
structure Attrs where
  isDir : Bool
  size : Nat
  mtime : Nat
  deriving DecidableEq, Repr

def Node.attrs : Node → Attrs
  | .file f => ⟨false, f.data.length, f.mtime⟩
  | .dir => ⟨true, 0, 0⟩

/-- The primitives of the SFTP client and of its file objects. -/
inductive SftpOp where
  | stat (path : Text)
  | lstat (path : Text)
  | mkdir (path : Text)
  | open (path : Text) (mode : OpenMode)
  | read (path : Text) (offset n : Nat)
  | write (path : Text) (offset : Nat) (data : Bytes)
  | close (path : Text) (mode : OpenMode)
  | posixRename (source target : Text)
  | rename (source target : Text)
  | remove (path : Text)
  | setMtime (path : Text) (mtime : Nat)
  | chmod (path : Text) (mode : Nat)
  deriving DecidableEq, Repr

@[reducible] def SftpOp.Ans : SftpOp → Type
  | .stat _ | .lstat _ => Attrs
  | .read _ _ _ => Bytes
  | _ => Unit

/-- `mv source target` when the target does not matter. -/
def Server.move (s : Server) (source target : Text) : Server :=
  if source = target then s else (s.set target (s source)).set source none

/-- What a server does with a primitive: it performs it at time `now` or refuses it. -/
def SftpOp.perform (now : Nat) (s : Server) : (o : SftpOp) → Except Exn o.Ans × Server
  | .stat p | .lstat p =>
    match s p with
    | none => (.error .noSuchFile, s)
    | some n => (.ok n.attrs, s)
  | .mkdir p => if (s p).isSome then (.error .sftp, s) else (.ok (), s.set p (some .dir))
  | .open p mode =>
    match s p, mode with
    | some .dir, _ => (.error .sftp, s)
    | none, .write => (.ok (), s.set p (some (.file ⟨[], 0o644, now⟩)))
    | none, _ => (.error .noSuchFile, s)
    | some (.file f), .write => (.ok (), s.set p (some (.file { f with data := [], mtime := now })))
    | some (.file _), _ => (.ok (), s)
  | .read p offset n =>
    match s p with
    | some (.file f) => (.ok ((f.data.drop offset).take n), s)
    | _ => (.error .sftp, s)
  | .write p offset data =>
    match s p with
    | some (.file f) => (.ok (), s.set p (some (.file { f with data := overwrite f.data offset data, mtime := now })))
    | _ => (.error .sftp, s)
  | .close _ _ => (.ok (), s)
  | .posixRename a b =>
    match s a, s b with
    | none, _ => (.error .noSuchFile, s)
    | some (.file _), some .dir => (.error .sftp, s)
    | some .dir, some _ => (.error .sftp, s)
    | some _, _ => (.ok (), s.move a b)
  | .rename a b =>
    match s a, s b with
    | none, _ => (.error .noSuchFile, s)
    | some _, some _ => (.error .sftp, s)
    | some _, none => (.ok (), s.move a b)
  | .remove p =>
    match s p with
    | none => (.error .noSuchFile, s)
    | some .dir => (.error .sftp, s)
    | some (.file _) => (.ok (), s.set p none)
  | .setMtime p mtime =>
    match s p with
    | none => (.error .noSuchFile, s)
    | some .dir => (.ok (), s)
    | some (.file f) => (.ok (), s.set p (some (.file { f with mtime := mtime })))
  | .chmod p mode =>
    match s p with
    | none => (.error .noSuchFile, s)
    | some .dir => (.ok (), s)
    | some (.file f) => (.ok (), s.set p (some (.file { f with mode := mode })))

/-- The primitive of which only the first `applied` bytes, or steps, took effect. -/
def SftpOp.cut (applied : Nat) : SftpOp → SftpOp
  | .write p offset data => .write p offset (data.take applied)
  | o => o

/-- What the environment chooses at one primitive. -/
structure Choice where
  /-- The exception to raise instead of answering. -/
  fails : Option Exn
  /-- How much of a failing primitive takes effect: nothing of it when zero. -/
  applied : Nat
  /-- The server's clock. -/
  now : Nat
  deriving DecidableEq, Repr

/-- Answered without a failure. -/
def Choice.ok : Choice := ⟨none, 0, 0⟩

/-- Raised without an effect. -/
def Choice.raise (e : Exn) : Choice := ⟨some e, 0, 0⟩

def SftpOp.act (c : Choice) (s : Server) (o : SftpOp) : Except Exn o.Ans × Server :=
  match c.fails with
  | none => o.perform c.now s
  | some e => (.error e, if c.applied = 0 then s else ((o.cut c.applied).perform c.now s).2)

/-- The two servers of a pair. -/
inductive Side where
  | source
  | target
  deriving DecidableEq, Repr

abbrev Servers := Side → Server

/-- The pair with another server at a side. -/
def Servers.set (w : Servers) (side : Side) (s : Server) : Servers := fun t => if t = side then s else w t

@[simp] lemma Servers.set_same (w : Servers) (side : Side) (s : Server) : w.set side s side = s := if_pos rfl

lemma Servers.set_other (w : Servers) {side t : Side} (h : t ≠ side) (s : Server) :
    w.set side s t = w t :=
  if_neg h

abbrev SideOp := Side × SftpOp

abbrev SideOp.Ans (o : SideOp) : Type := o.2.Ans

/-- The pair of servers as an environment. -/
def sftp : Sem SideOp SideOp.Ans Exn Servers Choice where
  act o c w := ((o.2.act c (w o.1)).1, w.set o.1 (o.2.act c (w o.1)).2)

/-! ### The session -/

abbrev Sftp (α : Type) := Prog SideOp SideOp.Ans Exn α

/-- Call one primitive of the client on a side. -/
def client (s : Side) (o : SftpOp) : Sftp o.Ans := Prog.perform ((s, o) : SideOp)

/-- `FileStat`. -/
structure FileStat where
  exists_ : Bool
  is_dir : Bool
  size_b : Nat := 0
  is_symlink : Bool := false
  mtime_s : Nat := 0
  deriving DecidableEq, Repr

def FileStat.missing : FileStat := { exists_ := false, is_dir := false }

def FileStat.of (a : Attrs) : FileStat :=
  { exists_ := true, is_dir := a.isDir, size_b := a.size, mtime_s := a.mtime }

/-- `SftpTransferSession.stat`; no node of the model is a link. -/
def stat (s : Side) (path : Text) : Sftp FileStat :=
  (do let info ← client s (.stat path); pure (FileStat.of info)).handle
    fun e => if e.isMissing then pure .missing else throw e

/-- `SftpTransferSession.lstat`. -/
def lstat (s : Side) (path : Text) : Sftp FileStat :=
  (do let info ← client s (.lstat path); pure (FileStat.of info)).handle
    fun e => if e.isMissing then pure .missing else throw e

/-- The next level of the loop of `mkdir`. -/
def nextLevel (path current part : Text) : Text :=
  if current ≠ [] then current ++ '/' :: part
  else if path.head? = some '/' then '/' :: part
  else part

/-- Make one level, unless it is there. -/
def mkdirLevel (s : Side) (current : Text) : Sftp Unit :=
  (do let _ ← client s (.stat current)).handle fun e =>
    if e.isMissing then
      (client s (.mkdir current)).handle fun e' =>
        -- a lost creation race is fine when the level is there now
        if e' = Exn.fileExists || Exn.isSftp e' then do let _ ← client s (.stat current) else throw e'
    else throw e

/-- The loop of `mkdir` over the parts still to make. -/
def mkdirLoop (s : Side) (path : Text) : Text → List Text → Sftp Unit
  | _, [] => pure ()
  | current, part :: parts => do
    let current := nextLevel path current part
    mkdirLevel s current
    mkdirLoop s path current parts

/-- `SftpTransferSession.mkdir`: the directory and its missing parents. -/
def mkdir (s : Side) (path : Text) : Sftp Unit :=
  mkdirLoop s path [] ((stripSlash (normpath path)).splitOn '/')

/-- An open remote file at a position. -/
structure Handle where
  side : Side
  path : Text
  mode : OpenMode
  pos : Nat
  deriving DecidableEq, Repr

/-- `SftpTransferSession.open_reader`. -/
def openReader (s : Side) (path : Text) (offset : Nat := 0) : Sftp Handle := do
  client s (.open path .read)
  pure ⟨s, path, .read, offset⟩

/-- `SftpTransferSession.open_writer`: at an offset the file is kept, else it is truncated. -/
def openWriter (s : Side) (path : Text) (offset : Nat := 0) : Sftp Handle := do
  if offset > 0 then
    client s (.open path .update)
    pure ⟨s, path, .update, offset⟩
  else
    client s (.open path .write)
    pure ⟨s, path, .write, 0⟩

/-- `read(n)`, with the handle behind what was read. -/
def Handle.read (h : Handle) (n : Nat) : Sftp (Bytes × Handle) := do
  let chunk ← client h.side (.read h.path h.pos n)
  pure (chunk, { h with pos := h.pos + chunk.length })

/-- `write(data)`, with the handle behind what was written. -/
def Handle.write (h : Handle) (data : Bytes) : Sftp Handle := do
  client h.side (.write h.path h.pos data)
  pure { h with pos := h.pos + data.length }

def Handle.close (h : Handle) : Sftp Unit := client h.side (.close h.path h.mode)

/-- Close a handle, whatever `Exception` that raises. -/
def Handle.closeQuiet (h : Handle) : Sftp Unit := Prog.suppress Exn.isException h.close

/-- `SftpTransferSession.set_mtime`. -/
def setMtime (s : Side) (path : Text) (mtime_s : Nat) : Sftp Unit :=
  client s (.setMtime path mtime_s)

/-- `SftpTransferSession.set_mode`. -/
def setMode (s : Side) (path : Text) (mode : Nat) : Sftp Unit := client s (.chmod path mode)

/-- `SftpTransferSession.remove`. -/
def remove (s : Side) (path : Text) : Sftp Unit := client s (.remove path)

/-- `SftpTransferSession.rename`: replace the destination, atomically where the server can. -/
def rename (s : Side) (source target : Text) : Sftp Unit :=
  Prog.handle (client s (.posixRename source target)) fun e =>
    if e = .attributeError || e.isSftp then do
      Prog.suppress Exn.isMissing (client s (.remove target))
      client s (.rename source target)
    else throw e

/-! ### Runs without half effects

The environment performs a primitive or raises before it did anything.
-/

/-- No failing primitive takes effect. -/
def Atomic (c : ℕ → Choice) : Prop := ∀ n, (c n).applied = 0

lemma Atomic.later {c : ℕ → Choice} (h : Atomic c) : Atomic (Effect.later c) := fun n => h (n + 1)

lemma Atomic.exec {α : Type} {c : ℕ → Choice} (h : Atomic c) (p : Sftp α) (w : Servers) :
    Atomic (Effect.exec sftp p w c).2.2 := by
  obtain ⟨n, hn⟩ := exec_rest (M := sftp) p w c
  rw [hn]
  exact fun i => h (i + n)

@[simp] lemma Servers.set_self (w : Servers) (s : Side) : w.set s (w s) = w := by
  funext t
  by_cases h : t = s
  · rw [h, Servers.set_same]
  · exact Servers.set_other w h _

lemma exec_client (s : Side) (o : SftpOp) (w : Servers) (c : ℕ → Choice) :
    exec sftp (client s o) w c = ((o.act (c 0) (w s)).1, w.set s (o.act (c 0) (w s)).2, later c) :=
  exec_perform _ _ _

/-- A primitive the server gets to perform. -/
lemma exec_client_ok {s : Side} {o : SftpOp} {w : Servers} {c : ℕ → Choice} (h : (c 0).fails = none)
    {r : Except Exn o.Ans} {t : Server} (hp : o.perform (c 0).now (w s) = (r, t)) :
    exec sftp (client s o) w c = (r, w.set s t, later c) := by
  rw [exec_client, SftpOp.act, h, hp]

/-- A primitive that raises. -/
lemma exec_client_fails {s : Side} {o : SftpOp} {w : Servers} {c : ℕ → Choice} (hc : Atomic c) {e : Exn}
    (h : (c 0).fails = some e) : exec sftp (client s o) w c = (.error e, w, later c) := by
  rw [exec_client, SftpOp.act, h, if_pos (hc 0), Servers.set_self]

/-- The environment refuses a primitive in the way `rename` falls back on. -/
def Refuses (c : Choice) : Prop := ∃ e, c.fails = some e ∧ (e = .attributeError ∨ e.isSftp = true)

/-- The run of `rename` that removes the target and then cannot put the source there. -/
def LosesTarget (before : Option Node) (c : ℕ → Choice) : Prop :=
  Refuses (c 0) ∧ (∃ f, before = some (.file f)) ∧ (c 1).fails = none ∧ (c 2).fails ≠ none

/-- What replacing a node by a regular file has to come to: the new bytes, or the old node. -/
def Replaces (before : Option Node) (data : Bytes) (r : Except Exn Unit) (after : Option Node) : Prop :=
  match r with
  | .ok _ => ∃ f, after = some (.file f) ∧ f.data = data
  | .error _ => after = before

lemma Server.move_target {s : Server} {a b : Text} (h : a ≠ b) : s.move a b b = s a := by
  rw [Server.move, if_neg h, Server.set_other _ h.symm, Server.set_same]

/-- A suppressed removal either leaves everything or removes the regular file. -/
lemma exec_suppress_remove {s : Side} {b : Text} {w : Servers} {c : ℕ → Choice} (hc : Atomic c) :
    (∃ r, exec sftp (Prog.suppress Exn.isMissing (client s (.remove b))) w c = (r, w, later c) ∧
      ¬((c 0).fails = none ∧ ∃ f, w s b = some (.file f))) ∨
    ((c 0).fails = none ∧ (∃ f, w s b = some (.file f)) ∧
      exec sftp (Prog.suppress Exn.isMissing (client s (.remove b))) w c =
        (.ok (), w.set s ((w s).set b none), later c)) := by
  cases hf : (c 0).fails with
  | some e =>
    exact .inl ⟨_, exec_suppress_of_error (exec_client_fails hc hf), fun h => nomatch h.1⟩
  | none =>
    cases hb : w s b with
    | none =>
      have hp : (SftpOp.remove b).perform (c 0).now (w s) = (.error .noSuchFile, w s) := by
        rw [SftpOp.perform, hb]
      have hx := exec_suppress_of_error (k := Exn.isMissing) (exec_client_ok hf hp)
      rw [Servers.set_self] at hx
      exact .inl ⟨_, hx, fun h => nomatch h.2⟩
    | some n =>
      cases n with
      | dir =>
        have hp : (SftpOp.remove b).perform (c 0).now (w s) = (.error .sftp, w s) := by
          rw [SftpOp.perform, hb]
        have hx := exec_suppress_of_error (k := Exn.isMissing) (exec_client_ok hf hp)
        rw [Servers.set_self] at hx
        exact .inl ⟨_, hx, fun h => nomatch h.2⟩
      | file f =>
        have hp : (SftpOp.remove b).perform (c 0).now (w s) = (.ok (), (w s).set b none) := by
          rw [SftpOp.perform, hb]
        exact .inr ⟨rfl, ⟨f, rfl⟩, exec_suppress_of_ok (exec_client_ok hf hp)⟩

/-- A plain rename moves the source onto a free path, and raises with nothing done otherwise. -/
lemma exec_rename_plain {s : Side} {a b : Text} {w : Servers} {c : ℕ → Choice} (hc : Atomic c)
    {f : RegularFile} (ha : w s a = some (.file f)) :
    ((c 0).fails = none ∧ w s b = none ∧
      exec sftp (client s (.rename a b)) w c = (.ok (), w.set s ((w s).move a b), later c)) ∨
    (¬((c 0).fails = none ∧ w s b = none) ∧
      ∃ e, exec sftp (client s (.rename a b)) w c = (.error e, w, later c)) := by
  cases hf : (c 0).fails with
  | some e => exact .inr ⟨by simp, e, exec_client_fails hc hf⟩
  | none =>
    cases hb : w s b with
    | none =>
      have hp : (SftpOp.rename a b).perform (c 0).now (w s) = (.ok (), (w s).move a b) := by
        simp [SftpOp.perform, ha, hb]
      exact .inl ⟨rfl, rfl, exec_client_ok hf hp⟩
    | some n =>
      have hp : (SftpOp.rename a b).perform (c 0).now (w s) = (.error .sftp, w s) := by
        simp [SftpOp.perform, ha, hb]
      exact .inr ⟨by simp, .sftp, by rw [exec_client_ok hf hp, Servers.set_self]⟩

/-- A POSIX rename moves the source, or raises with nothing done. -/
lemma exec_posixRename {s : Side} {a b : Text} {w : Servers} {c : ℕ → Choice} (hc : Atomic c)
    {f : RegularFile} (ha : w s a = some (.file f)) :
    ((c 0).fails = none ∧
      exec sftp (client s (.posixRename a b)) w c = (.ok (), w.set s ((w s).move a b), later c)) ∨
    (∃ e, exec sftp (client s (.posixRename a b)) w c = (.error e, w, later c) ∧
      ((c 0).fails = some e ∨ (c 0).fails = none ∧ w s b = some .dir)) := by
  cases hf : (c 0).fails with
  | some e => exact .inr ⟨e, exec_client_fails hc hf, .inl rfl⟩
  | none =>
    by_cases hb : w s b = some .dir
    · have hp : (SftpOp.posixRename a b).perform (c 0).now (w s) = (.error .sftp, w s) := by
        simp [SftpOp.perform, ha, hb]
      exact .inr ⟨.sftp, by rw [exec_client_ok hf hp, Servers.set_self], .inr ⟨rfl, hb⟩⟩
    · have hp : (SftpOp.posixRename a b).perform (c 0).now (w s) = (.ok (), (w s).move a b) := by
        rw [SftpOp.perform, ha]
        cases h : w s b with
        | none => rfl
        | some n =>
          cases n with
          | file g => rfl
          | dir => exact absurd h hb
      exact .inl ⟨rfl, exec_client_ok hf hp⟩

/-- A rename of a regular file loses the target in one way only, and replaces it otherwise. -/
lemma exec_rename {s : Side} {a b : Text} {w : Servers} {c : ℕ → Choice} {f : RegularFile}
    (hc : Atomic c) (hab : a ≠ b) (ha : w s a = some (.file f)) :
    ∃ r w' c', exec sftp (rename s a b) w c = (r, w', c') ∧
      ((LosesTarget (w s b) c ∧ (∃ e, r = .error e) ∧ w' s b = none) ∨
        (¬LosesTarget (w s b) c ∧ Replaces (w s b) f.data r (w' s b))) := by
  have hmove : ∀ t : Server, t a = some (.file f) → t.move a b b = some (.file f) := fun t ht => by
    rw [Server.move_target hab, ht]
  rw [rename, exec_handle]
  rcases exec_posixRename (b := b) hc ha with ⟨hf, h⟩ | ⟨e, h, hwhy⟩
  · -- the server renames in one step
    rw [h]
    refine ⟨_, _, _, rfl, .inr ⟨fun hl => ?_, f, ?_, rfl⟩⟩
    · obtain ⟨⟨e, he, -⟩, -⟩ := hl
      exact nomatch hf.symm.trans he
    · rw [Servers.set_same, hmove _ ha]
  · rw [h]
    by_cases hr : (e = .attributeError || e.isSftp) = true
    · -- the fallback: remove the target, then rename
      simp only [hr, if_true, Prog.bind_eq, exec_bind]
      rcases exec_suppress_remove (s := s) (b := b) (w := w) hc.later with
        ⟨r, hx, hk⟩ | ⟨hok, hfile, hx⟩
      · have hnl : ¬LosesTarget (w s b) c := fun hl => hk ⟨hl.2.2.1, hl.2.1⟩
        rw [hx]
        cases r with
        | error e' => exact ⟨_, _, _, rfl, .inr ⟨hnl, rfl⟩⟩
        | ok u =>
          rcases exec_rename_plain (b := b) hc.later.later ha with ⟨-, -, hy⟩ | ⟨-, e', hy⟩
          · exact ⟨_, _, _, hy, .inr ⟨hnl, f, by rw [Servers.set_same, hmove _ ha], rfl⟩⟩
          · exact ⟨_, _, _, hy, .inr ⟨hnl, rfl⟩⟩
      · rw [hx]
        obtain ⟨g, hg⟩ := hfile
        have ha' : (w.set s ((w s).set b none)) s a = some (.file f) := by
          rw [Servers.set_same, Server.set_other _ hab, ha]
        have hb' : (w.set s ((w s).set b none)) s b = none := by
          rw [Servers.set_same, Server.set_same]
        have href : Refuses (c 0) := by
          rcases hwhy with hc0 | ⟨-, hd⟩
          · exact ⟨e, hc0, by simpa using hr⟩
          · exact nomatch hd.symm.trans hg
        rcases exec_rename_plain (b := b) hc.later.later ha' with ⟨hf2, -, hy⟩ | ⟨hn, e', hy⟩
        · refine ⟨_, _, _, hy, .inr ⟨fun hl => hl.2.2.2 hf2, f, ?_, rfl⟩⟩
          rw [Servers.set_same, hmove _ ha']
        · exact ⟨_, _, _, hy, .inl ⟨⟨href, ⟨g, hg⟩, hok, fun hf2 => hn ⟨hf2, hb'⟩⟩, ⟨e', rfl⟩, hb'⟩⟩
    · -- another exception is passed on
      simp only [hr, Bool.false_eq_true, if_false]
      refine ⟨_, _, _, rfl, .inr ⟨fun hl => ?_, rfl⟩⟩
      obtain ⟨⟨e', he', hk⟩, ⟨g, hg⟩, -⟩ := hl
      rcases hwhy with hc0 | ⟨-, hd⟩
      · obtain rfl := Option.some.inj (hc0.symm.trans he')
        exact hr (by simpa using hk)
      · exact nomatch hd.symm.trans hg

/-- A rename of a regular file replaces the target in every run but that one. -/
lemma rename_replaces {s : Side} {a b : Text} {w : Servers} {c : ℕ → Choice} {f : RegularFile}
    (hc : Atomic c) (hab : a ≠ b) (ha : w s a = some (.file f)) :
    Replaces (w s b) f.data (exec sftp (rename s a b) w c).1 ((exec sftp (rename s a b) w c).2.1 s b) ↔
      ¬LosesTarget (w s b) c := by
  obtain ⟨r, w', c', hrun, hr⟩ := exec_rename hc hab ha
  rw [hrun]
  rcases hr with ⟨hl, ⟨e, rfl⟩, hnone⟩ | ⟨hl, hrep⟩
  · refine iff_of_false (fun h => ?_) (fun h => h hl)
    obtain ⟨g, hg⟩ := hl.2.1
    have hkept : w' s b = w s b := h
    exact nomatch hnone.symm.trans (hkept.trans hg)
  · exact iff_of_true hrep hl

end SshGpuConsole.Ssh
