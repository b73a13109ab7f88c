import SshGpuConsole.Lib.Fnmatch
import SshGpuConsole.Lib.LexicalPath
import SshGpuConsole.Transfer.LocalRelay

/-!
# The walks over a source tree

`_relay_dir` (`transfer/strategies/local_relay.py`) and `_first_missing_target_file` (`transfer/verifier.py`) go over
one source tree, the one with `lstat` and by recursion, the other with `stat` and a stack. What the SFTP server answers
is given; it answers the same to both calls but at a link, where `stat` says what the link leads to.
-/

namespace SshGpuConsole.TreeWalks
open Shell (Text)
open LocalRelay PosixPath Ssh

/-- What a walk goes down into: a directory, and no link to one. -/
def Enters (s : FileStat) : Prop := s.exists_ = true ∧ s.is_symlink = false ∧ s.is_dir = true

/-- What a walk copies. -/
def Copies (s : FileStat) : Prop := s.exists_ = true ∧ s.is_symlink = false ∧ s.is_dir = false

/-- A directory that can be listed, and so can those in it, down to the last. -/
inductive Finite (lstat : Text → FileStat) (listdir : Text → Option (List Text)) : Text → Prop
  | intro {dir names} : listdir dir = some names →
      (∀ name ∈ names, name ≠ ['.'] → name ≠ ['.', '.'] → Enters (lstat (child dir name)) →
        Finite lstat listdir (child dir name)) →
      Finite lstat listdir dir

/-- A source server, with the directory that a transfer copies. -/
structure SourceTree where
  root : Text
  stat : Text → FileStat
  lstat : Text → FileStat
  /-- Nothing when the server refuses. -/
  listdir : Text → Option (List Text)
  root_ne : root ≠ []
  follows : ∀ path, (lstat path).is_symlink = false → stat path = lstat path
  names : ∀ dir names, listdir dir = some names → ∀ name ∈ names, name ≠ [] ∧ '/' ∉ name
  finite : Finite lstat listdir root

/-- `is_excluded` -/
def isExcluded (name : Text) (excludes : List Text) : Bool := excludes.any (Fnmatch.fnmatchcase name)

/-- An entry that a walk looks at. -/
def kept (excludes : List Text) (name : Text) : Bool :=
  !(name = ['.'] || name = ['.', '.'] || isExcluded name excludes)

/-! ### The relay -/

/-- What the relay did to a tree. -/
structure RelayLog where
  /-- The directories of the target. -/
  made : List Text := []
  /-- The directories of the source. -/
  listed : List Text := []
  /-- The files, each with its target. -/
  copied : List (Text × Text) := []
  skipped : List (Text × Text) := []
  warnings : List Text := []
  deriving DecidableEq, Repr

/-- The files that were copied or skipped as up to date. -/
def RelayLog.files (log : RelayLog) : List (Text × Text) := log.copied ++ log.skipped

inductive Stop where
  /-- The server refused to list a directory. -/
  | refused
  /-- The tree is deeper than the walk was given steps for. -/
  | depth
  deriving DecidableEq, Repr

/-- `_WARNINGS_MAX` -/
def warningsMax : ℕ := 20

section
variable (tree : SourceTree) (excludes : List Text) (target_lstat : Text → FileStat)

/-- The body of the loop of `_relay_dir`; a copy that fails ends the transfer and is left out. -/
def relayEntry (descend : Text → Text → RelayLog → Except Stop RelayLog) (source_dir target_dir : Text)
    (log : RelayLog) (name : Text) : Except Stop RelayLog :=
  if !kept excludes name then .ok log
  else
    let source_child := child source_dir name
    let target_child := child target_dir name
    let child_stat := tree.lstat source_child
    if !child_stat.exists_ then .ok log
    else if child_stat.is_symlink then
      if log.warnings.length < warningsMax then
        .ok { log with warnings := log.warnings ++ ["skipped symlink: ".toList ++ source_child] }
      else .ok log
    else if child_stat.is_dir then descend source_child target_child log
    else if isUpToDate child_stat (target_lstat target_child) then
      .ok { log with skipped := log.skipped ++ [(source_child, target_child)] }
    else .ok { log with copied := log.copied ++ [(source_child, target_child)] }

/-- `_relay_dir`, in a tree that is at most so deep. -/
def relayDir : ℕ → Text → Text → RelayLog → Except Stop RelayLog
  | 0, _, _, _ => .error .depth
  | n + 1, source_dir, target_dir, log =>
    match tree.listdir source_dir with
    | none => .error .refused
    | some names =>
      names.foldlM (relayEntry tree excludes target_lstat (relayDir n) source_dir target_dir)
        { log with made := log.made ++ [target_dir], listed := log.listed ++ [source_dir] }

end

/-! ### The verifier -/

/-- What the verifier went over. -/
structure VerifyLog where
  listed : List Text := []
  /-- The files, each with the target that it was compared with. -/
  checked : List (Text × Text) := []
  deriving DecidableEq, Repr

/-- What `_first_missing_target_file` ends with. -/
inductive Verdict where
  /-- `None` -/
  | complete
  | missing (target_child : Text)
  | refused
  deriving DecidableEq, Repr

section
variable (tree : SourceTree) (excludes : List Text) (cwd target_path : Text) (target_stat : Text → FileStat)

/-- The body of the loop of `_first_missing_target_file`: the stack and the log, or the target that is missing. -/
def verifyEntry (current : Text) (walk : List Text × VerifyLog) (name : Text) :
    Except (Text × VerifyLog) (List Text × VerifyLog) :=
  let (stack, log) := walk
  if !kept excludes name then .ok (stack, log)
  else
    let source_child := child current name
    let s := tree.stat source_child
    if !s.exists_ then .ok (stack, log)
    else if s.is_dir then .ok (source_child :: stack, log)
    else
      let relative := relpath cwd source_child tree.root
      let target_child := rstripSlash target_path ++ '/' :: relative
      let target_child_stat := target_stat target_child
      let log := { log with checked := log.checked ++ [(source_child, target_child)] }
      if !target_child_stat.exists_ || target_child_stat.size_b ≠ s.size_b then .error (target_child, log)
      else .ok (stack, log)

/-- `_first_missing_target_file`, from a stack on and for at most so many directories. -/
def firstMissing : ℕ → List Text → VerifyLog → Option (Verdict × VerifyLog)
  | _, [], log => some (.complete, log)
  | 0, _ :: _, _ => none
  | n + 1, current :: stack, log =>
    match tree.listdir current with
    | none => some (.refused, log)
    | some names =>
      match names.foldlM (verifyEntry tree excludes cwd target_path target_stat current)
          (stack, { log with listed := log.listed ++ [current] }) with
      | .error (target_child, log) => some (.missing target_child, log)
      | .ok (stack, log) => firstMissing n stack log

end

/-! ### What there is in a tree -/

section
variable (tree : SourceTree) (excludes : List Text)

/-- A name that a walk looks at, in the directory below the root under the names. -/
def Entry (names : List Text) (name : Text) : Prop :=
  ∃ entries, tree.listdir (below tree.root names) = some entries ∧ name ∈ entries ∧ kept excludes name = true

/-- The directories at one and below, by their names from the root; a link to one is none. -/
inductive DirUnder : List Text → List Text → Prop
  | here {names} : DirUnder names names
  | inside {names name target} : Entry tree excludes names name →
      Enters (tree.lstat (child (below tree.root names) name)) → DirUnder (names ++ [name]) target →
      DirUnder names target

/-- The files below a directory. -/
inductive FileUnder : List Text → List Text → Prop
  | here {names name} : Entry tree excludes names name →
      Copies (tree.lstat (child (below tree.root names) name)) → FileUnder names (names ++ [name])
  | inside {names name target} : Entry tree excludes names name →
      Enters (tree.lstat (child (below tree.root names) name)) → FileUnder (names ++ [name]) target →
      FileUnder names target

/-- The directories below one, by their paths. -/
def dirs (names : List Text) : Set Text := {dir | ∃ target, DirUnder tree excludes names target ∧
  dir = below tree.root target}

/-- The files below a directory, each with the path that mirrors it. -/
def files (target_path : Text) (names : List Text) : Set (Text × Text) :=
  {file | ∃ target, FileUnder tree excludes names target ∧
    file = (below tree.root target, below target_path target)}

/-- The links in the tree lead nowhere. -/
def Dangling : Prop := ∀ names name, DirUnder tree excludes [] names → Entry tree excludes names name →
  (tree.lstat (child (below tree.root names) name)).is_symlink = true →
  (tree.stat (child (below tree.root names) name)).exists_ = false

end

/-- The target has a file, as large as the source has it. -/
def Passes (tree : SourceTree) (target_stat : Text → FileStat) (file : Text × Text) : Prop :=
  (target_stat file.2).exists_ = true ∧ (target_stat file.2).size_b = (tree.stat file.1).size_b

/-- A working directory. -/
structure Cwd where
  path : Text
  rooted : path.head? = some '/'

/-- The verifier goes the relay's way. -/
structure SameWalk (tree : SourceTree) (excludes : List Text) (cwd : Cwd) (target_path : Text) : Prop where
  /-- It ends, and what it lists and checks is in the tree, not behind a link. -/
  terminates : ∀ target_stat, ∃ n verdict log,
    firstMissing tree excludes cwd.path target_path target_stat n [tree.root] {} = some (verdict, log) ∧
      (∀ dir ∈ log.listed, dir ∈ dirs tree excludes []) ∧ ∀ file ∈ log.checked, file ∈ files tree excludes target_path []
  /-- Behind a relay that finished it checks what the relay copied or skipped, and misses nothing. -/
  agrees : ∀ target_lstat depth relayed,
    relayDir tree excludes target_lstat depth tree.root target_path {} = .ok relayed →
    ∀ target_stat, (∀ file ∈ relayed.files, Passes tree target_stat file) →
      ∃ n log, firstMissing tree excludes cwd.path target_path target_stat n [tree.root] {} = some (.complete, log) ∧
        (∀ file, file ∈ log.checked ↔ file ∈ relayed.files) ∧ ∀ dir, dir ∈ log.listed ↔ dir ∈ relayed.listed

variable {tree : SourceTree} {excludes : List Text} {cwd : Cwd} {target_path : Text}
  {target_lstat target_stat : Text → FileStat} {names : List Text} {name : Text}

lemma firstMissing_cons (n : ℕ) {dir : Text} {entries stack : List Text} (log : VerifyLog)
    (hlist : tree.listdir dir = some entries) :
    firstMissing tree excludes cwd.path target_path target_stat (n + 1) (dir :: stack) log =
      match entries.foldlM (verifyEntry tree excludes cwd.path target_path target_stat dir)
          (stack, { log with listed := log.listed ++ [dir] }) with
      | .error (target_child, log) => some (.missing target_child, log)
      | .ok (stack, log) => firstMissing tree excludes cwd.path target_path target_stat n stack log := by
  rw [firstMissing, hlist]

lemma below_concat (dir : Text) (names : List Text) (name : Text) :
    below dir (names ++ [name]) = child (below dir names) name := by
  unfold below
  rw [List.foldl_append, List.foldl_cons, List.foldl_nil]

/-- What is in the directory is there under a name. -/
lemma Entry.is_name (h : Entry tree excludes names name) : Name name := by
  obtain ⟨entries, hlist, hmem, hkept⟩ := h
  obtain ⟨hne, hslash⟩ := tree.names _ _ hlist name hmem
  unfold kept at hkept
  rw [Bool.not_eq_true', Bool.or_eq_false_iff, Bool.or_eq_false_iff, decide_eq_false_iff_not,
    decide_eq_false_iff_not] at hkept
  exact ⟨⟨hne, hkept.1.1, hslash⟩, hkept.1.2⟩

lemma DirUnder.are_names {target : List Text} (h : DirUnder tree excludes names target)
    (hnames : ∀ name ∈ names, Name name) : ∀ name ∈ target, Name name := by
  induction h with
  | here => exact hnames
  | inside hentry _ _ ih =>
    refine ih fun n hn => ?_
    rcases List.mem_append.1 hn with hn | hn
    · exact hnames n hn
    · rw [List.mem_singleton.1 hn]
      exact hentry.is_name

lemma DirUnder.trans {mid target : List Text} (h : DirUnder tree excludes names mid)
    (h' : DirUnder tree excludes mid target) : DirUnder tree excludes names target := by
  induction h with
  | here => exact h'
  | inside hentry henters _ ih => exact .inside hentry henters (ih h')

/-! ### The relay's walk -/

/-- What a loop collects, from what each of its rounds does. -/
lemma foldlM_collects {α β σ ε : Type} {f : σ → α → Except ε σ} {S : σ → Set β} {C : α → Set β} {as : List α}
    (hround : ∀ s s' a, a ∈ as → f s a = .ok s' → S s' = S s ∪ C a) {s s' : σ} (h : as.foldlM f s = .ok s') :
    S s' = S s ∪ {b | ∃ a ∈ as, b ∈ C a} := by
  induction as generalizing s with
  | nil =>
    rw [List.foldlM_nil] at h
    cases h
    ext b
    simp
  | cons a as ih =>
    rw [List.foldlM_cons] at h
    cases ha : f s a with
    | error e =>
      rw [ha] at h
      cases h
    | ok t =>
      rw [ha] at h
      rw [ih (fun s s' a' ha' => hround s s' a' (List.mem_cons_of_mem _ ha')) h,
        hround s t a List.mem_cons_self ha]
      ext b
      simp [or_assoc]

lemma foldlM_ok {α σ ε : Type} {f : σ → α → Except ε σ} {as : List α}
    (hround : ∀ s, ∀ a ∈ as, ∃ s', f s a = .ok s') (s : σ) : ∃ s', as.foldlM f s = .ok s' := by
  induction as generalizing s with
  | nil => exact ⟨s, rfl⟩
  | cons a as ih =>
    obtain ⟨t, ht⟩ := hround s a List.mem_cons_self
    rw [List.foldlM_cons, ht]
    exact ih (fun s a' ha' => hround s a' (List.mem_cons_of_mem _ ha')) t

/-- What one entry adds to the directories. -/
def entryDirs (tree : SourceTree) (excludes : List Text) (names : List Text) (name : Text) : Set Text :=
  {dir | kept excludes name = true ∧ Enters (tree.lstat (child (below tree.root names) name)) ∧
    dir ∈ dirs tree excludes (names ++ [name])}

/-- What one entry adds to the files. -/
def entryFiles (tree : SourceTree) (excludes : List Text) (target_path : Text) (names : List Text) (name : Text) :
    Set (Text × Text) :=
  {file | kept excludes name = true ∧ (Copies (tree.lstat (child (below tree.root names) name)) ∧
      file = (below tree.root (names ++ [name]), below target_path (names ++ [name])) ∨
    Enters (tree.lstat (child (below tree.root names) name)) ∧ file ∈ files tree excludes target_path (names ++ [name]))}

lemma dirs_eq {entries : List Text} (hlist : tree.listdir (below tree.root names) = some entries) :
    dirs tree excludes names =
      {below tree.root names} ∪ {dir | ∃ name ∈ entries, dir ∈ entryDirs tree excludes names name} := by
  ext dir
  constructor
  · rintro ⟨target, hunder, rfl⟩
    cases hunder with
    | here => exact .inl rfl
    | inside hentry henters hunder =>
      obtain ⟨entries', hlist', hmem, hkept⟩ := hentry
      obtain rfl := Option.some.inj (hlist.symm.trans hlist')
      exact .inr ⟨_, hmem, hkept, henters, _, hunder, rfl⟩
  · rintro (rfl | ⟨name, hmem, hkept, henters, target, hunder, rfl⟩)
    · exact ⟨names, .here, rfl⟩
    · exact ⟨target, .inside ⟨entries, hlist, hmem, hkept⟩ henters hunder, rfl⟩

lemma files_eq {entries : List Text} (hlist : tree.listdir (below tree.root names) = some entries) :
    files tree excludes target_path names =
      {file | ∃ name ∈ entries, file ∈ entryFiles tree excludes target_path names name} := by
  ext file
  constructor
  · rintro ⟨target, hunder, rfl⟩
    cases hunder with
    | here hentry hcopies =>
      obtain ⟨entries', hlist', hmem, hkept⟩ := hentry
      obtain rfl := Option.some.inj (hlist.symm.trans hlist')
      exact ⟨_, hmem, hkept, .inl ⟨hcopies, rfl⟩⟩
    | inside hentry henters hunder =>
      obtain ⟨entries', hlist', hmem, hkept⟩ := hentry
      obtain rfl := Option.some.inj (hlist.symm.trans hlist')
      exact ⟨_, hmem, hkept, .inr ⟨henters, _, hunder, rfl⟩⟩
  · rintro ⟨name, hmem, hkept, ⟨hcopies, rfl⟩ | ⟨henters, target, hunder, rfl⟩⟩
    · exact ⟨names ++ [name], .here ⟨entries, hlist, hmem, hkept⟩ hcopies, rfl⟩
    · exact ⟨target, .inside ⟨entries, hlist, hmem, hkept⟩ henters hunder, rfl⟩

/-- The directories and the files that a log has. -/
def RelayLog.dirSet (log : RelayLog) : Set Text := {dir | dir ∈ log.listed}
def RelayLog.fileSet (log : RelayLog) : Set (Text × Text) := {file | file ∈ log.files}

lemma entryDirs_of_not_enters (h : ¬Enters (tree.lstat (child (below tree.root names) name))) :
    entryDirs tree excludes names name = ∅ :=
  Set.eq_empty_iff_forall_notMem.2 fun _ hdir => h hdir.2.1

lemma entryFiles_of_neither (h : ¬Enters (tree.lstat (child (below tree.root names) name)))
    (h' : ¬Copies (tree.lstat (child (below tree.root names) name))) :
    entryFiles tree excludes target_path names name = ∅ :=
  Set.eq_empty_iff_forall_notMem.2 fun _ hfile => hfile.2.elim (fun hc => h' hc.1) fun he => h he.1

lemma entry_not_kept (h : kept excludes name ≠ true) :
    entryDirs tree excludes names name = ∅ ∧ entryFiles tree excludes target_path names name = ∅ :=
  ⟨Set.eq_empty_iff_forall_notMem.2 fun _ hdir => h hdir.1, Set.eq_empty_iff_forall_notMem.2 fun _ hfile => h hfile.1⟩

lemma entryFiles_of_copies (hkept : kept excludes name = true)
    (h : Copies (tree.lstat (child (below tree.root names) name))) :
    entryFiles tree excludes target_path names name =
      {(below tree.root (names ++ [name]), below target_path (names ++ [name]))} := by
  ext file
  constructor
  · rintro ⟨-, ⟨-, rfl⟩ | ⟨henters, -⟩⟩
    · rfl
    · exact absurd (h.2.2.symm.trans henters.2.2) Bool.false_ne_true
  · rintro rfl
    exact ⟨hkept, .inl ⟨h, rfl⟩⟩

lemma entry_of_enters (hkept : kept excludes name = true)
    (h : Enters (tree.lstat (child (below tree.root names) name))) :
    entryDirs tree excludes names name = dirs tree excludes (names ++ [name]) ∧
      entryFiles tree excludes target_path names name = files tree excludes target_path (names ++ [name]) := by
  constructor
  · ext dir
    exact ⟨fun hdir => hdir.2.2, fun hdir => ⟨hkept, h, hdir⟩⟩
  · ext file
    constructor
    · rintro ⟨-, ⟨hcopies, -⟩ | ⟨-, hfile⟩⟩
      · exact absurd (hcopies.2.2.symm.trans h.2.2) Bool.false_ne_true
      · exact hfile
    · exact fun hfile => ⟨hkept, .inr ⟨h, hfile⟩⟩

/-- One round of the relay's loop, when what it goes down into adds what is there. -/
lemma relayEntry_collects {descend : Text → Text → RelayLog → Except Stop RelayLog} {log log' : RelayLog}
    (hdescend : ∀ log log', descend (below tree.root (names ++ [name])) (below target_path (names ++ [name])) log =
        .ok log' → log'.dirSet = log.dirSet ∪ dirs tree excludes (names ++ [name]) ∧
      log'.fileSet = log.fileSet ∪ files tree excludes target_path (names ++ [name]))
    (h : relayEntry tree excludes target_lstat descend (below tree.root names) (below target_path names) log name =
      .ok log') :
    log'.dirSet = log.dirSet ∪ entryDirs tree excludes names name ∧
      log'.fileSet = log.fileSet ∪ entryFiles tree excludes target_path names name := by
  have hsame : entryDirs tree excludes names name = ∅ → entryFiles tree excludes target_path names name = ∅ →
      log.dirSet = log.dirSet ∪ entryDirs tree excludes names name ∧
        log.fileSet = log.fileSet ∪ entryFiles tree excludes target_path names name := by
    intro hd hf
    rw [hd, hf, Set.union_empty, Set.union_empty]
    exact ⟨rfl, rfl⟩
  unfold relayEntry at h
  rw [← below_concat, ← below_concat] at h
  dsimp only at h
  rw [below_concat tree.root] at h
  split at h
  · rename_i hkept
    obtain rfl := Except.ok.inj h
    have hnot : entryDirs tree excludes names name = ∅ ∧ entryFiles tree excludes target_path names name = ∅ :=
      entry_not_kept fun hk => by simp [hk] at hkept
    exact hsame hnot.1 hnot.2
  · rename_i hkept
    have hkept : kept excludes name = true := by simpa using hkept
    split at h
    · rename_i hexists
      obtain rfl := Except.ok.inj h
      have hmissing : (tree.lstat (child (below tree.root names) name)).exists_ ≠ true := by simpa using hexists
      exact hsame (entryDirs_of_not_enters fun he => hmissing he.1)
        (entryFiles_of_neither (fun he => hmissing he.1) fun hc => hmissing hc.1)
    · rename_i hexists
      have hexists : (tree.lstat (child (below tree.root names) name)).exists_ = true := by simpa using hexists
      split at h
      · rename_i hlink
        have hnd : entryDirs tree excludes names name = ∅ :=
          entryDirs_of_not_enters fun he => Bool.false_ne_true (he.2.1.symm.trans hlink)
        have hnf : entryFiles tree excludes target_path names name = ∅ :=
          entryFiles_of_neither (fun he => Bool.false_ne_true (he.2.1.symm.trans hlink))
            fun hc => Bool.false_ne_true (hc.2.1.symm.trans hlink)
        split at h
        · obtain rfl := Except.ok.inj h
          exact hsame hnd hnf
        · obtain rfl := Except.ok.inj h
          exact hsame hnd hnf
      · rename_i hlink
        have hlink := Bool.eq_false_iff.2 hlink
        split at h
        · rename_i hdir
          have hadds : entryDirs tree excludes names name = dirs tree excludes (names ++ [name]) ∧
              entryFiles tree excludes target_path names name = files tree excludes target_path (names ++ [name]) :=
            entry_of_enters hkept ⟨hexists, hlink, hdir⟩
          rw [hadds.1, hadds.2]
          rw [← below_concat] at h
          exact hdescend log log' h
        · rename_i hdir
          have hcopies : Copies (tree.lstat (child (below tree.root names) name)) :=
            ⟨hexists, hlink, Bool.eq_false_iff.2 hdir⟩
          have hnd : entryDirs tree excludes names name = ∅ := entryDirs_of_not_enters fun he => hdir he.2.2
          rw [hnd, entryFiles_of_copies hkept hcopies, Set.union_empty]
          rw [← below_concat] at h
          split at h
          · obtain rfl := Except.ok.inj h
            refine ⟨rfl, Set.ext fun file => ?_⟩
            show file ∈ log.copied ++ (log.skipped ++ [_]) ↔ file ∈ log.copied ++ log.skipped ∨ file = _
            rw [← List.append_assoc, List.mem_append, List.mem_singleton]
          · obtain rfl := Except.ok.inj h
            refine ⟨rfl, Set.ext fun file => ?_⟩
            show file ∈ (log.copied ++ [_]) ++ log.skipped ↔ file ∈ log.copied ++ log.skipped ∨ file = _
            rw [List.mem_append, List.mem_append, List.mem_append, List.mem_singleton, or_right_comm]

/-- A relay that finishes lists the directories of the tree, and copies or skips its files. -/
lemma relayDir_collects {n : ℕ} {log log' : RelayLog}
    (h : relayDir tree excludes target_lstat n (below tree.root names) (below target_path names) log = .ok log') :
    log'.dirSet = log.dirSet ∪ dirs tree excludes names ∧
      log'.fileSet = log.fileSet ∪ files tree excludes target_path names := by
  induction n generalizing names log log' with
  | zero => cases h
  | succ n ih =>
    unfold relayDir at h
    split at h
    · cases h
    · rename_i entries hlist
      have hround : ∀ s s' name, name ∈ entries → relayEntry tree excludes target_lstat
          (relayDir tree excludes target_lstat n) (below tree.root names) (below target_path names) s name = .ok s' → _ :=
        fun s s' name _ hname => relayEntry_collects (fun log log' => ih) hname
      have hdirs := foldlM_collects (S := RelayLog.dirSet) (fun s s' a ha hs => (hround s s' a ha hs).1) h
      have hfiles := foldlM_collects (S := RelayLog.fileSet) (fun s s' a ha hs => (hround s s' a ha hs).2) h
      rw [dirs_eq hlist, files_eq hlist, hdirs, hfiles, ← Set.union_assoc]
      refine ⟨congrArg (· ∪ _) (Set.ext fun dir => ?_), rfl⟩
      show dir ∈ log.listed ++ [_] ↔ dir ∈ log.listed ∨ dir = _
      rw [List.mem_append, List.mem_singleton]

/-- In a tree that can be listed the relay finishes, given steps enough. -/
lemma relayDir_finishes {source_dir : Text} (h : Finite tree.lstat tree.listdir source_dir) :
    ∀ᶠ n in Filter.atTop, ∀ target_dir log, ∃ log',
      relayDir tree excludes target_lstat n source_dir target_dir log = .ok log' := by
  induction h with
  | @intro dir entries hlist _ ih =>
    have hall : ∀ᶠ n in Filter.atTop, ∀ name ∈ {name | name ∈ entries}, kept excludes name = true →
        Enters (tree.lstat (child dir name)) → ∀ target_dir log, ∃ log',
          relayDir tree excludes target_lstat n (child dir name) target_dir log = .ok log' := by
      rw [Filter.eventually_all_finite (List.finite_toSet entries)]
      intro name hmem
      by_cases hgo : kept excludes name = true ∧ Enters (tree.lstat (child dir name))
      · have hdots : name ≠ ['.'] ∧ name ≠ ['.', '.'] := by
          refine ⟨fun h => ?_, fun h => ?_⟩
          · exact Bool.false_ne_true ((by simp [kept, h] : kept excludes name = false).symm.trans hgo.1)
          · exact Bool.false_ne_true ((by simp [kept, h] : kept excludes name = false).symm.trans hgo.1)
        exact (ih name hmem hdots.1 hdots.2 hgo.2).mono fun n hn _ _ => hn
      · exact Filter.Eventually.of_forall fun n hk he => absurd ⟨hk, he⟩ hgo
    have hsucc := (Filter.tendsto_sub_atTop_nat 1).eventually hall
    filter_upwards [hsucc, Filter.eventually_ge_atTop 1] with n hn hpos target_dir log
    obtain ⟨m, rfl⟩ := Nat.exists_eq_add_of_le' hpos
    rw [Nat.add_sub_cancel] at hn
    unfold relayDir
    rw [hlist]
    refine foldlM_ok (fun log name hmem => ?_) _
    unfold relayEntry
    dsimp only
    split
    · exact ⟨_, rfl⟩
    · rename_i hkept
      split
      · exact ⟨_, rfl⟩
      · rename_i hexists
        split
        · split
          · exact ⟨_, rfl⟩
          · exact ⟨_, rfl⟩
        · rename_i hlink
          split
          · rename_i hdir
            exact hn name hmem (by simpa using hkept) ⟨by simpa using hexists, Bool.eq_false_iff.2 hlink, hdir⟩ _ _
          · split
            · exact ⟨_, rfl⟩
            · exact ⟨_, rfl⟩

end SshGpuConsole.TreeWalks
