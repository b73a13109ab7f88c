import SshGpuConsole.Transfer.TreeWalks

/-!
# The verifier goes the relay's way

Both walks meet the same entries of the same directories; they differ at a link that leads somewhere, which the relay
leaves alone and the verifier follows (`sameWalk_iff`). The stack of the verifier is taken apart by what lies on it
(`Walked`), and the tree by its directories.
-/

namespace SshGpuConsole.TreeWalks
open Shell (Text)
open LocalRelay PosixPath Ssh

variable {tree : SourceTree} {excludes : List Text} {cwd : Cwd} {target_path : Text}
  {target_lstat target_stat : Text → FileStat} {names : List Text} {name : Text}

/-! ### The verifier's walk -/

/-- The path that mirrors an entry, as the verifier writes it. -/
lemma mirrored (hnames : ∀ n ∈ names, Name n) (hname : Name name) :
    rstripSlash target_path ++ '/' :: relpath cwd.path (child (below tree.root names) name) tree.root =
      below target_path (names ++ [name]) := by
  have hall : ∀ n ∈ names ++ [name], Name n := by
    intro n hn
    rcases List.mem_append.1 hn with hn | hn
    · exact hnames n hn
    · rw [List.mem_singleton.1 hn]
      exact hname
  have hne : names ++ [name] ≠ [] := fun h => List.cons_ne_nil _ _ (List.append_eq_nil_iff.1 h).2
  rw [← below_concat, relpath_below cwd.rooted tree.root_ne hall hne, below_eq hall hne]

instance (s : FileStat) : Decidable (Enters s) := inferInstanceAs (Decidable (_ ∧ _ ∧ _))
instance (s : FileStat) : Decidable (Copies s) := inferInstanceAs (Decidable (_ ∧ _ ∧ _))

/-- What the stack has under it, when links lead nowhere: for so many directories more the verifier works on the
paths alone, and either meets a file that does not pass or has gone over everything. -/
def Walked (tree : SourceTree) (excludes : List Text) (cwd : Cwd) (target_path : Text) (target_stat : Text → FileStat)
    (paths : List Text) (ds : Set Text) (fs : Set (Text × Text)) : Prop :=
  ∃ m, ∀ k rest log,
    (∃ t log', firstMissing tree excludes cwd.path target_path target_stat (m + k) (paths ++ rest) log =
        some (.missing t, log') ∧ (∀ dir ∈ log'.listed, dir ∈ log.listed ∨ dir ∈ ds) ∧
        (∀ file ∈ log'.checked, file ∈ log.checked ∨ file ∈ fs) ∧ ∃ file ∈ fs, ¬Passes tree target_stat file) ∨
    ∃ log', firstMissing tree excludes cwd.path target_path target_stat (m + k) (paths ++ rest) log =
        firstMissing tree excludes cwd.path target_path target_stat k rest log' ∧
        (∀ dir, dir ∈ log'.listed ↔ dir ∈ log.listed ∨ dir ∈ ds) ∧
        ∀ file, file ∈ log'.checked ↔ file ∈ log.checked ∨ file ∈ fs

lemma Walked.nil : Walked tree excludes cwd target_path target_stat [] ∅ ∅ := by
  refine ⟨0, fun k rest log => .inr ⟨log, ?_, fun dir => (or_iff_left id).symm, fun file => (or_iff_left id).symm⟩⟩
  rw [Nat.zero_add, List.nil_append]

lemma Walked.append {ps qs : List Text} {ds ds' : Set Text} {fs fs' : Set (Text × Text)}
    (h : Walked tree excludes cwd target_path target_stat ps ds fs)
    (h' : Walked tree excludes cwd target_path target_stat qs ds' fs') :
    Walked tree excludes cwd target_path target_stat (ps ++ qs) (ds ∪ ds') (fs ∪ fs') := by
  obtain ⟨m, hm⟩ := h
  obtain ⟨n, hn⟩ := h'
  refine ⟨m + n, fun k rest log => ?_⟩
  rw [Nat.add_assoc, List.append_assoc]
  rcases hm (n + k) (qs ++ rest) log with ⟨t, log', hrun, hdirs, hfiles, file, hfile, hfails⟩ | ⟨log', hrun, hdirs, hfiles⟩
  · exact .inl ⟨t, log', hrun, fun d hd => (hdirs d hd).imp id .inl, fun f hf => (hfiles f hf).imp id .inl, file,
      .inl hfile, hfails⟩
  · rw [hrun]
    rcases hn k rest log' with ⟨t, log'', hrun', hdirs', hfiles', file, hfile, hfails⟩ | ⟨log'', hrun', hdirs', hfiles'⟩
    · refine .inl ⟨t, log'', hrun', fun d hd => ?_, fun f hf => ?_, file, .inr hfile, hfails⟩
      · rcases hdirs' d hd with hd | hd
        · exact ((hdirs d).1 hd).imp id .inl
        · exact .inr (.inr hd)
      · rcases hfiles' f hf with hf | hf
        · exact ((hfiles f).1 hf).imp id .inl
        · exact .inr (.inr hf)
    · refine .inr ⟨log'', hrun', fun d => ?_, fun f => ?_⟩
      · rw [hdirs' d, hdirs d, or_assoc]
        rfl
      · rw [hfiles' f, hfiles f, or_assoc]
        rfl

/-- The entries of a directory that are pushed. -/
def pushed (tree : SourceTree) (excludes : List Text) (dir : Text) (entries : List Text) : List Text :=
  entries.filter fun name => kept excludes name && decide (Enters (tree.lstat (child dir name)))

variable (cwd target_path target_stat) in
/-- One round of the verifier's loop, at an entry that is no link to anything. -/
lemma verifyEntry_spec (hnames : ∀ n ∈ names, Name n) (hname : kept excludes name = true → Name name)
    (hlink : kept excludes name = true → (tree.lstat (child (below tree.root names) name)).is_symlink = true →
      (tree.stat (child (below tree.root names) name)).exists_ = false) (stack : List Text) (log : VerifyLog) :
    verifyEntry tree excludes cwd.path target_path target_stat (below tree.root names) (stack, log) name =
      if kept excludes name = true ∧ Enters (tree.lstat (child (below tree.root names) name)) then
        .ok (child (below tree.root names) name :: stack, log)
      else if kept excludes name = true ∧ Copies (tree.lstat (child (below tree.root names) name)) then
        let file := (below tree.root (names ++ [name]), below target_path (names ++ [name]))
        let log' := { log with checked := log.checked ++ [file] }
        if (target_stat file.2).exists_ = true ∧ (target_stat file.2).size_b = (tree.stat file.1).size_b then
          .ok (stack, log')
        else .error (file.2, log')
      else .ok (stack, log) := by
  unfold verifyEntry
  dsimp only
  by_cases hkept : kept excludes name = true
  · rw [hkept]
    simp only [Bool.not_true, Bool.false_eq_true, if_false, true_and]
    by_cases hl : (tree.lstat (child (below tree.root names) name)).is_symlink = true
    · have henters : ¬Enters (tree.lstat (child (below tree.root names) name)) :=
        fun h => Bool.false_ne_true (h.2.1.symm.trans hl)
      have hcopies : ¬Copies (tree.lstat (child (below tree.root names) name)) :=
        fun h => Bool.false_ne_true (h.2.1.symm.trans hl)
      rw [hlink hkept hl, if_pos Bool.not_false, if_neg henters, if_neg hcopies]
    · have hl := Bool.eq_false_iff.2 hl
      rw [tree.follows _ hl, mirrored hnames (hname hkept), below_concat tree.root, tree.follows _ hl]
      by_cases hexists : (tree.lstat (child (below tree.root names) name)).exists_ = true
      · rw [if_neg (by rw [hexists]; exact Bool.false_ne_true)]
        by_cases hdir : (tree.lstat (child (below tree.root names) name)).is_dir = true
        · have henters : Enters (tree.lstat (child (below tree.root names) name)) := ⟨hexists, hl, hdir⟩
          rw [if_pos hdir, if_pos henters]
        · have henters : ¬Enters (tree.lstat (child (below tree.root names) name)) := fun h => hdir h.2.2
          have hcopies : Copies (tree.lstat (child (below tree.root names) name)) :=
            ⟨hexists, hl, Bool.eq_false_iff.2 hdir⟩
          rw [if_neg hdir, if_neg henters, if_pos hcopies]
          by_cases hpass : (target_stat (below target_path (names ++ [name]))).exists_ = true ∧
              (target_stat (below target_path (names ++ [name]))).size_b =
                (tree.lstat (child (below tree.root names) name)).size_b
          · rw [if_pos hpass, if_neg (by simp [hpass])]
          · rw [if_neg hpass, if_pos (by simpa [imp_iff_not_or] using hpass)]
      · have henters : ¬Enters (tree.lstat (child (below tree.root names) name)) := fun h => hexists h.1
        have hcopies : ¬Copies (tree.lstat (child (below tree.root names) name)) := fun h => hexists h.1
        rw [if_pos (by simpa using hexists), if_neg henters, if_neg hcopies]
  · have hkept := Bool.eq_false_iff.2 hkept
    rw [hkept]
    simp

/-- The files among some entries of a directory. -/
def filesHere (tree : SourceTree) (excludes : List Text) (target_path : Text) (names entries : List Text) :
    Set (Text × Text) :=
  {file | ∃ name ∈ entries, kept excludes name = true ∧ Copies (tree.lstat (child (below tree.root names) name)) ∧
    file = (below tree.root (names ++ [name]), below target_path (names ++ [name]))}

variable (cwd target_path target_stat) in
/-- The verifier's loop over entries of a directory: it stops at a file that does not pass, or it has pushed the
directories and checked the files. -/
lemma verifyEntries_spec (hd : Dangling tree excludes) (hunder : DirUnder tree excludes [] names) {entries es : List Text}
    (hlist : tree.listdir (below tree.root names) = some entries) (hes : ∀ name ∈ es, name ∈ entries)
    (stack : List Text) (log : VerifyLog) :
    (∃ t log', es.foldlM (verifyEntry tree excludes cwd.path target_path target_stat (below tree.root names))
        (stack, log) = .error (t, log') ∧ log'.listed = log.listed ∧
        (∀ file ∈ log'.checked, file ∈ log.checked ∨ file ∈ filesHere tree excludes target_path names es) ∧
        ∃ file ∈ filesHere tree excludes target_path names es, ¬Passes tree target_stat file) ∨
    ∃ log', es.foldlM (verifyEntry tree excludes cwd.path target_path target_stat (below tree.root names))
        (stack, log) =
        .ok ((pushed tree excludes (below tree.root names) es).reverse.map (child (below tree.root names)) ++ stack,
          log') ∧ log'.listed = log.listed ∧
        ∀ file, file ∈ log'.checked ↔ file ∈ log.checked ∨ file ∈ filesHere tree excludes target_path names es := by
  have hnames : ∀ n ∈ names, Name n := hunder.are_names fun n hn => absurd hn List.not_mem_nil
  induction es generalizing stack log with
  | nil =>
    refine .inr ⟨log, rfl, rfl, fun file => (or_iff_left ?_).symm⟩
    rintro ⟨name, hname, -⟩
    exact List.not_mem_nil hname
  | cons name es ih =>
    have ih := ih fun n hn => hes n (List.mem_cons_of_mem _ hn)
    have hentry : kept excludes name = true → Entry tree excludes names name :=
      fun hkept => ⟨entries, hlist, hes name List.mem_cons_self, hkept⟩
    have hround := verifyEntry_spec cwd target_path target_stat hnames
      (fun hkept => (hentry hkept).is_name) (fun hkept => hd names name hunder (hentry hkept)) stack log
    have hmore : ∀ file, file ∈ filesHere tree excludes target_path names es →
        file ∈ filesHere tree excludes target_path names (name :: es) :=
      fun file ⟨n, hn, hfile⟩ => ⟨n, List.mem_cons_of_mem _ hn, hfile⟩
    rw [List.foldlM_cons, hround]
    by_cases henters : kept excludes name = true ∧ Enters (tree.lstat (child (below tree.root names) name))
    · -- a directory: it goes on the stack
      rw [if_pos henters]
      have hskip : ∀ file, file ∈ filesHere tree excludes target_path names (name :: es) →
          file ∈ filesHere tree excludes target_path names es := by
        rintro file ⟨n, hn, hkept, hcopies, rfl⟩
        rcases List.mem_cons.1 hn with rfl | hn
        · exact absurd (hcopies.2.2.symm.trans henters.2.2.2) Bool.false_ne_true
        · exact ⟨n, hn, hkept, hcopies, rfl⟩
      have hpushed : pushed tree excludes (below tree.root names) (name :: es) =
          name :: pushed tree excludes (below tree.root names) es :=
        List.filter_cons_of_pos (by rw [henters.1, decide_eq_true henters.2]; rfl)
      rcases ih (child (below tree.root names) name :: stack) log with ⟨t, log', hfold, hl, hc, f, hf, hfails⟩ |
        ⟨log', hfold, hl, hc⟩
      · exact .inl ⟨t, log', hfold, hl, fun f hf => (hc f hf).imp id (hmore f), f, hmore f hf, hfails⟩
      · refine .inr ⟨log', hfold.trans ?_, hl, fun f => (hc f).trans (or_congr Iff.rfl ⟨hmore f, hskip f⟩)⟩
        rw [hpushed, List.reverse_cons, List.map_append, List.append_assoc]
        rfl
    · rw [if_neg henters]
      have hpushed : pushed tree excludes (below tree.root names) (name :: es) =
          pushed tree excludes (below tree.root names) es :=
        List.filter_cons_of_neg (by simpa using henters)
      rw [hpushed]
      by_cases hcopies : kept excludes name = true ∧ Copies (tree.lstat (child (below tree.root names) name))
      · -- a file: it is compared
        rw [if_pos hcopies]
        have hhere : (below tree.root (names ++ [name]), below target_path (names ++ [name])) ∈
            filesHere tree excludes target_path names (name :: es) :=
          ⟨name, List.mem_cons_self, hcopies.1, hcopies.2, rfl⟩
        dsimp only
        split
        · rcases ih stack { log with checked := log.checked ++
            [(below tree.root (names ++ [name]), below target_path (names ++ [name]))] } with
            ⟨t, log', hfold, hl, hc, f, hf, hfails⟩ | ⟨log', hfold, hl, hc⟩
          · refine .inl ⟨t, log', hfold, hl, fun f hf => ?_, f, hmore f hf, hfails⟩
            rcases hc f hf with hf | hf
            · rcases List.mem_append.1 hf with hf | hf
              · exact .inl hf
              · rw [List.mem_singleton.1 hf]
                exact .inr hhere
            · exact .inr (hmore f hf)
          · refine .inr ⟨log', hfold, hl, fun f => (hc f).trans ?_⟩
            rw [List.mem_append, List.mem_singleton, or_assoc]
            refine or_congr Iff.rfl ⟨?_, ?_⟩
            · rintro (rfl | hf)
              · exact hhere
              · exact hmore f hf
            · rintro ⟨n, hn, hkept, hc, rfl⟩
              rcases List.mem_cons.1 hn with rfl | hn
              · exact .inl rfl
              · exact .inr ⟨n, hn, hkept, hc, rfl⟩
        · rename_i hfails
          refine .inl ⟨_, _, rfl, rfl, fun f hf => ?_, _, hhere, hfails⟩
          rcases List.mem_append.1 hf with hf | hf
          · exact .inl hf
          · rw [List.mem_singleton.1 hf]
            exact .inr hhere
      · rw [if_neg hcopies]
        have hskip : ∀ file, file ∈ filesHere tree excludes target_path names (name :: es) →
            file ∈ filesHere tree excludes target_path names es := by
          rintro file ⟨n, hn, hkept, hc, rfl⟩
          rcases List.mem_cons.1 hn with rfl | hn
          · exact absurd ⟨hkept, hc⟩ hcopies
          · exact ⟨n, hn, hkept, hc, rfl⟩
        rcases ih stack log with ⟨t, log', hfold, hl, hc, f, hf, hfails⟩ | ⟨log', hfold, hl, hc⟩
        · exact .inl ⟨t, log', hfold, hl, fun f hf => (hc f hf).imp id (hmore f), f, hmore f hf, hfails⟩
        · exact .inr ⟨log', hfold, hl, fun f => (hc f).trans (or_congr Iff.rfl ⟨hmore f, hskip f⟩)⟩

/-- A directory is walked when what it pushes is. -/
lemma Walked.dir (hd : Dangling tree excludes) (hunder : DirUnder tree excludes [] names) {entries : List Text}
    (hlist : tree.listdir (below tree.root names) = some entries) {ds : Set Text} {fs : Set (Text × Text)}
    (h : Walked tree excludes cwd target_path target_stat
      ((pushed tree excludes (below tree.root names) entries).reverse.map (child (below tree.root names))) ds fs) :
    Walked tree excludes cwd target_path target_stat [below tree.root names] ({below tree.root names} ∪ ds)
      (filesHere tree excludes target_path names entries ∪ fs) := by
  obtain ⟨m, hm⟩ := h
  refine ⟨m + 1, fun k rest log => ?_⟩
  rw [Nat.succ_add, List.singleton_append, firstMissing_cons _ log hlist]
  rcases verifyEntries_spec cwd target_path target_stat hd hunder hlist
    (fun _ hn => hn) rest { log with listed := log.listed ++ [below tree.root names] } with
    ⟨t, log', hfold, hl, hc, f, hf, hfails⟩ | ⟨log', hfold, hl, hc⟩
  · rw [hfold]
    refine .inl ⟨t, log', rfl, fun d hdir => ?_, fun f hf => (hc f hf).imp id .inl, f, .inl hf, hfails⟩
    rw [hl] at hdir
    rcases List.mem_append.1 hdir with hdir | hdir
    · exact .inl hdir
    · exact .inr (.inl (List.mem_singleton.1 hdir))
  · rw [hfold]
    have hlisted : ∀ d, d ∈ log'.listed ↔ d ∈ log.listed ∨ d = below tree.root names := by
      intro d
      rw [hl, List.mem_append, List.mem_singleton]
    rcases hm k rest log' with ⟨t, log'', hrun, hdirs, hfiles, f, hf, hfails⟩ | ⟨log'', hrun, hdirs, hfiles⟩
    · refine .inl ⟨t, log'', hrun, fun d hdir => ?_, fun f hfile => ?_, f, .inr hf, hfails⟩
      · rcases hdirs d hdir with hdir | hdir
        · exact ((hlisted d).1 hdir).imp id .inl
        · exact .inr (.inr hdir)
      · rcases hfiles f hfile with hfile | hfile
        · exact ((hc f).1 hfile).imp id .inl
        · exact .inr (.inr hfile)
    · refine .inr ⟨log'', hrun, fun d => ?_, fun f => ?_⟩
      · rw [hdirs d, hlisted d, or_assoc]
        rfl
      · rw [hfiles f, hc f, or_assoc]
        rfl

/-- Directories are walked one after the other. -/
lemma walked_children {l : List Text}
    (h : ∀ name ∈ l, Walked tree excludes cwd target_path target_stat [child (below tree.root names) name]
      (dirs tree excludes (names ++ [name])) (files tree excludes target_path (names ++ [name]))) :
    Walked tree excludes cwd target_path target_stat (l.map (child (below tree.root names)))
      {dir | ∃ name ∈ l, dir ∈ dirs tree excludes (names ++ [name])}
      {file | ∃ name ∈ l, file ∈ files tree excludes target_path (names ++ [name])} := by
  induction l with
  | nil =>
    have hd : {dir | ∃ name ∈ ([] : List Text), dir ∈ dirs tree excludes (names ++ [name])} = ∅ :=
      Set.eq_empty_iff_forall_notMem.2 fun _ ⟨_, hn, _⟩ => List.not_mem_nil hn
    have hf : {file | ∃ name ∈ ([] : List Text), file ∈ files tree excludes target_path (names ++ [name])} = ∅ :=
      Set.eq_empty_iff_forall_notMem.2 fun _ ⟨_, hn, _⟩ => List.not_mem_nil hn
    rw [hd, hf]
    exact .nil
  | cons name l ih =>
    have hboth := (h name List.mem_cons_self).append (ih fun n hn => h n (List.mem_cons_of_mem _ hn))
    have hd : dirs tree excludes (names ++ [name]) ∪ {dir | ∃ name ∈ l, dir ∈ dirs tree excludes (names ++ [name])} =
        {dir | ∃ n ∈ name :: l, dir ∈ dirs tree excludes (names ++ [n])} := by
      ext dir
      simp
    have hf : files tree excludes target_path (names ++ [name]) ∪
          {file | ∃ name ∈ l, file ∈ files tree excludes target_path (names ++ [name])} =
        {file | ∃ n ∈ name :: l, file ∈ files tree excludes target_path (names ++ [n])} := by
      ext file
      simp
    rw [hd, hf] at hboth
    exact hboth

/-- Where links lead nowhere, the verifier goes over each directory of the tree and each of its files. -/
lemma walked_tree (hd : Dangling tree excludes) {dir : Text} (hfin : Finite tree.lstat tree.listdir dir)
    (hdir : dir = below tree.root names) (hunder : DirUnder tree excludes [] names) :
    Walked tree excludes cwd target_path target_stat [dir] (dirs tree excludes names)
      (files tree excludes target_path names) := by
  induction hfin generalizing names with
  | @intro dir entries hlist _ ih =>
    subst hdir
    have hmem : ∀ name, name ∈ (pushed tree excludes (below tree.root names) entries).reverse ↔ name ∈ entries ∧
        kept excludes name = true ∧ Enters (tree.lstat (child (below tree.root names) name)) := by
      intro name
      rw [List.mem_reverse, pushed, List.mem_filter, Bool.and_eq_true, decide_eq_true_eq]
    have hchildren : Walked tree excludes cwd target_path target_stat
        ((pushed tree excludes (below tree.root names) entries).reverse.map (child (below tree.root names))) _ _ :=
      walked_children fun name hname => by
        obtain ⟨hentries, hkept, henters⟩ := (hmem name).1 hname
        have hentry : Entry tree excludes names name := ⟨entries, hlist, hentries, hkept⟩
        exact ih name hentries hentry.is_name.1.2.1 hentry.is_name.2 henters (below_concat _ _ _).symm
          (hunder.trans (.inside hentry henters .here))
    have hwalked := Walked.dir hd hunder hlist hchildren
    have hdirs : {below tree.root names} ∪ {dir | ∃ name ∈ (pushed tree excludes (below tree.root names) entries).reverse,
        dir ∈ dirs tree excludes (names ++ [name])} = dirs tree excludes names := by
      rw [dirs_eq hlist]
      refine congrArg _ (Set.ext fun d => ⟨?_, ?_⟩)
      · rintro ⟨name, hname, hd⟩
        obtain ⟨hentries, hkept, henters⟩ := (hmem name).1 hname
        exact ⟨name, hentries, hkept, henters, hd⟩
      · rintro ⟨name, hentries, hkept, henters, hd⟩
        exact ⟨name, (hmem name).2 ⟨hentries, hkept, henters⟩, hd⟩
    have hfiles : filesHere tree excludes target_path names entries ∪
        {file | ∃ name ∈ (pushed tree excludes (below tree.root names) entries).reverse,
          file ∈ files tree excludes target_path (names ++ [name])} = files tree excludes target_path names := by
      rw [files_eq hlist]
      refine Set.ext fun f => ⟨?_, ?_⟩
      · rintro (⟨name, hentries, hkept, hcopies, rfl⟩ | ⟨name, hname, hf⟩)
        · exact ⟨name, hentries, hkept, .inl ⟨hcopies, rfl⟩⟩
        · obtain ⟨hentries, hkept, henters⟩ := (hmem name).1 hname
          exact ⟨name, hentries, hkept, .inr ⟨henters, hf⟩⟩
      · rintro ⟨name, hentries, hkept, ⟨hcopies, rfl⟩ | ⟨henters, hf⟩⟩
        · exact .inl ⟨name, hentries, hkept, hcopies, rfl⟩
        · exact .inr ⟨name, (hmem name).2 ⟨hentries, hkept, henters⟩, hf⟩
    rw [hdirs, hfiles] at hwalked
    exact hwalked

/-- Where links lead nowhere, both walks are one. -/
lemma sameWalk_of_dangling (hd : Dangling tree excludes) : SameWalk tree excludes cwd target_path := by
  have hwalked : ∀ target_stat, Walked tree excludes cwd target_path target_stat [tree.root] (dirs tree excludes [])
      (files tree excludes target_path []) := fun _ => walked_tree hd tree.finite rfl .here
  constructor
  · intro target_stat
    obtain ⟨m, hm⟩ := hwalked target_stat
    rcases hm 0 [] {} with ⟨t, log, hrun, hdirs, hfiles, -⟩ | ⟨log, hrun, hdirs, hfiles⟩
    · exact ⟨_, _, _, hrun, fun d h => (hdirs d h).resolve_left List.not_mem_nil,
        fun f h => (hfiles f h).resolve_left List.not_mem_nil⟩
    · refine ⟨_, _, log, hrun.trans (by unfold firstMissing; rfl), fun d h => ((hdirs d).1 h).resolve_left List.not_mem_nil,
        fun f h => ((hfiles f).1 h).resolve_left List.not_mem_nil⟩
  · intro target_lstat depth relayed hrelay target_stat hpass
    obtain ⟨hdirSet, hfileSet⟩ := @relayDir_collects _ _ _ _ [] _ _ _ hrelay
    have hrelayDirs : ∀ d, d ∈ relayed.listed ↔ d ∈ dirs tree excludes [] := by
      intro d
      exact (Set.ext_iff.1 hdirSet d).trans (or_iff_right List.not_mem_nil)
    have hrelayFiles : ∀ f, f ∈ relayed.files ↔ f ∈ files tree excludes target_path [] := by
      intro f
      exact (Set.ext_iff.1 hfileSet f).trans (or_iff_right List.not_mem_nil)
    obtain ⟨m, hm⟩ := hwalked target_stat
    rcases hm 0 [] {} with ⟨t, log, -, -, -, f, hf, hfails⟩ | ⟨log, hrun, hdirs, hfiles⟩
    · exact absurd (hpass f ((hrelayFiles f).2 hf)) hfails
    · refine ⟨_, log, hrun.trans (by unfold firstMissing; rfl), fun f => ?_, fun d => ?_⟩
      · rw [hfiles f, hrelayFiles f]
        exact or_iff_right List.not_mem_nil
      · rw [hdirs d, hrelayDirs d]
        exact or_iff_right List.not_mem_nil

/-! ### What a verifier that misses nothing has seen -/

/-- What the entries of the listed directories lead to was listed, or checked, or waits on the stack. -/
def Closed (tree : SourceTree) (excludes : List Text) (stack : List Text) (log : VerifyLog) : Prop :=
  ∀ dir ∈ log.listed, ∀ entries, tree.listdir dir = some entries → ∀ name ∈ entries, kept excludes name = true →
    (tree.stat (child dir name)).exists_ = true →
    child dir name ∈ log.listed ∨ child dir name ∈ stack ∨ ∃ t, (child dir name, t) ∈ log.checked

lemma verifyEntries_seen {dir : Text} {es stack stack' : List Text} {log log' : VerifyLog}
    (h : es.foldlM (verifyEntry tree excludes cwd.path target_path target_stat dir) (stack, log) = .ok (stack', log')) :
    log'.listed = log.listed ∧ (∀ path ∈ stack, path ∈ stack') ∧ (∀ file ∈ log.checked, file ∈ log'.checked) ∧
      ∀ name ∈ es, kept excludes name = true → (tree.stat (child dir name)).exists_ = true →
        child dir name ∈ stack' ∨ ∃ t, (child dir name, t) ∈ log'.checked := by
  induction es generalizing stack log with
  | nil =>
    rw [List.foldlM_nil] at h
    cases h
    exact ⟨rfl, fun _ h => h, fun _ h => h, fun name hn => absurd hn List.not_mem_nil⟩
  | cons name es ih =>
    rw [List.foldlM_cons] at h
    -- what one round leaves
    have hround : ∀ stack₁ log₁, verifyEntry tree excludes cwd.path target_path target_stat dir (stack, log) name =
        .ok (stack₁, log₁) → log₁.listed = log.listed ∧ (∀ path ∈ stack, path ∈ stack₁) ∧
        (∀ file ∈ log.checked, file ∈ log₁.checked) ∧ (kept excludes name = true →
          (tree.stat (child dir name)).exists_ = true →
          child dir name ∈ stack₁ ∨ ∃ t, (child dir name, t) ∈ log₁.checked) := by
      intro stack₁ log₁ hok
      unfold verifyEntry at hok
      dsimp only at hok
      split at hok
      · rename_i hkept
        cases hok
        exact ⟨rfl, fun _ h => h, fun _ h => h, fun hk => by simp [hk] at hkept⟩
      · split at hok
        · rename_i hexists
          cases hok
          exact ⟨rfl, fun _ h => h, fun _ h => h, fun _ he => by simp [he] at hexists⟩
        · split at hok
          · cases hok
            exact ⟨rfl, fun _ h => List.mem_cons_of_mem _ h, fun _ h => h, fun _ _ => .inl List.mem_cons_self⟩
          · split at hok
            · cases hok
            · cases hok
              exact ⟨rfl, fun _ h => h, fun _ h => List.mem_append_left _ h,
                fun _ _ => .inr ⟨_, List.mem_append_right _ (List.mem_singleton_self _)⟩⟩
    cases hv : verifyEntry tree excludes cwd.path target_path target_stat dir (stack, log) name with
    | error e =>
      rw [hv] at h
      cases h
    | ok walk =>
      obtain ⟨stack₁, log₁⟩ := walk
      rw [hv] at h
      obtain ⟨hl, hs, hc, hname⟩ := hround stack₁ log₁ hv
      obtain ⟨hl', hs', hc', hes⟩ := ih h
      refine ⟨hl'.trans hl, fun p hp => hs' p (hs p hp), fun f hf => hc' f (hc f hf), fun n hn hkept hexists => ?_⟩
      rcases List.mem_cons.1 hn with rfl | hn
      · rcases hname hkept hexists with hstack | ⟨t, hchecked⟩
        · exact .inl (hs' _ hstack)
        · exact .inr ⟨t, hc' _ hchecked⟩
      · exact hes n hn hkept hexists

/-- A verifier that misses nothing has seen what each entry leads to. -/
lemma closed_of_complete {n : ℕ} {stack : List Text} {log log' : VerifyLog}
    (h : firstMissing tree excludes cwd.path target_path target_stat n stack log = some (.complete, log'))
    (hclosed : Closed tree excludes stack log) : Closed tree excludes [] log' := by
  induction n generalizing stack log with
  | zero =>
    cases stack with
    | nil =>
      unfold firstMissing at h
      cases h
      exact hclosed
    | cons dir stack => cases h
  | succ n ih =>
    cases stack with
    | nil =>
      unfold firstMissing at h
      cases h
      exact hclosed
    | cons dir stack =>
      cases hlist : tree.listdir dir with
      | none =>
        rw [firstMissing, hlist] at h
        cases h
      | some entries =>
        rw [firstMissing_cons n log hlist] at h
        split at h
        · cases h
        · rename_i stack' log₁ hfold
          obtain ⟨hl, hs, hc, hseen⟩ := verifyEntries_seen hfold
          refine ih h fun q hq entries' hlist' name hname hkept hexists => ?_
          rw [hl] at hq ⊢
          rcases List.mem_append.1 hq with hq | hq
          · rcases hclosed q hq entries' hlist' name hname hkept hexists with hlisted | hstack | ⟨t, hchecked⟩
            · exact .inl (List.mem_append_left _ hlisted)
            · rcases List.mem_cons.1 hstack with heq | hstack
              · exact .inl (List.mem_append_right _ (List.mem_singleton.2 heq))
              · exact .inr (.inl (hs _ hstack))
            · exact .inr (.inr ⟨t, hc _ hchecked⟩)
          · rw [List.mem_singleton.1 hq] at hlist' hexists ⊢
            obtain rfl := Option.some.inj (hlist.symm.trans hlist')
            exact .inr (hseen name hname hkept hexists)

lemma fileUnder_spec {target : List Text} (h : FileUnder tree excludes names target) (hnames : ∀ n ∈ names, Name n) :
    (∀ n ∈ target, Name n) ∧ target ≠ [] ∧ Copies (tree.lstat (below tree.root target)) := by
  have hsnoc : ∀ {names : List Text} {name : Text}, (∀ n ∈ names, Name n) → Name name → ∀ n ∈ names ++ [name], Name n := by
    intro names name hnames hname n hn
    rcases List.mem_append.1 hn with hn | hn
    · exact hnames n hn
    · rw [List.mem_singleton.1 hn]
      exact hname
  induction h with
  | @here names name hentry hcopies =>
    refine ⟨hsnoc hnames hentry.is_name, fun h => List.cons_ne_nil _ _ (List.append_eq_nil_iff.1 h).2, ?_⟩
    rw [below_concat]
    exact hcopies
  | inside hentry _ _ ih => exact ih (hsnoc hnames hentry.is_name)

lemma dirUnder_enters {target : List Text} (h : DirUnder tree excludes names target) :
    target = names ∨ Enters (tree.lstat (below tree.root target)) := by
  induction h with
  | here => exact .inl rfl
  | @inside names name target hentry henters _ ih =>
    rcases ih with rfl | ih
    · rw [below_concat]
      exact .inr henters
    · exact .inr ih

/-- What is below a path is not at the path. -/
lemma below_ne {dir : Text} {names : List Text} (hnames : ∀ n ∈ names, Name n) (hne : names ≠ []) :
    below dir names ≠ dir := by
  intro h
  rw [below_eq hnames hne] at h
  obtain ⟨k, hk⟩ := rstripSlash_spec dir
  obtain ⟨front, comp, hcomp, heq⟩ := intercalate_ends (fun n hn => (hnames n hn).1) hne
  have hslashes := List.append_cancel_left (h.trans hk)
  rw [heq] at hslashes
  obtain ⟨c, rest, rfl⟩ := List.exists_cons_of_ne_nil hcomp.1
  have hc : c ∈ List.replicate k '/' :=
    hslashes ▸ List.mem_cons_of_mem _ (List.mem_append_right _ List.mem_cons_self)
  exact hcomp.2.2 (List.eq_of_mem_replicate hc ▸ List.mem_cons_self)

/-- Where both walks are one, links lead nowhere. -/
lemma dangling_of_sameWalk (h : SameWalk tree excludes cwd target_path) : Dangling tree excludes := by
  intro names name hunder hentry hlink
  by_contra hexists
  have hexists : (tree.stat (child (below tree.root names) name)).exists_ = true := by simpa using hexists
  have hnone : ∀ n ∈ ([] : List Text), Name n := fun n hn => absurd hn List.not_mem_nil
  -- the relay finishes, and the target has what it copied
  have hfinishes : ∀ᶠ n in Filter.atTop, ∀ target_dir log, ∃ log',
      relayDir tree excludes (fun _ => .missing) n tree.root target_dir log = .ok log' := relayDir_finishes tree.finite
  obtain ⟨depth, hdepth⟩ := hfinishes.exists
  obtain ⟨relayed, hrelay⟩ := hdepth target_path {}
  obtain ⟨hdirSet, hfileSet⟩ := @relayDir_collects _ _ _ _ [] _ _ _ hrelay
  have hrelayDirs : ∀ d, d ∈ relayed.listed ↔ d ∈ dirs tree excludes [] :=
    fun d => (Set.ext_iff.1 hdirSet d).trans (or_iff_right List.not_mem_nil)
  have hrelayFiles : ∀ f, f ∈ relayed.files ↔ f ∈ files tree excludes target_path [] :=
    fun f => (Set.ext_iff.1 hfileSet f).trans (or_iff_right List.not_mem_nil)
  have hpass : ∀ file ∈ relayed.files, Passes tree
      (fun t => tree.stat (rstripSlash tree.root ++ t.drop (rstripSlash target_path).length)) file := by
    intro file hfile
    obtain ⟨target, hunder, rfl⟩ := (hrelayFiles file).1 hfile
    obtain ⟨hnames, hne, hcopies⟩ := fileUnder_spec hunder hnone
    have hsame : rstripSlash tree.root ++ (below target_path target).drop (rstripSlash target_path).length =
        below tree.root target := by
      rw [below_eq hnames hne, below_eq hnames hne, List.drop_left]
    refine ⟨?_, ?_⟩
    · dsimp only
      rw [hsame, tree.follows _ hcopies.2.1]
      exact hcopies.1
    · dsimp only
      rw [hsame]
  -- the verifier has seen what the link leads to
  obtain ⟨n, log, hrun, hchecked, hlisted⟩ := h.agrees _ depth relayed hrelay _ hpass
  have hclosed := closed_of_complete hrun fun q hq => absurd hq List.not_mem_nil
  have hdir : below tree.root names ∈ log.listed :=
    (hlisted _).2 ((hrelayDirs _).2 ⟨names, hunder, rfl⟩)
  obtain ⟨entries, hlist, hname, hkept⟩ := hentry
  have hall : ∀ n ∈ names ++ [name], Name n := by
    intro n hn
    rcases List.mem_append.1 hn with hn | hn
    · exact hunder.are_names hnone n hn
    · rw [List.mem_singleton.1 hn]
      exact Entry.is_name ⟨entries, hlist, hname, hkept⟩
  rcases hclosed _ hdir entries hlist name hname hkept hexists with hin | hin | ⟨t, hin⟩
  · obtain ⟨target, htarget, heq⟩ := (hrelayDirs _).1 ((hlisted _).1 hin)
    rcases dirUnder_enters htarget with rfl | henters
    · rw [← below_concat] at heq
      exact below_ne hall (fun h => List.cons_ne_nil _ _ (List.append_eq_nil_iff.1 h).2) heq
    · rw [heq] at hlink
      exact Bool.false_ne_true (henters.2.1.symm.trans hlink)
  · exact List.not_mem_nil hin
  · obtain ⟨target, htarget, heq⟩ := (hrelayFiles _).1 ((hchecked _).1 hin)
    have hcopies := (fileUnder_spec htarget hnone).2.2
    rw [(Prod.mk.inj heq).1] at hlink
    exact Bool.false_ne_true (hcopies.2.1.symm.trans hlink)

/-- The verifier goes the relay's way exactly in the trees whose links lead nowhere. -/
theorem sameWalk_iff (tree : SourceTree) (excludes : List Text) (cwd : Cwd) (target_path : Text) :
    SameWalk tree excludes cwd target_path ↔ Dangling tree excludes :=
  ⟨dangling_of_sameWalk, sameWalk_of_dangling⟩

/-- What the server says of the paths of a tree with a file and a link to it. -/
def linkedStat (path : Text) : FileStat :=
  if path = "/s".toList then { exists_ := true, is_dir := true }
  else if path = "/s/a".toList then { exists_ := true, is_dir := false, size_b := 8 }
  else if path = "/s/latest".toList then { exists_ := true, is_dir := false, is_symlink := true }
  else .missing

/-- The directory `/s` with the file `a` and the link `latest` to it. -/
def linkedTree : SourceTree where
  root := "/s".toList
  stat path := linkedStat (if path = "/s/latest".toList then "/s/a".toList else path)
  lstat := linkedStat
  listdir path := if path = "/s".toList then some ["a".toList, "latest".toList] else none
  root_ne := by decide
  follows path h := by
    by_cases hlatest : path = "/s/latest".toList
    · rw [hlatest] at h
      exact absurd h (by decide +kernel)
    · rw [if_neg hlatest]
  names dir names h name hname := by
    split at h
    · obtain rfl := Option.some.inj h
      rcases List.mem_cons.1 hname with rfl | hname
      · decide
      · rw [List.mem_singleton.1 hname]
        decide
    · cases h
  finite := by
    have hlist : (if "/s".toList = "/s".toList then some ["a".toList, "latest".toList] else none) =
        some ["a".toList, "latest".toList] := if_pos rfl
    refine .intro hlist fun name hname _ _ henters => ?_
    rcases List.mem_cons.1 hname with rfl | hname
    · exact absurd henters (by decide +kernel)
    · rw [List.mem_singleton.1 hname] at henters
      exact absurd henters (by decide +kernel)

/-- The relay leaves the link alone, and the verifier misses what it leads to on the target. -/
theorem sameWalk_not :
    relayDir linkedTree [] (fun _ => .missing) 1 "/s".toList "/t".toList {} = .ok
      { made := ["/t".toList], listed := ["/s".toList], copied := [("/s/a".toList, "/t/a".toList)],
        warnings := ["skipped symlink: /s/latest".toList] } ∧
    firstMissing linkedTree [] "/".toList "/t".toList
        (fun path => if path = "/t/a".toList then { exists_ := true, is_dir := false, size_b := 8 } else .missing)
        1 ["/s".toList] {} =
      some (.missing "/t/latest".toList,
        ⟨["/s".toList], [("/s/a".toList, "/t/a".toList), ("/s/latest".toList, "/t/latest".toList)]⟩) ∧
    ¬SameWalk linkedTree [] ⟨"/".toList, rfl⟩ "/t".toList := by
  refine ⟨by decide +kernel, by decide +kernel, fun h => ?_⟩
  have hentry : Entry linkedTree [] [] "latest".toList :=
    ⟨["a".toList, "latest".toList], by decide +kernel, List.mem_cons_of_mem _ (List.mem_singleton_self _), by decide +kernel⟩
  have hexists := dangling_of_sameWalk h [] "latest".toList .here hentry (by decide +kernel)
  revert hexists
  decide +kernel

end SshGpuConsole.TreeWalks
