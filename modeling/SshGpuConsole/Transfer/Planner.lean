import SshGpuConsole.Workspace.Models

/-!
# The rsync command line

`build_rsync_command` and its helpers (`transfer/planner.py`), and what a POSIX shell makes of the
string they build. Everything but the exclude patterns passes `shlex.quote`; a pattern is pasted into
the command as it is, so the argument vector is the intended one exactly when the shell reads every
pattern as itself (`ShellInert`).
-/

namespace SshGpuConsole.Planner
open Shell PyText Workspace

/-- `DedicatedKeyOptions`: paths on the source server. -/
structure DedicatedKeyOptions where
  private_key_path : Text
  known_hosts_path : Text
  deriving DecidableEq, Repr

/-- The source spec: a directory source travels with a trailing slash. -/
def sourceSpec (source_path : Text) (source_is_dir : Bool) : Text :=
  if endsWith source_path '/' then source_path
  else if source_is_dir then source_path ++ "/".toList
  else source_path

/-- The value of the `-e` flag. -/
def sshOpts (target_port : Option Int) (dedicated_key : Option DedicatedKeyOptions) : Text :=
  let base := "ssh -o BatchMode=yes -o ConnectTimeout=8 -o StrictHostKeyChecking=yes".toList
  let identity := match dedicated_key with
    | none => []
    | some key => " -i ".toList ++ quote key.private_key_path ++ " -o IdentitiesOnly=yes".toList ++
        " -o UserKnownHostsFile=".toList ++ quote key.known_hosts_path
  let port := match target_port with
    | none | some 0 => []
    | some p => " -p ".toList ++ ofInt p
  base ++ identity ++ port

/-- `_exclude_args`. -/
def excludeArgs (excludes : List Text) : List Text :=
  excludes.filterMap fun pattern =>
    let value := strip pattern
    if !value.isEmpty && !value.any isControl then some ("--exclude=".toList ++ value) else none

/-- The fixed flags, up to and including `-e`. -/
def rsyncFlags : List Text :=
  ["rsync", "-r", "-l", "-t", "-p", "--safe-links", "--partial", "--partial-dir=.sgc-rsync-partial",
    "--info=progress2", "-e"].map String.toList

/-- `build_rsync_command`; `target_spec` comes quoted from `targetRsyncSpec`. -/
def buildRsyncCommand (source_path target_spec : Text) (target_port : Option Int)
    (excludes : List Text) (dedicated_key : Option DedicatedKeyOptions) (source_is_dir : Bool) : Text :=
  " ".toList.intercalate <|
    rsyncFlags ++ [quote (sshOpts target_port dedicated_key)] ++ excludeArgs excludes ++
      ["--".toList, quote (sourceSpec source_path source_is_dir), target_spec]

/-- The remote spec before quoting: `user@host:path`, an IPv6 host in brackets. -/
def remoteSpec (host : Text) (username : Option Text) (target_path : Text) : Text :=
  let host_part := if ':' ∈ host then "[".toList ++ host ++ "]".toList else host
  let user_part := match username with
    | none | some [] => []
    | some user => user ++ "@".toList
  user_part ++ host_part ++ ":".toList ++ target_path

/-- `target_rsync_spec`. -/
def targetRsyncSpec (host : Text) (username : Option Text) (target_path : Text) : Text :=
  quote (remoteSpec host username target_path)

/-! ### The intended argument vector -/

/-- The argument an exclude pattern is meant to become. -/
def excludeArg (pattern : Text) : Text := "--exclude=".toList ++ strip pattern

/-- The argument vector the command is meant to have. -/
def rsyncArgv (source_path host : Text) (username : Option Text) (target_path : Text)
    (target_port : Option Int) (excludes : List Text) (dedicated_key : Option DedicatedKeyOptions)
    (source_is_dir : Bool) : List Text :=
  rsyncFlags ++ [sshOpts target_port dedicated_key] ++ excludes.map excludeArg ++
    ["--".toList, sourceSpec source_path source_is_dir, remoteSpec host username target_path]

/-- A pattern the shell reads as itself: no active character in it, and as a pathname pattern it
matches nothing but itself. -/
def ShellInert (pattern : Text) : Prop :=
  Inert (strip pattern) ∧ NeverGlobs ((excludeArg pattern).map fun c => (false, c))

/-- An accepted pattern passes the filter of `_exclude_args`. -/
lemma excludeArgs_cons {p : Text} (ps : List Text) (hne : strip p ≠ [])
    (hctl : ∀ c ∈ strip p, isControl c = false) :
    excludeArgs (p :: ps) = excludeArg p :: excludeArgs ps := by
  have hany : (strip p).any isControl = false := by simpa using hctl
  have hemp : (strip p).isEmpty = false := by simpa using hne
  rw [excludeArgs, List.filterMap_cons]
  simp only [hany, hemp, Bool.not_false, Bool.and_self, if_true]
  rfl

/-- For accepted patterns the filter of `_exclude_args` drops nothing. -/
lemma excludeArgs_accepted {ps : List Text}
    (h : ∀ p ∈ ps, strip p ≠ [] ∧ ∀ c ∈ strip p, isControl c = false) :
    excludeArgs ps = ps.map excludeArg := by
  induction ps with
  | nil => rfl
  | cons p ps ih =>
    obtain ⟨hne, hctl⟩ := h p (by simp)
    rw [excludeArgs_cons ps hne hctl, ih fun q hq => h q (by simp [hq]), List.map_cons]

/-- An inert exclude argument is one bare word. -/
lemma reads_excludeArg {pattern : Text} (h : Inert (strip pattern)) :
    Reads (excludeArg pattern) (lits false (excludeArg pattern)) := by
  have hi : Inert (excludeArg pattern) := by
    intro c hc
    rcases List.mem_append.1 hc with hc | hc
    · exact (by decide : Inert "--exclude=".toList) c hc
    · exact h c hc
  exact Reads.bare (c := '-') (t := "-exclude=".toList ++ strip pattern) hi (by decide)

/-- The arguments in front of the exclude patterns. -/
def headArgs (target_port : Option Int) (dedicated_key : Option DedicatedKeyOptions) : List Arg :=
  rsyncFlags.map (fun t => ⟨t, lits false t, t⟩) ++
    [⟨quote (sshOpts target_port dedicated_key), quoteWord (sshOpts target_port dedicated_key),
      sshOpts target_port dedicated_key⟩]

/-- The exclude patterns, each meant to be one bare word. -/
def patternArgs (excludes : List Text) : List Arg :=
  excludes.map fun p => ⟨excludeArg p, lits false (excludeArg p), excludeArg p⟩

/-- The arguments behind the exclude patterns. -/
def tailArgs (source_spec remote_spec : Text) : List Arg :=
  [⟨"--".toList, lits false "--".toList, "--".toList⟩,
    ⟨quote source_spec, quoteWord source_spec, source_spec⟩,
    ⟨quote remote_spec, quoteWord remote_spec, remote_spec⟩]

/-- The arguments in front read as themselves. -/
lemma headArgs_good (port : Option Int) (key : Option DedicatedKeyOptions) (dir : List Text) :
    ∀ a ∈ headArgs port key, Reads a.source a.word ∧ fields dir a.word = some [a.value] := by
  intro a ha
  rcases List.mem_append.1 ha with ha | ha
  · obtain ⟨t, ht, rfl⟩ := List.mem_map.1 ha
    have hall : ∀ t ∈ rsyncFlags, Reads t (lits false t) ∧ fields dir (lits false t) = some [t] := by
      simp only [rsyncFlags, List.map_cons, List.map_nil, List.forall_mem_cons]
      refine ⟨?_, ?_, ?_, ?_, ?_, ?_, ?_, ?_, ?_, ?_, by simp⟩ <;>
        exact ⟨Reads.bare (by decide) (by decide), rfl⟩
    exact hall t ht
  · obtain rfl := List.mem_singleton.1 ha
    exact ⟨Reads.quote (sshOpts port key), fields_quoteWord dir (sshOpts port key)⟩

/-- The arguments behind read as themselves. -/
lemma tailArgs_good (source_spec remote_spec : Text) (dir : List Text) :
    ∀ a ∈ tailArgs source_spec remote_spec,
      Reads a.source a.word ∧ fields dir a.word = some [a.value] := by
  simp only [tailArgs, List.forall_mem_cons]
  exact ⟨⟨Reads.bare (by decide) (by decide), rfl⟩,
    ⟨Reads.quote source_spec, fields_quoteWord dir source_spec⟩,
    ⟨Reads.quote remote_spec, fields_quoteWord dir remote_spec⟩, by simp⟩

/-- The command is its arguments' texts between blanks. -/
lemma buildRsyncCommand_eq (source_path host : Text) (username : Option Text) (target_path : Text)
    (port : Option Int) (ex : TransferExcludes) (key : Option DedicatedKeyOptions) (is_dir : Bool) :
    buildRsyncCommand source_path (targetRsyncSpec host username target_path) port ex.patterns key is_dir =
      [' '].intercalate ((headArgs port key ++ patternArgs ex.patterns ++
        tailArgs (sourceSpec source_path is_dir) (remoteSpec host username target_path)).map Arg.source) := by
  have hex := excludeArgs_accepted fun p hp => ex.clean hp
  simp only [buildRsyncCommand, hex, headArgs, patternArgs, tailArgs, List.map_append, List.map_map,
    List.map_cons, List.map_nil, targetRsyncSpec, Function.comp_def, List.map_id']
  rfl

/-- The intended arguments are the values of these words. -/
lemma rsyncArgv_eq (source_path host : Text) (username : Option Text) (target_path : Text)
    (port : Option Int) (excludes : List Text) (key : Option DedicatedKeyOptions) (is_dir : Bool) :
    rsyncArgv source_path host username target_path port excludes key is_dir =
      (headArgs port key ++ patternArgs excludes ++
        tailArgs (sourceSpec source_path is_dir) (remoteSpec host username target_path)).map Arg.value := by
  simp only [rsyncArgv, headArgs, patternArgs, tailArgs, List.map_append, List.map_map, List.map_cons,
    List.map_nil, Function.comp_def, List.map_id']

/-- The first word of the command names the command to run. -/
lemma headArgs_command (port : Option Int) (key : Option DedicatedKeyOptions) (as : List Arg) :
    (((headArgs port key ++ as).map Arg.word).head?.map namesCommand).getD false = true := by
  have h : ((headArgs port key ++ as).map Arg.word).head? = some (lits false "rsync".toList) := rfl
  rw [h]
  rfl

/-- An inert pattern reads as one bare word. -/
lemma patternArgs_reads {excludes : List Text} (h : ∀ p ∈ excludes, Inert (strip p)) :
    ∀ a ∈ patternArgs excludes, Reads a.source a.word := by
  intro a ha
  obtain ⟨p, hp, rfl⟩ := List.mem_map.1 ha
  exact reads_excludeArg (h p hp)

/-- The fields of a bare exclude argument are what pathname expansion leaves of it. -/
lemma patternArgs_fields (excludes : List Text) (dir : List Text) : ∀ a ∈ patternArgs excludes,
    fields dir a.word = some (expand dir (a.value.map fun c => (false, c))) := by
  intro a ha
  obtain ⟨p, -, rfl⟩ := List.mem_map.1 ha
  have hd : (excludeArg p).head? = some '-' := rfl
  exact fields_bare dir (by rw [hd]; decide)

section
variable (source_path host : Text) (username : Option Text) (target_path : Text) (port : Option Int)
  (ex : TransferExcludes) (key : Option DedicatedKeyOptions) (is_dir : Bool)

/-- With inert patterns the command has the intended arguments, in every directory. -/
lemma argv_of_inert (h : ∀ p ∈ ex.patterns, ShellInert p) (dir : List Text) :
    argv dir (buildRsyncCommand source_path (targetRsyncSpec host username target_path) port
      ex.patterns key is_dir) =
      some (rsyncArgv source_path host username target_path port ex.patterns key is_dir) := by
  rw [buildRsyncCommand_eq, rsyncArgv_eq, List.append_assoc]
  have hgood : ∀ a ∈ headArgs port key ++ (patternArgs ex.patterns ++
      tailArgs (sourceSpec source_path is_dir) (remoteSpec host username target_path)),
      Reads a.source a.word ∧ fields dir a.word = some [a.value] := by
    intro a ha
    rcases List.mem_append.1 ha with ha | ha
    · exact headArgs_good port key dir a ha
    · rcases List.mem_append.1 ha with ha | ha
      · refine ⟨patternArgs_reads (fun p hp => (h p hp).1) a ha, ?_⟩
        rw [patternArgs_fields _ dir a ha]
        obtain ⟨p, hp, rfl⟩ := List.mem_map.1 ha
        simpa [Function.comp_def] using neverGlobs_iff.1 (h p hp).2 dir
      · exact tailArgs_good _ _ dir a ha
  exact argv_join (fun a ha => (hgood a ha).1) (headArgs_command port key _) fun a ha => (hgood a ha).2

/-- If the command has the intended arguments in an empty directory, its patterns are inert text. -/
lemma inert_of_argv (h : argv [] (buildRsyncCommand source_path (targetRsyncSpec host username target_path)
      port ex.patterns key is_dir) =
      some (rsyncArgv source_path host username target_path port ex.patterns key is_dir)) :
    ∀ p ∈ ex.patterns, Inert (strip p) := by
  obtain ⟨ws, fs, hl, hf, hfl⟩ := lex_of_argv h
  have ht := texts_of_fields_nil hf
  rw [hfl, rsyncArgv_eq, List.append_assoc, List.map_append, List.map_append] at ht
  rw [buildRsyncCommand_eq, List.append_assoc, List.map_append,
    intercalate_append _ (by simp [tailArgs]), lex_spaced fun a ha => (headArgs_good port key [] a ha).1] at hl
  obtain ⟨ts, hts, heq⟩ := Option.map_eq_some_iff.1 hl
  -- the words behind the fixed ones
  obtain ⟨ws₁, ws₂, rfl, hw₁, rfl⟩ : ∃ ws₁ ws₂, ws = ws₁ ++ ws₂ ∧
      ws₁.length = (headArgs port key).length ∧ ts = ws₂.map .word := by
    obtain ⟨ws₁, ws₂, h1, h2, h3⟩ := List.map_eq_append_iff.1 heq.symm
    exact ⟨ws₁, ws₂, h1, by simpa using congrArg List.length h2, h3.symm⟩
  rw [List.map_append] at ht
  have ht₂ := (List.append_inj ht (by simp [hw₁])).2
  rw [List.map_append, intercalate_append _ (by simp [tailArgs])] at hts
  have hsrc : (patternArgs ex.patterns).map Arg.source =
      (ex.patterns.map strip).map ('-' :: "-exclude=".toList ++ ·) := by
    simp only [patternArgs, List.map_map]; rfl
  rw [hsrc] at hts
  have hv := inert_of_spaced (y := "-exclude=".toList) (c := '-') (by decide) (by decide)
    (by
      intro v hv hn
      obtain ⟨p, hp, rfl⟩ := List.mem_map.1 hv
      have := (ex.clean hp).2 _ hn
      exact absurd this (by decide)) hts
    (by
      rw [ht₂, List.map_append, List.map_append]
      simp only [patternArgs, List.map_map]
      rfl)
  exact fun p hp => hv _ (List.mem_map_of_mem hp)

/-- If the command has the intended arguments in every directory, no pattern is ever expanded. -/
lemma neverGlobs_of_argv (hi : ∀ p ∈ ex.patterns, Inert (strip p)) (dir : List Text)
    (h : argv dir (buildRsyncCommand source_path (targetRsyncSpec host username target_path)
      port ex.patterns key is_dir) =
      some (rsyncArgv source_path host username target_path port ex.patterns key is_dir)) :
    ∀ p ∈ ex.patterns, expand dir ((excludeArg p).map fun c => (false, c)) = [excludeArg p] := by
  rw [buildRsyncCommand_eq, rsyncArgv_eq, List.append_assoc] at h
  -- every word is a literal one, so its fields are what expansion makes of its text
  have hword : ∀ a ∈ headArgs port key ++ (patternArgs ex.patterns ++
      tailArgs (sourceSpec source_path is_dir) (remoteSpec host username target_path)),
      Reads a.source a.word ∧ ∃ f, fields dir a.word = some f ∧ f ≠ [] := by
    intro a ha
    rcases List.mem_append.1 ha with ha | ha
    · have hg := headArgs_good port key dir a ha
      exact ⟨hg.1, _, hg.2, by simp⟩
    · rcases List.mem_append.1 ha with ha | ha
      · exact ⟨patternArgs_reads hi a ha, _, patternArgs_fields _ dir a ha, expand_ne_nil dir _⟩
      · have hg := tailArgs_good _ _ dir a ha
        exact ⟨hg.1, _, hg.2, by simp⟩
  have hfields := fields_of_argv (f := fun a => (fields dir a.word).getD [])
    (fun a ha => (hword a ha).1) (headArgs_command port key _)
    (fun a ha => by obtain ⟨-, f, hf, -⟩ := hword a ha; simp [hf])
    (fun a ha => by obtain ⟨-, f, hf, hne⟩ := hword a ha; simpa [hf] using hne) h
  intro p hp
  have hmem : (⟨excludeArg p, lits false (excludeArg p), excludeArg p⟩ : Arg) ∈ patternArgs ex.patterns :=
    List.mem_map_of_mem hp
  have hone := hfields _ (List.mem_append_right _ (List.mem_append_left _ hmem))
  simpa only [patternArgs_fields ex.patterns dir _ hmem, Option.getD_some] using hone

/-- The command the shell runs on the source server has exactly the intended arguments, whatever
directory it is run in, if and only if every exclude pattern is inert. -/
theorem rsync_argv_iff :
    (∀ dir, argv dir (buildRsyncCommand source_path (targetRsyncSpec host username target_path) port
      ex.patterns key is_dir) =
      some (rsyncArgv source_path host username target_path port ex.patterns key is_dir)) ↔
    ∀ p ∈ ex.patterns, ShellInert p := by
  constructor
  · intro h p hp
    have hi := inert_of_argv source_path host username target_path port ex key is_dir (h [])
    refine ⟨hi p hp, neverGlobs_iff.2 fun dir => ?_⟩
    have hg := neverGlobs_of_argv source_path host username target_path port ex key is_dir hi dir (h dir)
    simpa [Function.comp_def] using hg p hp
  · intro h dir
    exact argv_of_inert source_path host username target_path port ex key is_dir h dir

end

/-- One pattern with a blank in it. -/
def blankPattern : TransferExcludes where
  patterns := ["my data".toList]
  accepted := by decide

/-- The pattern `my data` splits into two words, and rsync gets `data` as a source of its own. -/
theorem rsync_argv_splits_blank_pattern :
    argv [] (buildRsyncCommand "/src/x".toList (targetRsyncSpec "host-b".toList none "/dst/x".toList) none
      blankPattern.patterns none false) =
      some (rsyncFlags ++ [sshOpts none none] ++ ["--exclude=my".toList, "data".toList] ++
        ["--".toList, "/src/x".toList, "host-b:/dst/x".toList]) ∧
    argv [] (buildRsyncCommand "/src/x".toList (targetRsyncSpec "host-b".toList none "/dst/x".toList) none
      blankPattern.patterns none false) ≠
      some (rsyncArgv "/src/x".toList "host-b".toList none "/dst/x".toList none blankPattern.patterns none
        false) := by
  decide +kernel

end SshGpuConsole.Planner
