import SshGpuConsole.Lib.PyColumns
import SshGpuConsole.Telemetry.State

/-!
# Processes

`parse_ps` (`collectors/processes.py`) and the table that the `PROCESSES` command prints. The name of a process and its
arguments stand behind six columns, and both are free text: the rows come back exactly when each name is one word
(`processes_recovered_iff`).
-/

namespace SshGpuConsole.Collectors
open Shell (Text)
open PyText PyLines PyColumns
open Telemetry (ProcessInfo)

/-! ### The parser -/

section
variable {φ : Type} (num : Numerals φ)

/-- `_percent` -/
def percent (value : Text) : Option φ := ((num.float value).filter num.isMeasure).map num.round

/-- A line, unless it is blank, has too few fields, or begins with no process id. -/
def parseProcess (line : Text) : Option (ProcessInfo φ) :=
  if strip line = [] then none
  else
    match splitMax 7 line with
    | pid :: user :: pcpu :: pmem :: rss :: stat :: comm :: args =>
      ((num.int pid).filter fun pid => ¬pid < 1).map fun pid =>
        { pid, user := some (user.take 64), name := some (comm.take 128), cpu_percent := percent num pcpu,
          mem_percent := percent num pmem, rss_b := (num.int rss).map fun kib => max 0 kib * 1024,
          state := some (stat.take 16), command := args.head?.map fun args => args.take 1000 }
    | _ => none

/-- The loop of `parse_ps`: it ends when there are enough processes. -/
def parseProcesses (max_rows : ℤ) : List (ProcessInfo φ) → List Text → List (ProcessInfo φ)
  | processes, [] => processes
  | processes, line :: lines =>
    match parseProcess num line with
    | none => parseProcesses max_rows processes lines
    | some process =>
      if max 1 max_rows ≤ (processes ++ [process]).length then processes ++ [process]
      else parseProcesses max_rows (processes ++ [process]) lines

/-- `parse_ps` -/
def parsePs (stdout : Text) (max_rows : ℤ) : List (ProcessInfo φ) :=
  parseProcesses num max_rows [] (charBreaks.lines stdout)

end

/-! ### The table -/

/-- A row of the table: the process id and the other columns, the name, and the arguments. The kernel keeps the names
of processes short. -/
structure PsRow where
  number : ℕ
  lead : Text
  pid : Column
  user : Column
  pcpu : Column
  pmem : Column
  rss : Column
  stat : Column
  comm : Text
  gap : Text
  args : Text
  positive : 1 ≤ number
  lead_blank : ∀ c ∈ lead, c = ' '
  pid_word : pid.word = Nat.toDigits 10 number
  isGap : IsGap gap
  short : comm.length < 64
  unbroken : Unbroken comm ∧ Unbroken args

def PsRow.columns (row : PsRow) : List Column := [row.pid, row.user, row.pcpu, row.pmem, row.rss, row.stat]

def PsRow.text (row : PsRow) : Text := row.lead ++ (row.columns.flatMap Column.text ++ (row.comm ++ (row.gap ++ row.args)))

/-- A text without the white space in front of it. -/
def unindented (t : Text) : Text := t.dropWhile isSpace

section
variable {φ : Type} {num : Numerals φ}

/-- What a row says of its process, up to the caps and to the blanks in front of the name and the arguments. -/
def PsRow.recovered (num : Numerals φ) (row : PsRow) : ProcessInfo φ where
  pid := row.number
  user := some (row.user.word.take 64)
  name := some ((unindented row.comm).take 128)
  cpu_percent := percent num row.pcpu.word
  mem_percent := percent num row.pmem.word
  rss_b := (num.int row.rss.word).map fun kib => max 0 kib * 1024
  state := some (row.stat.word.take 16)
  command := if unindented row.args = [] then none else some ((unindented row.args).take 1000)

/-! ### One row -/

lemma PsRow.splitMax_text (row : PsRow) :
    splitMax 7 row.text = row.columns.map Column.word ++ splitMax 1 (row.comm ++ (row.gap ++ row.args)) := by
  have hlead : ∀ c ∈ row.lead, isSpace c = true := by
    intro c hc
    rw [row.lead_blank c hc]
    rfl
  rw [PsRow.text, splitMax_spaces hlead]
  exact splitMax_columns row.columns 1 _

lemma PsRow.strip_text (row : PsRow) : strip row.text ≠ [] := by
  obtain ⟨c, w, hword⟩ := List.exists_cons_of_ne_nil row.pid.isWord.1
  have hc : c ∈ row.pid.word := hword ▸ List.mem_cons_self
  have hmem : c ∈ row.columns.flatMap Column.text :=
    List.mem_flatMap.2 ⟨row.pid, List.mem_cons_self, List.mem_append_left _ hc⟩
  exact strip_ne_nil (List.mem_append_right _ (List.mem_append_left _ hmem)) (row.pid.isWord.2 c hc)

/-- What a row is read as, from what stands behind its columns. -/
lemma PsRow.parseProcess_text (row : PsRow) : parseProcess num row.text =
    match splitMax 1 (row.comm ++ (row.gap ++ row.args)) with
    | comm :: args => some { row.recovered num with
        name := some (comm.take 128), command := args.head?.map fun args => args.take 1000 }
    | [] => none := by
  have hpid : ((num.int row.pid.word).filter fun pid => ¬pid < 1) = some (row.number : ℤ) := by
    have hpositive := row.positive
    rw [row.pid_word, num.int_decimal]
    refine Option.filter_some_pos (decide_eq_true ?_)
    omega
  unfold parseProcess
  rw [if_neg row.strip_text, row.splitMax_text, PsRow.columns]
  cases splitMax 1 (row.comm ++ (row.gap ++ row.args)) with
  | nil => rfl
  | cons comm args =>
    show Option.map _ ((num.int row.pid.word).filter _) = _
    rw [hpid]
    rfl

/-- A name of one word ends where the blanks behind it begin. -/
lemma PsRow.splitMax_comm (row : PsRow) (h : IsWord (unindented row.comm)) :
    splitMax 1 (row.comm ++ (row.gap ++ row.args)) = unindented row.comm :: splitMax 0 row.args := by
  have hfront : ∀ c ∈ row.comm.takeWhile isSpace, isSpace c = true := fun c hc => List.mem_takeWhile_imp hc
  have hgap := row.isGap.isSpace
  have hcomm : row.comm ++ (row.gap ++ row.args) =
      row.comm.takeWhile isSpace ++ (unindented row.comm ++ (row.gap ++ row.args)) := by
    rw [unindented, ← List.append_assoc (row.comm.takeWhile isSpace), List.takeWhile_append_dropWhile]
  rw [hcomm, splitMax_spaces hfront, splitMax_word h, splitMax_spaces hgap]
  intro c hc
  obtain ⟨d, g, hd⟩ := List.exists_cons_of_ne_nil row.isGap.1
  rw [hd, List.cons_append, List.head?_cons] at hc
  cases hc
  exact hgap _ (hd ▸ List.mem_cons_self)

/-- A row whose name is one word comes back. -/
lemma PsRow.parseProcess_of_isWord (row : PsRow) (h : IsWord (unindented row.comm)) :
    parseProcess num row.text = some (row.recovered num) := by
  have hargs : (splitMax 0 row.args).head?.map (fun args => args.take 1000) =
      if unindented row.args = [] then none else some ((unindented row.args).take 1000) := by
    rw [splitMax, unindented]
    cases row.args.dropWhile isSpace with
    | nil => rfl
    | cons c rest => rfl
  rw [row.parseProcess_text, row.splitMax_comm h]
  dsimp only
  rw [hargs]
  rfl

/-- A row that comes back has a name of one word. -/
lemma PsRow.isWord_of_parseProcess (row : PsRow) (h : parseProcess num row.text = some (row.recovered num)) :
    IsWord (unindented row.comm) := by
  rw [row.parseProcess_text] at h
  cases hwords : splitMax 1 (row.comm ++ (row.gap ++ row.args)) with
  | nil =>
    rw [hwords] at h
    cases h
  | cons comm args =>
    rw [hwords] at h
    have hname : comm.take 128 = (unindented row.comm).take 128 :=
      Option.some.inj (congrArg ProcessInfo.name (Option.some.inj h))
    have hshort : (unindented row.comm).length ≤ 128 := by
      have hlength := (List.dropWhile_sublist (p := isSpace) (l := row.comm)).length_le
      exact hlength.trans (row.short.le.trans (by decide))
    have hcomm := isWord_of_splitMax hwords
    rw [List.take_of_length_le hshort] at hname
    rw [← hname]
    refine ⟨?_, fun c hc => hcomm.2 c (List.mem_of_mem_take hc)⟩
    rw [Ne, List.take_eq_nil_iff]
    rintro (hzero | hnil)
    · cases hzero
    · exact hcomm.1 hnil

/-- Only a row with a blank name is skipped. -/
lemma PsRow.comm_of_parseProcess (row : PsRow) (h : parseProcess num row.text = none) : unindented row.comm = [] := by
  rw [row.parseProcess_text] at h
  cases hwords : splitMax 1 (row.comm ++ (row.gap ++ row.args)) with
  | nil =>
    have hblank := dropWhile_of_splitMax hwords
    rw [List.dropWhile_eq_nil_iff] at hblank
    exact List.dropWhile_eq_nil_iff.2 fun c hc => hblank c (List.mem_append_left _ hc)
  | cons comm args =>
    rw [hwords] at h
    cases h

/-- A process that is read has a name. -/
lemma PsRow.name_of_parseProcess (row : PsRow) {process : ProcessInfo φ} (h : parseProcess num row.text = some process) :
    process.name ≠ some [] := by
  rw [row.parseProcess_text] at h
  cases hwords : splitMax 1 (row.comm ++ (row.gap ++ row.args)) with
  | nil =>
    rw [hwords] at h
    cases h
  | cons comm args =>
    rw [hwords] at h
    cases h
    intro hname
    rcases List.take_eq_nil_iff.1 (Option.some.inj hname) with hzero | hnil
    · cases hzero
    · exact (isWord_of_splitMax hwords).1 hnil

/-! ### The whole table -/

lemma parseProcesses_eq (max_rows : ℤ) (processes : List (ProcessInfo φ)) (lines : List Text)
    (h : processes.length < max 1 max_rows) : parseProcesses num max_rows processes lines =
      (processes ++ lines.filterMap (parseProcess num)).take (max 1 max_rows).toNat := by
  induction lines generalizing processes with
  | nil =>
    rw [parseProcesses, List.filterMap_nil, List.append_nil, List.take_of_length_le]
    omega
  | cons line lines ih =>
    rw [parseProcesses]
    cases hparse : parseProcess num line with
    | none =>
      rw [List.filterMap_cons_none hparse]
      exact ih processes h
    | some process =>
      rw [List.filterMap_cons_some hparse]
      dsimp only
      split
      · rename_i hfull
        have hlength : (max 1 max_rows).toNat = (processes ++ [process]).length := by
          rw [List.length_append, List.length_singleton] at hfull ⊢
          omega
        rw [hlength, List.append_cons processes process (lines.filterMap _)]
        exact (List.take_left' rfl).symm
      · rename_i hroom
        rw [ih _ (not_le.1 hroom), List.append_assoc, List.singleton_append]

lemma parsePs_printed (rows : List PsRow) (max_rows : ℤ) : parsePs num (printed (rows.map PsRow.text)) max_rows =
    (rows.filterMap fun row => parseProcess num row.text).take (max 1 max_rows).toNat := by
  have hunbroken : ∀ line ∈ rows.map PsRow.text, Unbroken line := by
    intro line hline
    obtain ⟨row, -, rfl⟩ := List.mem_map.1 hline
    have hlead : Unbroken row.lead := by
      intro c hc
      rw [row.lead_blank c hc]
      rfl
    refine unbroken_append hlead (unbroken_append (unbroken_columns row.columns) ?_)
    exact unbroken_append row.unbroken.1 (unbroken_append row.isGap.unbroken row.unbroken.2)
  rw [parsePs, lines_printed hunbroken, parseProcesses_eq _ _ _ (by rw [List.length_nil]; omega), List.nil_append,
    List.filterMap_map]
  rfl

/-- The first rows come back, in order, exactly when each of them has a name of one word. -/
theorem processes_recovered_iff (num : Numerals φ) (rows : List PsRow) (max_rows : ℤ) :
    parsePs num (printed (rows.map PsRow.text)) max_rows =
        (rows.take (max 1 max_rows).toNat).map (PsRow.recovered num) ↔
      ∀ row ∈ rows.take (max 1 max_rows).toNat, IsWord (unindented row.comm) := by
  rw [parsePs_printed]
  generalize (max 1 max_rows).toNat = n
  induction rows generalizing n with
  | nil =>
    rw [List.take_nil, List.filterMap_nil, List.take_nil]
    exact ⟨fun _ _ h => absurd h List.not_mem_nil, fun _ => rfl⟩
  | cons row rows ih =>
    cases n with
    | zero => exact ⟨fun _ _ h => absurd h List.not_mem_nil, fun _ => rfl⟩
    | succ n =>
      rw [List.take_succ_cons, List.map_cons, List.forall_mem_cons, ← ih n]
      cases hparse : parseProcess num row.text with
      | some process =>
        rw [List.filterMap_cons, hparse, List.take_succ_cons, List.cons.injEq]
        refine and_congr_left' ⟨?_, ?_⟩
        · rintro rfl
          exact row.isWord_of_parseProcess hparse
        · intro hword
          exact Option.some.inj (hparse.symm.trans (row.parseProcess_of_isWord hword))
      | none =>
        have hblank := row.comm_of_parseProcess hparse
        constructor
        · -- the process of a later row would have to be the one without a name
          intro hsame
          rw [List.filterMap_cons, hparse] at hsame
          have hmem : row.recovered num ∈ rows.filterMap fun row => parseProcess num row.text := by
            refine List.mem_of_mem_take (?_ : _ ∈ (rows.filterMap _).take (n + 1))
            rw [hsame]
            exact List.mem_cons_self
          obtain ⟨row', -, hrow'⟩ := List.mem_filterMap.1 hmem
          refine absurd ?_ (row'.name_of_parseProcess hrow')
          rw [PsRow.recovered, hblank]
          rfl
        · rintro ⟨hword, -⟩
          exact absurd hblank hword.1

end

/-- A row of one process, with its name and its arguments. -/
def oneProcess (comm args : String) (short : comm.toList.length < 64)
    (unbroken : ((comm.toList ++ args.toList).all fun c => !charBreaks.isBreak c) = true) : PsRow where
  number := 7
  lead := [' ']
  pid := spaced "7" rfl
  user := spaced "alice" rfl
  pcpu := spaced "1" rfl
  pmem := spaced "2" rfl
  rss := hundred
  stat := spaced "Ss" rfl
  comm := comm.toList
  gap := [' ']
  args := args.toList
  positive := by decide
  lead_blank _ hc := List.mem_singleton.1 hc
  pid_word := rfl
  isGap := isGap_blank
  short
  unbroken :=
    have hall := unbroken_of_all unbroken
    ⟨fun c hc => hall c (List.mem_append_left _ hc), fun c hc => hall c (List.mem_append_right _ hc)⟩

/-- The end of a name of two words is read as the beginning of the arguments. -/
theorem twoWords_misread : ¬∀ rows : List PsRow, parsePs wholeNumbers (printed (rows.map PsRow.text)) 1200 =
    (rows.take 1200).map (PsRow.recovered wholeNumbers) := by
  intro h
  have hnames := congrArg (List.map fun p => (p.name, p.command)) (h [oneProcess "tmux: server" "tmux new" (by decide) rfl])
  have hread : (parsePs wholeNumbers
      (printed ([oneProcess "tmux: server" "tmux new" (by decide) rfl].map PsRow.text)) 1200).map
        (fun p => (p.name, p.command)) = [(some "tmux:".toList, some "server tmux new".toList)] := by decide +kernel
  have hprinted : (([oneProcess "tmux: server" "tmux new" (by decide) rfl].take 1200).map
      (PsRow.recovered wholeNumbers)).map (fun p => (p.name, p.command)) =
        [(some "tmux: server".toList, some "tmux new".toList)] := by decide +kernel
  rw [hread, hprinted] at hnames
  exact absurd hnames (by decide)

end SshGpuConsole.Collectors
