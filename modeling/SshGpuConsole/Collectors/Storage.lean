import SshGpuConsole.Lib.PyColumns
import SshGpuConsole.Telemetry.State

/-!
# Storage

`parse_df` (`collectors/storage.py`) and the tables that `df -kP` prints, with or without a `Type` column. The mount path
is the free text behind the columns: it comes back as it was printed exactly when no other white space is in it than
single blanks between words (`mounts_recovered_iff`).
-/

namespace SshGpuConsole.Collectors
open Shell (Text)
open PyText PyLines PyColumns
open Telemetry (StorageMount)

/-! ### The parser -/

/-- `_IGNORED_MOUNTS` -/
def ignoredMounts : List Text := ["/proc", "/sys", "/dev", "/run", "/boot/efi"].map String.toList

/-- The mount is one that is ignored, or under it. -/
def isIgnored (mount : Text) : Bool :=
  ignoredMounts.any fun ignored => mount = ignored || startsWith (ignored ++ ['/']) mount

section
variable {φ : Type} (num : Numerals φ)

/-- The sizes in bytes and the percentage of a row, when they are numbers. -/
def measures (blocks used available percent : Text) : Option (ℤ × ℤ × ℤ × φ) := do
  let total_b ← num.int blocks
  let used_b ← num.int used
  let free_b ← num.int available
  let percent_value ← num.float (percent.rdropWhile (· = '%'))
  if num.isPercentage percent_value then some (total_b * 1024, used_b * 1024, free_b * 1024, percent_value) else none

/-- A row, from its fields on. -/
def parseFields (device : Text) (fstype : Option Text) (blocks used available percent : Text) (path : List Text) :
    Option (StorageMount φ) :=
  let mount := [' '].intercalate path
  if !startsWith ['/'] mount || isIgnored mount then none
  else (measures num blocks used available percent).map fun m =>
    { device, fstype := fstype.filter (· ≠ []), mount, total_b := some m.1, used_b := some m.2.1,
      free_b := some m.2.2.1, percent := some (num.round m.2.2.2) }

/-- A line behind the header: one with too few fields is skipped. -/
def parseLine (has_type : Bool) (line : Text) : Option (StorageMount φ) :=
  match has_type, split line with
  | true, device :: fstype :: blocks :: used :: available :: percent :: first :: path =>
    parseFields num device (some fstype) blocks used available percent (first :: path)
  | false, device :: blocks :: used :: available :: percent :: first :: path =>
    parseFields num device none blocks used available percent (first :: path)
  | _, _ => none

/-- `parse_df` -/
def parseDf (stdout : Text) : List (StorageMount φ) :=
  match charBreaks.lines stdout with
  | [] => []
  | header :: lines => lines.filterMap (parseLine num ((split header).contains "Type".toList))

end

/-! ### The table -/

/-- A row of the table: columns, and the path behind them. -/
structure DfRow where
  device : Column
  fstype : Option Column
  blocks : Column
  used : Column
  available : Column
  percent : Column
  mount : Text
  absolute : mount.head? = some '/'
  unbroken : Unbroken mount

def DfRow.columns (row : DfRow) : List Column :=
  row.device :: row.fstype.toList ++ [row.blocks, row.used, row.available, row.percent]

def DfRow.text (row : DfRow) : Text := row.columns.flatMap Column.text ++ row.mount

/-- A header and rows: each has a type exactly when the header names one. -/
structure DfTable where
  header : Text
  rows : List DfRow
  unbroken : Unbroken header
  layout : ∀ row ∈ rows, row.fstype.isSome = (split header).contains "Type".toList

/-- What `df` prints: a line for the header and one for each row. -/
def DfTable.text (table : DfTable) : Text := printed (table.header :: table.rows.map DfRow.text)

section
variable {φ : Type} {num : Numerals φ}

/-- What a row says, unless it is ignored or its numbers are none: its path as printed, its sizes times 1024. -/
def DfRow.recovered (num : Numerals φ) (row : DfRow) : Option (StorageMount φ) :=
  if isIgnored row.mount then none
  else (measures num row.blocks.word row.used.word row.available.word row.percent.word).map fun m =>
    { device := row.device.word, fstype := row.fstype.map Column.word, mount := row.mount, total_b := some m.1,
      used_b := some m.2.1, free_b := some m.2.2.1, percent := some (num.round m.2.2.2) }

/-! ### One row -/

lemma isWord_slash : IsWord ['/'] := by
  refine ⟨List.cons_ne_nil _ _, fun c hc => ?_⟩
  rw [List.mem_singleton.1 hc]
  rfl

/-- The path is absolute with single blanks too. -/
lemma DfRow.startsWith_path (row : DfRow) : ∃ rest, [' '].intercalate (split row.mount) = ['/'] ++ rest := by
  obtain ⟨c, rest, hmount⟩ := List.exists_cons_of_ne_nil (List.ne_nil_of_mem (List.mem_of_head? row.absolute))
  have hslash := row.absolute
  rw [hmount, List.head?_cons] at hslash
  cases hslash
  rw [hmount]
  exact intercalate_split_append isWord_slash rest

lemma DfRow.split_mount_ne_nil (row : DfRow) : split row.mount ≠ [] := by
  intro hnil
  obtain ⟨rest, hrest⟩ := row.startsWith_path
  rw [hnil] at hrest
  cases hrest

/-- The fields of a row are those of its columns and of its path. -/
lemma DfRow.parseLine_text (row : DfRow) : parseLine num row.fstype.isSome row.text =
    parseFields num row.device.word (row.fstype.map Column.word) row.blocks.word row.used.word row.available.word
      row.percent.word (split row.mount) := by
  obtain ⟨first, path, hpath⟩ := List.exists_cons_of_ne_nil row.split_mount_ne_nil
  have hfields : split row.text = row.columns.map Column.word ++ first :: path := by
    rw [← hpath]
    exact split_columns row.columns row.mount
  unfold parseLine
  rw [hfields, DfRow.columns, hpath]
  cases row.fstype with
  | none => rfl
  | some fstype => rfl

lemma isWord_ignored : ∀ ignored ∈ ignoredMounts, IsWord ignored ∧ IsWord (ignored ++ ['/']) := by
  intro ignored hmem
  have hall : (ignoredMounts.all fun t => t ≠ [] && t.all fun c => !isSpace c) = true := by decide +kernel
  have hword := List.all_eq_true.1 hall ignored hmem
  rw [Bool.and_eq_true, decide_eq_true_iff, List.all_eq_true] at hword
  have hplain : ∀ c ∈ ignored, isSpace c = false := fun c hc => by simpa using hword.2 c hc
  refine ⟨⟨hword.1, hplain⟩, List.append_ne_nil_of_left_ne_nil hword.1 _, fun c hc => ?_⟩
  rcases List.mem_append.1 hc with hc | hc
  · exact hplain c hc
  · exact isWord_slash.2 c hc

/-- A path that is ignored is ignored with single blanks too. -/
lemma isIgnored_intercalate {mount : Text} (h : isIgnored mount = true) :
    isIgnored ([' '].intercalate (split mount)) = true := by
  obtain ⟨ignored, hmem, hmount⟩ := List.any_eq_true.1 h
  obtain ⟨hword, hslash⟩ := isWord_ignored ignored hmem
  refine List.any_eq_true.2 ⟨ignored, hmem, ?_⟩
  rw [Bool.or_eq_true, decide_eq_true_iff] at hmount ⊢
  rcases hmount with rfl | hwithin
  · left
    rw [split_word hword.2 hword.1, List.intercalate_singleton]
  · right
    obtain ⟨rest, rfl⟩ := List.isPrefixOf_iff_prefix.1 hwithin
    obtain ⟨rest', hrest'⟩ := intercalate_split_append hslash rest
    rw [hrest', startsWith]
    exact List.isPrefixOf_iff_prefix.2 (List.prefix_append _ _)

/-- A row comes back when its path has single blanks only, unless it does not count. -/
lemma DfRow.parseLine_eq (row : DfRow) (h : (row.recovered num).isSome → SingleSpaced row.mount) :
    parseLine num row.fstype.isSome row.text = row.recovered num := by
  rw [row.parseLine_text, parseFields]
  obtain ⟨rest, hrest⟩ := row.startsWith_path
  have habsolute : startsWith ['/'] ([' '].intercalate (split row.mount)) = true := by
    rw [hrest]
    exact List.isPrefixOf_iff_prefix.2 (List.prefix_append _ _)
  rw [habsolute, Bool.not_true, Bool.false_or]
  cases hignored : isIgnored row.mount with
  | true =>
    rw [isIgnored_intercalate hignored, DfRow.recovered, hignored]
    rfl
  | false =>
    rw [DfRow.recovered, hignored] at h ⊢
    rw [if_neg Bool.false_ne_true] at h ⊢
    cases hnumbers : measures num row.blocks.word row.used.word row.available.word row.percent.word with
    | none =>
      split
      · rfl
      · rfl
    | some m =>
      have hsingle := (intercalate_split_iff row.split_mount_ne_nil).2 (h (by rw [hnumbers]; rfl))
      have hfstype : (row.fstype.map Column.word).filter (· ≠ []) = row.fstype.map Column.word := by
        cases row.fstype with
        | none => rfl
        | some fstype => exact Option.filter_some_pos (by simpa using fstype.isWord.1)
      rw [hsingle, hignored, if_neg Bool.false_ne_true, hfstype]

/-- What a line gives has a path with single blanks only. -/
lemma singleSpaced_of_parseLine {has_type : Bool} {line : Text} {mount : StorageMount φ}
    (h : parseLine num has_type line = some mount) : SingleSpaced mount.mount := by
  have hfields : ∀ {device : Text} {fstype : Option Text} {blocks used available percent first : Text} {path : List Text},
      (∀ w ∈ first :: path, w ∈ split line) →
      parseFields num device fstype blocks used available percent (first :: path) = some mount →
        SingleSpaced mount.mount := by
    intro device fstype blocks used available percent first path hpath hparse
    rw [parseFields] at hparse
    split at hparse
    · cases hparse
    · obtain ⟨m, -, rfl⟩ := Option.map_eq_some_iff.1 hparse
      exact ⟨first :: path, List.cons_ne_nil _ _, fun w hw => isWord_of_mem_split (hpath w hw), rfl⟩
  unfold parseLine at h
  split at h
  · rename_i device fstype blocks used available percent first path hsplit
    refine hfields (fun w hw => ?_) h
    rw [hsplit]
    exact List.mem_append_right [device, fstype, blocks, used, available, percent] hw
  · rename_i device blocks used available percent first path hsplit
    refine hfields (fun w hw => ?_) h
    rw [hsplit]
    exact List.mem_append_right [device, blocks, used, available, percent] hw
  · cases h

/-! ### The whole table -/

lemma DfRow.unbroken_text (row : DfRow) : Unbroken row.text :=
  unbroken_append (unbroken_columns row.columns) row.unbroken

lemma DfTable.lines_text (table : DfTable) :
    charBreaks.lines table.text = table.header :: table.rows.map DfRow.text := by
  refine lines_printed fun line hline => ?_
  rcases List.mem_cons.1 hline with rfl | hline
  · exact table.unbroken
  · obtain ⟨row, -, rfl⟩ := List.mem_map.1 hline
    exact row.unbroken_text

lemma DfTable.parseDf_text (table : DfTable) :
    parseDf num table.text = table.rows.filterMap fun row => parseLine num row.fstype.isSome row.text := by
  rw [parseDf, table.lines_text]
  dsimp only
  rw [List.filterMap_map]
  refine List.filterMap_congr fun row hrow => ?_
  rw [Function.comp_apply, table.layout row hrow]

/-- A table comes back row for row exactly when no path of a row that counts has other white space than single blanks
between words. -/
theorem mounts_recovered_iff (num : Numerals φ) (table : DfTable) :
    parseDf num table.text = table.rows.filterMap (DfRow.recovered num) ↔
      ∀ row ∈ table.rows, (row.recovered num).isSome → SingleSpaced row.mount := by
  rw [table.parseDf_text]
  constructor
  · intro hsame row hrow hsome
    obtain ⟨mount, hmount⟩ := Option.isSome_iff_exists.1 hsome
    have hmem : mount ∈ table.rows.filterMap fun row => parseLine num row.fstype.isSome row.text := by
      rw [hsame]
      exact List.mem_filterMap.2 ⟨row, hrow, hmount⟩
    obtain ⟨row', -, hparse⟩ := List.mem_filterMap.1 hmem
    have hpath : mount.mount = row.mount := by
      rw [DfRow.recovered] at hmount
      split at hmount
      · cases hmount
      · obtain ⟨m, -, rfl⟩ := Option.map_eq_some_iff.1 hmount
        rfl
    exact hpath ▸ singleSpaced_of_parseLine hparse
  · intro h
    exact List.filterMap_congr fun row hrow => row.parseLine_eq (h row hrow)

end

/-- A table without types, of one row. -/
def oneMount (mount : String) (absolute : mount.toList.head? = some '/')
    (unbroken : (mount.toList.all fun c => !charBreaks.isBreak c) = true) : DfTable where
  header := "Filesystem 1024-blocks Used Available Capacity Mounted on".toList
  rows := [{
    device := spaced "/dev/sdb1" rfl
    fstype := none
    blocks := spaced "200" rfl
    used := hundred
    available := hundred
    percent := spaced "50%" rfl
    mount := mount.toList
    absolute
    unbroken := unbroken_of_all unbroken }]
  unbroken := by
    have hall : ("Filesystem 1024-blocks Used Available Capacity Mounted on".toList.all
      fun c => !charBreaks.isBreak c) = true := rfl
    exact fun c hc => by simpa using List.all_eq_true.1 hall c hc
  layout row hrow := by
    have htype : (split "Filesystem 1024-blocks Used Available Capacity Mounted on".toList).contains "Type".toList =
        false := by decide +kernel
    rw [List.mem_singleton.1 hrow]
    exact htype.symm

/-- Of two blanks in a path one comes back. -/
theorem doubleBlank_lost : ¬∀ table : DfTable,
    parseDf wholeNumbers table.text = table.rows.filterMap (DfRow.recovered wholeNumbers) := by
  intro h
  have hmounts := congrArg (List.map StorageMount.mount) (h (oneMount "/mnt/my  data" rfl rfl))
  have hread : (parseDf wholeNumbers (oneMount "/mnt/my  data" rfl rfl).text).map StorageMount.mount =
      ["/mnt/my data".toList] := by decide +kernel
  have hprinted : ((oneMount "/mnt/my  data" rfl rfl).rows.filterMap (DfRow.recovered wholeNumbers)).map
      StorageMount.mount = ["/mnt/my  data".toList] := by decide +kernel
  rw [hread, hprinted] at hmounts
  exact absurd hmounts (by decide)

end SshGpuConsole.Collectors
