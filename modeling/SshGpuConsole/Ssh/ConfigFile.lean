import SshGpuConsole.Lib.PyLines
import SshGpuConsole.Lib.PyShlex
import SshGpuConsole.Ssh.ConfigResolver

/-!
# Loading the SSH config

`_load_file` and `_include` of `SSHConfigResolver`: a file is read line by line into `Host` blocks, and the files that an
`Include` names are loaded where it stands. What the file system answers is a parameter, and the nested calls are given
the number that the stack has room for.
-/

namespace SshGpuConsole.Ssh.Config
open Shell (Text)
open PyText PyLines

/-- The files of the machine. -/
structure Files where
  /-- `path.expanduser().resolve(strict=False)` -/
  resolve : Text → Text
  /-- `read_text`, without what raises an `OSError` -/
  read : Text → Option Text
  /-- `str(path.parent / name)` -/
  beside : Text → Text → Text
  /-- `glob.glob` -/
  glob : Text → List Text

/-! ### Lines -/

/-- What stands before the comment of a value, when there is one; `start` says that a comment may start here. -/
def uncommented : Bool → Text → Option Text
  | _, [] => none
  | start, c :: value => if c = '#' ∧ start = true then some [] else (uncommented (isSpace c) value).map (c :: ·)

/-- `_strip_inline_comment` -/
def stripInlineComment (value : Text) : Text :=
  match uncommented true value with
  | some front => front.rdropWhile isSpace
  | none => strip value

/-- `_KV_SYNTAX`: the keyword in front of a `=`, and what stands behind it. -/
def keyValue (line : Text) : Option (Text × Text) :=
  match line.dropWhile Char.isAlphanum with
  | '=' :: remainder =>
    if (line.head?.any Char.isAlpha) = true then some (line.takeWhile Char.isAlphanum, remainder) else none
  | _ => none

/-- `_split_directive` -/
def splitDirective (py : Python) (line : Text) : Option (Text × List Text) :=
  match keyValue line with
  | some (keyword, remainder) =>
    (PyShlex.split (stripInlineComment remainder)).map fun args => (py.casefold keyword, args)
  | none =>
    match PyShlex.split line with
    | none | some [] => none
    | some (keyword :: args) => some (py.casefold keyword, args)

/-- `_DIRECTIVES` -/
def directives : List Text := ["hostname", "user", "port", "identityfile", "proxyjump"].map String.toList

/-- What a line says of the blocks. -/
inductive Line where
  | host (patterns : List Text)
  | criteria
  | value (key value : Text)
  deriving DecidableEq

inductive Directive where
  | line (line : Line)
  | include (patterns : List Text)
  deriving DecidableEq

/-- What the loop makes of a keyword and its arguments. -/
def directive (key : Text) (args : List Text) : Option Directive :=
  if key = "host".toList then some (.line (.host ((args.map stripInlineComment).filter (· ≠ []))))
  else if key = "match".toList then some (.line .criteria)
  else if key = "include".toList then some (.include args)
  else if directives.contains key && args ≠ [] then
    some (.line (.value key (stripInlineComment ([' '].intercalate args))))
  else none

/-- A line of a file: blank lines, comments, and lines that are malformed or say nothing are skipped. -/
def readLine (py : Python) (raw_line : Text) : Option Directive :=
  let line := strip raw_line
  if line = [] ∨ line.head? = some '#' then none
  else (splitDirective py line).bind fun parsed => directive parsed.1 parsed.2

def readLines (py : Python) (text : Text) : List Directive := (charBreaks.lines text).filterMap (readLine py)

/-! ### Files -/

/-- `_blocks` and `_loaded_files`. -/
structure Loading where
  blocks : List Block := []
  loaded : List Text := []
  deriving DecidableEq

/-- `values.setdefault(key, []).append(value)` -/
def Block.add (block : Block) (key value : Text) : Block :=
  { block with values := Dict.set key ((Dict.get block.values key).getD [] ++ [value]) block.values }

/-- A block is appended when it ends. -/
def Loading.finish (st : Loading) (current : Option Block) : Loading := { st with blocks := st.blocks ++ current.toList }

/-- The loop over the lines of a file, in the block that is open. -/
def loadLines (inc : Text → Loading → Option Loading) : List Directive → Option Block → Loading → Option Loading
  | [], current, st => some (st.finish current)
  | .line (.host patterns) :: lines, current, st => loadLines inc lines (some ⟨patterns, []⟩) (st.finish current)
  | .line .criteria :: lines, current, st => loadLines inc lines none (st.finish current)
  | .line (.value key value) :: lines, current, st => loadLines inc lines (current.map (·.add key value)) st
  | .include patterns :: lines, current, st =>
    (patterns.foldlM (fun st pattern => inc pattern st) st).bind (loadLines inc lines current)

section
variable (py : Python) (files : Files)

/-- The files that an `Include` names: what `_include` loops over. -/
def included (referring_file pattern : Text) : List Text :=
  let include_path := py.expandPath pattern
  let include_path := if include_path.head? = some '/' then include_path else files.beside referring_file include_path
  (files.glob include_path).mergeSort fun a b => decide (a ≤ b)

/-- `_load_file`, or nothing when the stack has no room for another call. -/
def loadFile : ℕ → Text → Loading → Option Loading
  | 0, _, _ => none
  | n + 1, path, st =>
    let path := files.resolve path
    if st.loaded.contains path then some st
    else
      let st := { st with loaded := path :: st.loaded }
      match files.read path with
      | none => some st
      | some text =>
        loadLines (fun pattern st => (included py files path pattern).foldlM (fun st matched => loadFile n matched st) st)
          (readLines py text) none st

/-- `SSHConfigResolver(path)`: its blocks. -/
def loadConfig (n : ℕ) (path : Text) : Option (List Block) := (loadFile py files n path {}).map Loading.blocks

end
end SshGpuConsole.Ssh.Config
