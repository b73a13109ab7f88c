import SshGpuConsole.Lib.Shell

/-!
# File name patterns

Python's `fnmatch.fnmatchcase`: a pattern is read into pieces, each of which takes one character of the name or any
number of them.
-/

namespace Fnmatch
open Shell (Text)

/-- A piece of a pattern. -/
inductive Piece where
  | star
  | any
  | literal (c : Char)
  | set (negated : Bool) (ranges : List (Char × Char))
  deriving DecidableEq, Repr

/-- What a set holds: `a-z` is a range, which is empty when its ends are the wrong way round. -/
def ranges : Text → List (Char × Char)
  | c :: '-' :: d :: rest => (c, d) :: ranges rest
  | c :: rest => (c, c) :: ranges rest
  | [] => []

/-- The content of a set, up to the bracket that closes it, and what is behind it; the first character is content,
also if it is a bracket. -/
def content (t : Text) : Option (Text × Text) :=
  let first := if t.head? = some ']' then [']'] else []
  let rest := t.drop first.length
  match rest.dropWhile (· ≠ ']') with
  | [] => none
  | _ :: behind => some (first ++ rest.takeWhile (· ≠ ']'), behind)

/-- The pieces of a pattern that is at most so long. -/
def piecesUpTo : ℕ → Text → List Piece
  | 0, _ | _ + 1, [] => []
  | n + 1, '*' :: rest => .star :: piecesUpTo n rest
  | n + 1, '?' :: rest => .any :: piecesUpTo n rest
  | n + 1, '[' :: rest =>
    let negated := rest.head? = some '!'
    match content (if negated then rest.tail else rest) with
    | none => .literal '[' :: piecesUpTo n rest
    | some (inside, behind) => .set negated (ranges inside) :: piecesUpTo n behind
  | n + 1, c :: rest => .literal c :: piecesUpTo n rest

def pieces (pattern : Text) : List Piece := piecesUpTo pattern.length pattern

/-- The pieces take the whole name. -/
def takes : List Piece → Text → Bool
  | [], name => name.isEmpty
  | .star :: ps, name => name.tails.any (takes ps)
  | _ :: _, [] => false
  | .any :: ps, _ :: name => takes ps name
  | .literal d :: ps, c :: name => c = d && takes ps name
  | .set negated rs :: ps, c :: name => (rs.any (fun r => r.1 ≤ c && c ≤ r.2) != negated) && takes ps name

/-- `fnmatch.fnmatchcase` -/
def fnmatchcase (name pattern : Text) : Bool := takes (pieces pattern) name

example : fnmatchcase "run-7.pt".toList "*-[!a-z].p?".toList = true := by decide +kernel

end Fnmatch
