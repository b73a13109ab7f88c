import SshGpuConsole.Lib.Shell

/-!
# POSIX path texts

The functions of Python's `posixpath` on path texts: nothing here looks at a file system.
-/

namespace PosixPath
open Shell (Text)

/-- `s.rstrip('/')`. -/
def rstripSlash (p : Text) : Text := (p.reverse.dropWhile (· = '/')).reverse

/-- `s.strip('/')`. -/
def stripSlash (p : Text) : Text := rstripSlash (p.dropWhile (· = '/'))

/-- The text up to and with the last slash. -/
def headSlash (p : Text) : Text := (p.reverse.dropWhile (· ≠ '/')).reverse

/-- `posixpath.basename`. -/
def basename (p : Text) : Text := (p.reverse.takeWhile (· ≠ '/')).reverse

/-- `posixpath.dirname`. -/
def dirname (p : Text) : Text :=
  let head := headSlash p
  if head.all (· = '/') then head else rstripSlash head

/-- `posixpath.join` of two parts. -/
def join (a b : Text) : Text :=
  if b.head? = some '/' then b
  else if a = [] || a.getLast? = some '/' then a ++ b
  else a ++ '/' :: b

/-- One round of the loop of `posixpath.normpath`, the kept components in reverse. -/
def normStep (rooted : Bool) (kept : List Text) (comp : Text) : List Text :=
  if comp = [] || comp = ['.'] then kept
  else if comp ≠ ['.', '.'] || (!rooted && kept.isEmpty) || kept.head? = some ['.', '.'] then comp :: kept
  else kept.tail

/-- The number of slashes a normalized path starts with. -/
def initialSlashes (p : Text) : Nat :=
  match p with
  | '/' :: '/' :: '/' :: _ => 1
  | '/' :: '/' :: _ => 2
  | '/' :: _ => 1
  | _ => 0

/-- `posixpath.normpath`. -/
def normpath (p : Text) : Text :=
  let slashes := initialSlashes p
  let comps := (p.splitOn '/').foldl (normStep (slashes ≠ 0)) []
  let path := List.replicate slashes '/' ++ ['/'].intercalate comps.reverse
  if path = [] then ['.'] else path

lemma slash_notMem_basename (p : Text) : '/' ∉ basename p := by
  intro h
  have hm := List.mem_takeWhile_imp (List.mem_reverse.1 h)
  simp at hm

/-- What follows the last slash is the base name. -/
lemma basename_append (a : Text) {b : Text} (h : '/' ∉ b) : basename (a ++ '/' :: b) = b := by
  have hb : ∀ c ∈ b.reverse, decide (c ≠ '/') = true := by
    intro c hc
    have hne : c ≠ '/' := fun he => h (he ▸ List.mem_reverse.1 hc)
    exact decide_eq_true hne
  have hs : (a ++ '/' :: b).reverse = b.reverse ++ '/' :: a.reverse := by simp
  rw [basename, hs, List.takeWhile_append_of_pos hb, List.takeWhile_cons_of_neg (by decide)]
  simp

example : normpath "/a/./b/../c//".toList = "/a/c".toList := by decide

end PosixPath
