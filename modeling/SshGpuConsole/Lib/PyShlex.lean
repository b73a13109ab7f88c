import SshGpuConsole.Lib.PyText

/-!
# Splitting like a shell

`shlex.split(.., comments=False, posix=True)`: words between blanks, quotes and backslashes. A text whose quote or
backslash is not closed has no words.
-/

namespace PyShlex
open Shell (Text)

/-- `whitespace` of the lexer. -/
def isBlank (c : Char) : Bool := c = ' ' || c = '\t' || c = '\r' || c = '\n'

/-- `quotes` of the lexer. -/
def isQuote (c : Char) : Bool := c = '\'' || c = '"'

/-- Where the lexer stands: between words, in a word, in a quote, or behind a backslash, with the quote around it. -/
inductive Mode where
  | blank
  | word (token : Text)
  | quoted (quote : Char) (token : Text)
  | escaped (quote : Option Char) (token : Text)
  deriving DecidableEq

/-- Behind an escaped character. -/
def resume : Option Char → Text → Mode
  | none, token => .word token
  | some quote, token => .quoted quote token

/-- What the character behind a backslash adds: in a quote the backslash stays in front of what it does not escape. -/
def unescape (quote : Option Char) (c : Char) : Text :=
  match quote with
  | none => [c]
  | some quote => if c ≠ '\\' ∧ c ≠ quote then ['\\', c] else [c]

/-- One character: the next mode, and the word that ends. -/
def step : Mode → Char → Mode × Option Text
  | .blank, c =>
    if isBlank c then (.blank, none)
    else if c = '\\' then (.escaped none [], none)
    else if isQuote c then (.quoted c [], none)
    else (.word [c], none)
  | .word token, c =>
    if isBlank c then (.blank, some token)
    else if isQuote c then (.quoted c token, none)
    else if c = '\\' then (.escaped none token, none)
    else (.word (token ++ [c]), none)
  | .quoted quote token, c =>
    if c = quote then (.word token, none)
    else if c = '\\' ∧ quote = '"' then (.escaped (some quote) token, none)
    else (.quoted quote (token ++ [c]), none)
  | .escaped quote token, c => (resume quote (token ++ unescape quote c), none)

/-- The words from a mode on. A word that is empty was quoted: it counts. -/
def words : Mode → Text → Option (List Text)
  | .blank, [] => some []
  | .word token, [] => some [token]
  | .quoted _ _, [] => none
  | .escaped _ _, [] => none
  | mode, c :: cs => (words (step mode c).1 cs).map ((step mode c).2.toList ++ ·)

/-- `shlex.split` -/
def split (t : Text) : Option (List Text) := words .blank t

end PyShlex
