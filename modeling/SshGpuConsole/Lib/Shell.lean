import Mathlib

/-!
# POSIX shell words

A lexer for the POSIX shell command language (section 2 of the standard, in the POSIX locale): quoting,
operators, comments and parameter references, as a transducer `step` from lexer modes and characters
to tokens. `run` feeds a text to the transducer and `lex` closes the last token. On top of it stand
quote removal (`text`), pathname expansion (`expand`), the argument vector of a text that is one
simple command (`argv`) and the value a word assigns (`assigns`).

`lex` answers `none` where the words of the text are not determined by the text alone: an open quote, a
command substitution, an arithmetic or braced expansion, or a `$` whose result the standard leaves
unspecified. A plain `$name` is kept as a piece of its word.

The two rules a quoting proof uses are `Reads` (what a text must do to be one word, with `Reads.bare`
for unquoted text and `lex_join` for texts between blanks) and its converse `inert_of_text_eq`: a word
that comes out of the lexer as the very text that went in had no active character in it.
-/

namespace Shell

/-- A text; the shell model and its users work on character lists. -/
abbrev Text := List Char

/-! ### Tokens -/

/-- One piece of a word: a literal character, quoted or bare, or a parameter reference. -/
inductive Piece where
  | lit (quoted : Bool) (c : Char)
  | param (quoted : Bool) (name : Text)
  deriving DecidableEq, Repr

/-- A word before expansion and quote removal. -/
abbrev Word := List Piece

/-- A token; an operator is kept character by character, `glued` to what stands before it or not. -/
inductive Token where
  | word (w : Word)
  | op (glued : Bool) (c : Char)
  deriving DecidableEq, Repr

/-- The blanks of the POSIX locale. -/
def isBlank (c : Char) : Bool := c = ' ' || c = '\t'

/-- The characters operators are made of, newline included. -/
def isOperator (c : Char) : Bool := c ∈ [';', '&', '|', '<', '>', '(', ')', '\n']

/-- What ends an unquoted word. -/
def isTerminator (c : Char) : Bool := isBlank c || isOperator c

/-- The characters that start a quotation or an expansion wherever they stand unquoted. -/
def isQuoting (c : Char) : Bool := c ∈ ['\'', '"', '\\', '$', '`']

/-- A character without meaning to the lexer inside an unquoted word. -/
def isPlain (c : Char) : Bool := !isTerminator c && !isQuoting c

/-- A text all of whose characters are plain. -/
def Inert (t : Text) : Prop := ∀ c ∈ t, isPlain c = true

instance (t : Text) : Decidable (Inert t) :=
  decidable_of_iff (t.all isPlain = true) List.all_eq_true

/-- The first character of a parameter name. -/
def isNameStart (c : Char) : Bool := (c.isAlpha && c.toNat < 128) || c = '_'

/-- A later character of a parameter name. -/
def isNameChar (c : Char) : Bool := isNameStart c || c.isDigit

/-- A positional or special parameter, named by one character. -/
def isSpecialParam (c : Char) : Bool := c.isDigit || c ∈ ['@', '*', '#', '?', '-', '$', '!']

/-! ### The lexer -/

/-- Where the lexer stands; the word under construction travels along. -/
inductive Mode where
  | gap (glued : Bool)
  | comment
  | bare (w : Word)
  | escaped (fresh : Bool) (w : Word)
  | single (w : Word)
  | double (w : Word)
  | doubleEscaped (w : Word)
  | dollar (quoted : Bool) (w : Word)
  | name (quoted : Bool) (w : Word) (n : Text)
  deriving DecidableEq, Repr

/-- One character of an unquoted word. -/
def stepBare (w : Word) (c : Char) : Option (Mode × List Token) :=
  if isBlank c then some (.gap false, [.word w])
  else if isOperator c then some (.gap true, [.word w, .op true c])
  else if c = '\'' then some (.single w, [])
  else if c = '"' then some (.double w, [])
  else if c = '\\' then some (.escaped false w, [])
  else if c = '$' then some (.dollar false w, [])
  else if c = '`' then none
  else some (.bare (w ++ [.lit false c]), [])

/-- One character between double quotes. -/
def stepDouble (w : Word) (c : Char) : Option (Mode × List Token) :=
  if c = '"' then some (.bare w, [])
  else if c = '\\' then some (.doubleEscaped w, [])
  else if c = '$' then some (.dollar true w, [])
  else if c = '`' then none
  else some (.double (w ++ [.lit true c]), [])

/-- Back from an expansion to the text it stood in. -/
def resume (quoted : Bool) (w : Word) : Mode := if quoted then .double w else .bare w

/-- One step of the lexer, with the tokens it completes. -/
def step : Mode → Char → Option (Mode × List Token)
  | .gap g, c =>
    if isBlank c then some (.gap false, [])
    else if isOperator c then some (.gap true, [.op g c])
    else if c = '#' then some (.comment, [])
    else if c = '\\' then some (.escaped true [], [])
    else stepBare [] c
  | .comment, c => if c = '\n' then some (.gap true, [.op false c]) else some (.comment, [])
  | .bare w, c => stepBare w c
  | .escaped fresh w, c =>
    -- an escaped newline is a line continuation and leaves nothing behind
    if c = '\n' then some (if fresh then .gap false else .bare w, [])
    else some (.bare (w ++ [.lit true c]), [])
  | .single w, c => if c = '\'' then some (.bare w, []) else some (.single (w ++ [.lit true c]), [])
  | .double w, c => stepDouble w c
  | .doubleEscaped w, c =>
    if c ∈ ['$', '`', '"', '\\'] then some (.double (w ++ [.lit true c]), [])
    else if c = '\n' then some (.double w, [])
    else some (.double (w ++ [.lit true '\\', .lit true c]), [])
  | .dollar q w, c =>
    if isNameStart c then some (.name q w [c], [])
    else if isSpecialParam c then some (resume q (w ++ [.param q [c]]), [])
    else none
  | .name q w n, c =>
    if isNameChar c then some (.name q w (n ++ [c]), [])
    else if q then stepDouble (w ++ [.param q n]) c
    else stepBare (w ++ [.param q n]) c

/-- The lexer over a whole text, left where the text ends. -/
def run : Mode → Text → Option (Mode × List Token)
  | m, [] => some (m, [])
  | m, c :: cs =>
    match step m c with
    | none => none
    | some (m', ts) => (run m' cs).map fun p => (p.1, ts ++ p.2)

/-- The token the end of the text completes; an open quote completes none. -/
def finish : Mode → Option (List Token)
  | .gap _ | .comment => some []
  | .bare w => some [.word w]
  | .name false w n => some [.word (w ++ [.param false n])]
  | _ => none

/-- The tokens of a text read from a mode. -/
def lex (m : Mode) (t : Text) : Option (List Token) :=
  match run m t with
  | none => none
  | some (m', ts) => (finish m').map (ts ++ ·)

@[simp] lemma run_nil (m : Mode) : run m [] = some (m, []) := rfl

/-- The lexer takes a text piece by piece. -/
lemma run_append (m : Mode) (a b : Text) :
    run m (a ++ b) = (run m a).bind fun p => (run p.1 b).map fun q => (q.1, p.2 ++ q.2) := by
  induction a generalizing m with
  | nil => simp
  | cons c a ih =>
    cases hs : step m c with
    | none => simp [run, hs]
    | some p => cases hr : run p.1 a <;> simp [run, hs, ih, hr, Function.comp_def]

/-- What the lexer says about a text continues from where it stands after a first part. -/
lemma lex_append {m m' : Mode} {a : Text} {ts : List Token} (h : run m a = some (m', ts)) (b : Text) :
    lex m (a ++ b) = (lex m' b).map (ts ++ ·) := by
  cases hr : run m' b with
  | none => simp [lex, run_append, h, hr]
  | some p => simp [lex, run_append, h, hr, Function.comp_def]

/-- Reading one character is one step. -/
lemma lex_cons (m : Mode) (c : Char) (cs : Text) :
    lex m (c :: cs) = (step m c).bind fun p => (lex p.1 cs).map (p.2 ++ ·) := by
  cases hs : step m c with
  | none => simp [lex, run, hs]
  | some p => cases hr : run p.1 cs <;> simp [lex, run, hs, hr, Function.comp_def]

/-! ### Words after quote removal -/

/-- The literal characters of a word, each with its quoting; none when an expansion is among them. -/
def literal : Word → Option (List (Bool × Char))
  | [] => some []
  | .lit q c :: w => (literal w).map ((q, c) :: ·)
  | .param _ _ :: _ => none

/-- A text as a word of literal pieces. -/
def lits (q : Bool) (t : Text) : Word := t.map (.lit q)

@[simp] lemma literal_lits (q : Bool) (t : Text) : literal (lits q t) = some (t.map fun c => (q, c)) := by
  induction t with
  | nil => rfl
  | cons c t ih => simp only [lits, List.map_cons, literal] at ih ⊢; rw [ih]; rfl

/-- The literals of a word in two parts. -/
lemma literal_append (w v : Word) :
    literal (w ++ v) = (literal w).bind fun a => (literal v).map (a ++ ·) := by
  induction w with
  | nil => simp [literal]
  | cons p w ih =>
    cases p with
    | lit q c =>
      simp only [List.cons_append, literal, ih]
      cases literal w with
      | none => rfl
      | some a => cases literal v <;> simp
    | param q n => rfl

/-- The text of a word after quote removal; none when it depends on an expansion. -/
def text (w : Word) : Option Text := (literal w).map (·.map Prod.snd)

@[simp] lemma text_lits (q : Bool) (t : Text) : text (lits q t) = some t := by
  simp [text, Function.comp_def]

/-- A word that has a text is as long as its text. -/
lemma text_length {w : Word} {t : Text} (h : text w = some t) : t.length = w.length := by
  induction w generalizing t with
  | nil => simp [text, literal] at h; simp [← h]
  | cons p w ih =>
    cases p with
    | lit q c =>
      cases hw : literal w with
      | none => simp [text, literal, hw] at h
      | some a =>
        simp only [text, literal, hw, Option.map_some, Option.some.injEq] at h
        have hlen := ih (t := a.map Prod.snd) (by simp [text, hw])
        simpa [← h] using hlen
    | param q n => simp [text, literal] at h

/-- The text of a word extends the text of a first part of it. -/
lemma text_prefix {w v : Word} {t : Text} (h : text (w ++ v) = some t) :
    ∃ a b, text w = some a ∧ text v = some b ∧ t = a ++ b := by
  simp only [text, literal_append] at h ⊢
  cases hw : literal w with
  | none => simp [hw] at h
  | some a =>
    cases hv : literal v with
    | none => simp [hw, hv] at h
    | some b => simp [hw, hv] at h ⊢; exact h.symm

/-! ### Pathname expansion -/

/-- One item of a bracket expression. -/
inductive Item where
  | range (lo hi : Char)
  | cls (name : Text)
  deriving DecidableEq, Repr

/-- One element of a pattern. -/
inductive Pat where
  | lit (c : Char)
  | any
  | star
  | bracket (negated : Bool) (items : List Item)
  deriving DecidableEq, Repr

/-- The named character classes, in the POSIX locale. -/
def inClass (name : Text) (c : Char) : Bool :=
  if 128 ≤ c.toNat then false
  else if name = "alpha".toList then c.isAlpha
  else if name = "digit".toList then c.isDigit
  else if name = "alnum".toList then c.isAlphanum
  else if name = "upper".toList then c.isUpper
  else if name = "lower".toList then c.isLower
  else if name = "space".toList then c ∈ [' ', '\t', '\n', '\r', '\x0b', '\x0c']
  else if name = "blank".toList then isBlank c
  else if name = "cntrl".toList then c.toNat < 32 || c.toNat = 127
  else if name = "print".toList then 32 ≤ c.toNat && c.toNat < 127
  else if name = "graph".toList then 32 < c.toNat && c.toNat < 127
  else if name = "punct".toList then 32 < c.toNat && c.toNat < 127 && !c.isAlphanum
  else if name = "xdigit".toList then c.isDigit || c.toLower ∈ ['a', 'b', 'c', 'd', 'e', 'f']
  else false

/-- Whether a character is meant by a bracket item. -/
def Item.has (c : Char) : Item → Bool
  | .range lo hi => lo ≤ c && c ≤ hi
  | .cls name => inClass name c

/-- The items up to the closing bracket, with what follows it; `first` allows a literal `]`. -/
def bracketItems : Nat → Bool → List (Bool × Char) → Option (List Item × List (Bool × Char))
  | 0, _, _ => none
  | _ + 1, _, [] => none
  | n + 1, first, (q, c) :: cs =>
    if c = ']' && !q && !first then some ([], cs)
    else match q, c, cs with
      | false, '[', (false, ':') :: rest =>
        let name := rest.takeWhile (·.2 ≠ ':')
        match rest.drop name.length with
        | (_, ':') :: (false, ']') :: rest' =>
          (bracketItems n false rest').map fun p => (.cls (name.map Prod.snd) :: p.1, p.2)
        | _ => (bracketItems n false cs).map fun p => (.range '[' '[' :: p.1, p.2)
      | _, _, (false, '-') :: (q', d) :: rest =>
        if d = ']' && !q' then (bracketItems n false cs).map fun p => (.range c c :: p.1, p.2)
        else (bracketItems n false rest).map fun p => (.range c d :: p.1, p.2)
      | _, _, _ => (bracketItems n false cs).map fun p => (.range c c :: p.1, p.2)

/-- A bracket expression after its opening bracket; one that never closes is no expression. -/
def bracketOf (cs : List (Bool × Char)) : Option (Pat × List (Bool × Char)) :=
  match cs with
  | (false, '!') :: rest => (bracketItems (rest.length + 1) true rest).map fun p => (.bracket true p.1, p.2)
  | _ => (bracketItems (cs.length + 1) true cs).map fun p => (.bracket false p.1, p.2)

/-- The pattern of a literal word: quoted characters stand for themselves. -/
def patternAux : Nat → List (Bool × Char) → List Pat
  | 0, _ | _, [] => []
  | n + 1, (true, c) :: cs => .lit c :: patternAux n cs
  | n + 1, (false, c) :: cs =>
    if c = '*' then .star :: patternAux n cs
    else if c = '?' then .any :: patternAux n cs
    else if c = '[' then
      match bracketOf cs with
      | some (b, rest) => b :: patternAux n rest
      | none => .lit '[' :: patternAux n cs
    else .lit c :: patternAux n cs

/-- The pattern of a literal word. -/
def pattern (cs : List (Bool × Char)) : List Pat := patternAux cs.length cs

/-- A star: any run of characters inside one path component, not starting at a leading period. -/
def starMatch (k : Bool → Text → Bool) : Bool → Text → Bool
  | start, [] => k start []
  | start, d :: ds =>
    !(start && d = '.') && (k start (d :: ds) || (d ≠ '/' && starMatch k false ds))

/-- Whether a pathname matches; `start` says that a path component starts here. -/
def matchPat : List Pat → Bool → Text → Bool
  | [], _, s => s.isEmpty
  | .lit c :: ps, _, d :: ds => d = c && matchPat ps (d = '/') ds
  | .any :: ps, start, d :: ds => d ≠ '/' && !(start && d = '.') && matchPat ps false ds
  | .bracket neg items :: ps, start, d :: ds =>
    d ≠ '/' && !(start && d = '.') && (items.any (Item.has d) != neg) && matchPat ps false ds
  | .star :: ps, start, s => starMatch (matchPat ps) start s
  | _ :: _, _, [] => false

/-- Whether pathname expansion looks at the directory for this word at all. -/
def isPattern (cs : List (Bool × Char)) : Bool := cs.any fun p => !p.1 && p.2 ∈ ['*', '?', '[']

/-- Pathname expansion against the pathnames of `dir`: the matches, or the word itself if none. -/
def expand (dir : List Text) (cs : List (Bool × Char)) : List Text :=
  if isPattern cs then
    match (dir.filter (matchPat (pattern cs) true)).dedup with
    | [] => [cs.map Prod.snd]
    | found => found
  else [cs.map Prod.snd]

/-- A word that starts with an unquoted tilde: tilde expansion replaces it. -/
def startsTilde : List (Bool × Char) → Bool
  | (false, '~') :: _ => true
  | _ => false

/-- The fields a word of a simple command becomes; none when they depend on more than the directory. -/
def fields (dir : List Text) (w : Word) : Option (List Text) := do
  let cs ← literal w
  if startsTilde cs then none else some (expand dir cs)

/-! ### Simple commands and assignments -/

/-- The words of a token list that holds nothing else. -/
def words : List Token → Option (List Word)
  | [] => some []
  | .word w :: ts => (words ts).map (w :: ·)
  | .op _ _ :: _ => none

/-- The words the grammar reserves at the start of a command. -/
def reserved : List Text :=
  ["!", "\x7b", "\x7d", "case", "do", "done", "elif", "else", "esac", "fi", "for", "if", "in", "then",
    "until", "while"].map String.toList

/-- A valid name in front of an unquoted `=`, with the rest of the word. -/
def assignSplit (cs : List (Bool × Char)) : Option (Text × List (Bool × Char)) :=
  let name := cs.takeWhile fun p => !p.1 && isNameChar p.2
  match cs.dropWhile fun p => !p.1 && isNameChar p.2 with
  | (false, '=') :: value =>
    if (name.head?.map fun p => isNameStart p.2).getD false then some (name.map Prod.snd, value) else none
  | _ => none

/-- A tilde-prefix in an assigned value: at its start or after an unquoted colon. -/
def hasTildePrefix : Bool → List (Bool × Char) → Bool
  | _, [] => false
  | start, (q, c) :: cs => (start && !q && c = '~') || hasTildePrefix (!q && c = ':') cs

/-- The name and the value of an assignment word, when no expansion changes the value. -/
def assigns (w : Word) : Option (Text × Text) := do
  let cs ← literal w
  let (name, value) ← assignSplit cs
  if hasTildePrefix true value then none else some (name, value.map Prod.snd)

/-- Whether a word in command position names the command to run. -/
def namesCommand (w : Word) : Bool :=
  match literal w with
  | none => true
  | some cs => (assignSplit cs).isNone && !(cs.all (!·.1) && cs.map Prod.snd ∈ reserved)

/-- The argument vector of a text that is exactly one simple command, run in directory `dir`. -/
def argv (dir : List Text) (t : Text) : Option (List Text) := do
  let ts ← lex (.gap false) t
  let ws ← words ts
  if (ws.head?.map namesCommand).getD false then
    let fs ← ws.mapM (fields dir)
    some fs.flatten
  else none

/-! ### Reading a text as one word -/

/-- Read after a blank or an operator, the text becomes the word `w` and nothing else. -/
def Reads (t : Text) (w : Word) : Prop := ∀ g, run (.gap g) t = some (.bare w, [])

/-- A plain character goes into the unquoted word it is read in. -/
lemma stepBare_plain {c : Char} (h : isPlain c = true) (w : Word) :
    stepBare w c = some (.bare (w ++ [.lit false c]), []) := by
  simp only [isPlain, isTerminator, isQuoting, Bool.and_eq_true, Bool.not_eq_true', Bool.or_eq_false_iff,
    decide_eq_false_iff_not, List.mem_cons, List.not_mem_nil, not_or, or_false] at h
  obtain ⟨⟨hb, ho⟩, h1, h2, h3, h4, h5⟩ := h
  simp [stepBare, hb, ho, h1, h2, h3, h4, h5]

/-- Plain text extends the unquoted word it is read in. -/
lemma run_bare_inert {t : Text} (h : Inert t) (w : Word) :
    run (.bare w) t = some (.bare (w ++ lits false t), []) := by
  induction t generalizing w with
  | nil => simp [lits]
  | cons c t ih =>
    have hc := stepBare_plain (h c (by simp)) w
    have ht := ih (fun d hd => h d (by simp [hd])) (w ++ [.lit false c])
    simp only [run, step, hc, ht, Option.map_some, List.nil_append, Option.some.injEq, Prod.mk.injEq,
      and_true, Mode.bare.injEq]
    simp [lits]

/-- Plain text that does not start a comment is one word of its own characters. -/
lemma Reads.bare {c : Char} {t : Text} (h : Inert (c :: t)) (hc : c ≠ '#') :
    Reads (c :: t) (lits false (c :: t)) := by
  intro g
  have hp := h c (by simp)
  have hs : step (.gap g) c = some (.bare [.lit false c], []) := by
    have hb := stepBare_plain hp []
    simp only [isPlain, isTerminator, isQuoting, Bool.and_eq_true, Bool.not_eq_true', Bool.or_eq_false_iff,
      decide_eq_false_iff_not, List.mem_cons, List.not_mem_nil, not_or, or_false] at hp
    simp only [step, hp.1.1, hp.1.2, hc, hp.2.2.2.1, Bool.false_eq_true, if_false, hb]
    rfl
  have ht := run_bare_inert (t := t) (fun d hd => h d (by simp [hd])) [.lit false c]
  simp [run, hs, ht, lits]

/-- The words of a list of word tokens. -/
@[simp] lemma words_map_word (ws : List Word) : words (ws.map .word) = some ws := by
  induction ws with
  | nil => rfl
  | cons w ws ih => simp [words, ih]

/-- A token list with only words in it is the list of these words. -/
lemma words_eq_some {ts : List Token} {ws : List Word} (h : words ts = some ws) :
    ts = ws.map .word := by
  induction ts generalizing ws with
  | nil => cases h; rfl
  | cons tk ts ih =>
    cases tk with
    | word w =>
      obtain ⟨ws', hws', rfl⟩ := Option.map_eq_some_iff.1 h
      rw [ih hws', List.map_cons]
    | op g c => cases h

/-- Texts, each followed by a blank. -/
def spaced (ps : List Text) : Text := ps.flatMap (· ++ [' '])

/-- A blank-joined list in two parts. -/
lemma intercalate_append (as : List Text) {bs : List Text} (hb : bs ≠ []) :
    [' '].intercalate (as ++ bs) = spaced as ++ [' '].intercalate bs := by
  induction as with
  | nil => rfl
  | cons a as ih =>
    have hne : as ++ bs ≠ [] := by simp [hb]
    obtain ⟨c, cs, hcs⟩ := List.exists_cons_of_ne_nil hne
    rw [List.cons_append, hcs, List.intercalate_cons_cons, ← hcs, ih]
    simp [spaced]

/-- A text in a command line, the word it reads as and the argument it is meant to be. -/
structure Arg where
  source : Text
  word : Word
  value : Text

/-- Texts that read as words, each followed by a blank, read as these words. -/
lemma lex_spaced {as : List Arg} (h : ∀ a ∈ as, Reads a.source a.word) (rest : Text) :
    lex (.gap false) (spaced (as.map Arg.source) ++ rest) =
      (lex (.gap false) rest).map (as.map (.word ∘ Arg.word) ++ ·) := by
  induction as with
  | nil => simp [spaced]
  | cons a as ih =>
    have hs : step (.bare a.word) ' ' = some (.gap false, [.word a.word]) := rfl
    have hj : spaced ((a :: as).map Arg.source) ++ rest =
        a.source ++ ' ' :: (spaced (as.map Arg.source) ++ rest) := by simp [spaced]
    rw [hj, lex_append (h a (by simp) false), lex_cons]
    simp [hs, ih fun q hq => h q (by simp [hq]), Function.comp_def]

/-- Texts that read as words, put between blanks, read as these words. -/
lemma lex_join {as : List Arg} (h : ∀ a ∈ as, Reads a.source a.word) :
    lex (.gap false) ([' '].intercalate (as.map Arg.source)) = some (as.map (.word ∘ Arg.word)) := by
  cases hl : as.getLast? with
  | none => rw [List.getLast?_eq_none_iff.1 hl]; rfl
  | some z =>
    obtain ⟨init, rfl⟩ := List.getLast?_eq_some_iff.1 hl
    have hz : lex (.gap false) z.source = some [.word z.word] := by
      simp [lex, h z (by simp) false, finish]
    rw [List.map_append, intercalate_append _ (by simp), lex_spaced fun a ha => h a (by simp [ha])]
    simp [hz]

/-! ### Fields and argument vectors -/

/-- No directory gives pathname expansion anything to replace the word by. -/
def NeverGlobs (cs : List (Bool × Char)) : Prop :=
  isPattern cs = true → ∀ path, matchPat (pattern cs) true path = true → path = cs.map Prod.snd

/-- What `NeverGlobs` is for: the word stands for itself in every directory. -/
lemma neverGlobs_iff {cs : List (Bool × Char)} :
    NeverGlobs cs ↔ ∀ dir, expand dir cs = [cs.map Prod.snd] := by
  constructor
  · intro h dir
    by_cases hp : isPattern cs = true
    · simp only [expand, hp, if_true]
      cases hf : (dir.filter (matchPat (pattern cs) true)).dedup with
      | nil => rfl
      | cons a l =>
        have hall : ∀ b ∈ a :: l, b = cs.map Prod.snd := by
          intro b hb
          rw [← hf, List.mem_dedup, List.mem_filter] at hb
          exact h hp b hb.2
        have hnd : (a :: l).Nodup := hf ▸ List.nodup_dedup _
        have ha := hall a (by simp)
        cases l with
        | nil => simp [ha]
        | cons b l =>
          have hb := hall b (by simp)
          simp [ha, hb] at hnd
    · simp [expand, hp]
  · intro h hp path hm
    simpa [expand, hp, hm] using h [path]

/-- Expansion always leaves at least one field. -/
lemma expand_ne_nil (dir : List Text) (cs : List (Bool × Char)) : expand dir cs ≠ [] := by
  simp only [expand]
  split_ifs
  · cases (dir.filter (matchPat (pattern cs) true)).dedup <;> simp
  · simp

/-- Quoted text is one field, the text itself. -/
lemma fields_quoted (dir : List Text) (t : Text) : fields dir (lits true t) = some [t] := by
  have hp : isPattern (t.map fun c => (true, c)) = false := by simp [isPattern]
  have ht : startsTilde (t.map fun c => (true, c)) = false := by cases t <;> rfl
  simp [fields, ht, expand, hp, Function.comp_def]

/-- Unquoted text without a tilde in front becomes what pathname expansion makes of it. -/
lemma fields_bare (dir : List Text) {t : Text} (h : t.head? ≠ some '~') :
    fields dir (lits false t) = some (expand dir (t.map fun c => (false, c))) := by
  have ht : startsTilde (t.map fun c => (false, c)) = false := by
    cases t with
    | nil => rfl
    | cons c t =>
      have hc : c ≠ '~' := by simpa using h
      simp only [List.map_cons, startsTilde]
      split
      · rename_i heq; simp at heq; exact absurd heq.1 hc
      · rfl
  simp [fields, ht]

/-- What `argv` makes of a command line whose words are known. -/
lemma argv_of_lex {dir : List Text} {t : Text} {ws : List Word} {fs : List (List Text)}
    (h : lex (.gap false) t = some (ws.map .word)) (hc : (ws.head?.map namesCommand).getD false = true)
    (hf : ws.mapM (fields dir) = some fs) : argv dir t = some fs.flatten := by
  simp [argv, h, hc, hf]

/-- Words with one field each, in order. -/
lemma mapM_fields {dir : List Text} {as : List Arg} {f : Arg → List Text}
    (hf : ∀ a ∈ as, fields dir a.word = some (f a)) :
    (as.map Arg.word).mapM (fields dir) = some (as.map f) := by
  induction as with
  | nil => rfl
  | cons a as ih => simp [hf a (by simp), ih fun q hq => hf q (by simp [hq])]

/-- A command line of words that stand for their values has these values as its arguments. -/
lemma argv_join {dir : List Text} {as : List Arg} (h : ∀ a ∈ as, Reads a.source a.word)
    (hc : ((as.map Arg.word).head?.map namesCommand).getD false = true)
    (hf : ∀ a ∈ as, fields dir a.word = some [a.value]) :
    argv dir ([' '].intercalate (as.map Arg.source)) = some (as.map Arg.value) := by
  have hl := lex_join h
  rw [← List.map_map] at hl
  rw [argv_of_lex hl hc (mapM_fields hf)]
  exact congrArg some (List.flatMap_pure_eq_map Arg.value as)

/-- An assignment word has the text of its name, an equals sign and its value; no tilde-prefix is in
the value. -/
lemma text_of_assigns {w : Word} {name value : Text} (h : assigns w = some (name, value)) :
    ∃ n v, literal w = some (n ++ (false, '=') :: v) ∧ n.map Prod.snd = name ∧ v.map Prod.snd = value ∧
      hasTildePrefix true v = false := by
  simp only [assigns, Option.bind_eq_bind] at h
  obtain ⟨cs, hcs, h⟩ := Option.bind_eq_some_iff.1 h
  obtain ⟨⟨n, v⟩, hs, h⟩ := Option.bind_eq_some_iff.1 h
  split_ifs at h with ht
  obtain ⟨rfl, rfl⟩ := Prod.mk.inj (Option.some.inj h)
  simp only [assignSplit] at hs
  split at hs
  · rename_i vs hd
    split_ifs at hs
    obtain ⟨rfl, rfl⟩ := Prod.mk.inj (Option.some.inj hs)
    refine ⟨_, vs, ?_, rfl, rfl, by simpa using ht⟩
    rw [← hd, List.takeWhile_append_dropWhile, hcs]
  · cases hs

/-- The words behind an argument vector. -/
lemma lex_of_argv {dir ys : List Text} {t : Text} (h : argv dir t = some ys) :
    ∃ (ws : List Word) (fs : List (List Text)), lex (.gap false) t = some (ws.map .word) ∧ ws.mapM (fields dir) = some fs ∧
      fs.flatten = ys := by
  simp only [argv, Option.bind_eq_bind] at h
  obtain ⟨ts, hl, h⟩ := Option.bind_eq_some_iff.1 h
  obtain ⟨ws, hw, h⟩ := Option.bind_eq_some_iff.1 h
  split_ifs at h
  obtain ⟨fs, hf, h⟩ := Option.bind_eq_some_iff.1 h
  exact ⟨ws, fs, by rw [hl, words_eq_some hw], hf, by simpa using h⟩

/-- In an empty directory the only field of a word is its text. -/
lemma fields_nil {w : Word} {f : List Text} (h : fields [] w = some f) :
    ∃ t, text w = some t ∧ f = [t] := by
  simp only [fields, Option.bind_eq_bind] at h
  obtain ⟨cs, hcs, h⟩ := Option.bind_eq_some_iff.1 h
  split_ifs at h
  have he : expand [] cs = [cs.map Prod.snd] := by simp [expand]
  refine ⟨cs.map Prod.snd, by simp [text, hcs], ?_⟩
  rw [← he]
  exact (Option.some.inj h).symm

/-- In an empty directory the arguments are the texts of the words. -/
lemma texts_of_fields_nil {ws : List Word} {fs : List (List Text)} (h : ws.mapM (fields []) = some fs) :
    ws.map text = fs.flatten.map some := by
  induction ws generalizing fs with
  | nil => cases h; rfl
  | cons w ws ih =>
    rw [List.mapM_cons] at h
    obtain ⟨f, hf, h⟩ := Option.bind_eq_some_iff.1 h
    obtain ⟨fs', hfs, h⟩ := Option.bind_eq_some_iff.1 h
    obtain rfl := Option.some.inj h
    obtain ⟨t, ht, rfl⟩ := fields_nil hf
    simp [ht, ih hfs]

/-- Nonempty lists that concatenate to one element each are singletons. -/
lemma singletons_of_flatMap {α β : Type} {f : α → List β} {g : α → β} {as : List α}
    (hne : ∀ a ∈ as, f a ≠ []) (h : as.flatMap f = as.map g) : ∀ a ∈ as, f a = [g a] := by
  induction as with
  | nil => simp
  | cons a as ih =>
    obtain ⟨x, xs, hx⟩ := List.exists_cons_of_ne_nil (hne a (by simp))
    have hge : as.length ≤ (as.flatMap f).length := by
      clear h ih
      induction as with
      | nil => simp
      | cons b bs ihb =>
        have hb := List.length_pos_iff.2 (hne b (by simp))
        have := ihb fun c hc => hne c (by simp at hc ⊢; tauto)
        simp only [List.flatMap_cons, List.length_append, List.length_cons]
        omega
    simp only [List.flatMap_cons, hx, List.cons_append, List.map_cons, List.cons.injEq] at h
    obtain ⟨rfl, h⟩ := h
    have hxs : xs = [] := by
      have := congrArg List.length h
      simp only [List.length_append, List.length_map] at this
      exact List.length_eq_zero_iff.1 (by omega)
    subst hxs
    exact List.forall_mem_cons.2 ⟨hx, ih (fun b hb => hne b (by simp [hb])) (by simpa using h)⟩

/-- Where the arguments of a command line are the intended values, every word has its value as its
only field. -/
lemma fields_of_argv {dir : List Text} {as : List Arg} {f : Arg → List Text}
    (h : ∀ a ∈ as, Reads a.source a.word)
    (hc : ((as.map Arg.word).head?.map namesCommand).getD false = true)
    (hf : ∀ a ∈ as, fields dir a.word = some (f a)) (hne : ∀ a ∈ as, f a ≠ [])
    (hv : argv dir ([' '].intercalate (as.map Arg.source)) = some (as.map Arg.value)) :
    ∀ a ∈ as, f a = [a.value] := by
  have hl := lex_join h
  rw [← List.map_map] at hl
  rw [argv_of_lex hl hc (mapM_fields hf)] at hv
  exact singletons_of_flatMap hne (Option.some.inj hv)

/-! ### A word that equals its own source text -/

/-- The word under construction. -/
def Mode.held : Mode → Word
  | .gap _ | .comment => []
  | .bare w | .escaped _ w | .single w | .double w | .doubleEscaped w | .dollar _ w | .name _ w _ => w

/-- The lexer stands inside a word. -/
def Mode.inWord : Mode → Bool
  | .gap _ | .comment | .escaped true _ => false
  | _ => true

/-- The lexer stands inside a parameter reference. -/
def Mode.inParam : Mode → Bool
  | .dollar _ _ | .name _ _ _ => true
  | _ => false

/-- Characters that were read and may yet come into the word, plus the one that was lost for good. -/
def Mode.behind : Mode → Nat
  | .doubleEscaped _ => 2
  | _ => 1

/-- A step inside a word keeps what the word has, whether it goes on or ends. -/
lemma step_inWord {m m' : Mode} {c : Char} {ts : List Token} (hm : m.inWord = true)
    (h : step m c = some (m', ts)) :
    (ts = [] ∧ m'.inWord = true ∧ m.held <+: m'.held) ∨
      ∃ w ts', ts = .word w :: ts' ∧ m.held <+: w := by
  cases m with
  | gap g => simp [Mode.inWord] at hm
  | comment => simp [Mode.inWord] at hm
  | bare w =>
    simp only [step, stepBare] at h
    split_ifs at h <;> cases h <;> simp [Mode.inWord, Mode.held]
  | escaped fresh w =>
    cases fresh with
    | true => simp [Mode.inWord] at hm
    | false =>
      simp only [step, Bool.false_eq_true, if_false] at h
      split_ifs at h <;> cases h <;> simp [Mode.inWord, Mode.held]
  | single w =>
    simp only [step] at h
    split_ifs at h <;> cases h <;> simp [Mode.inWord, Mode.held]
  | double w =>
    simp only [step, stepDouble] at h
    split_ifs at h <;> cases h <;> simp [Mode.inWord, Mode.held]
  | doubleEscaped w =>
    simp only [step] at h
    split_ifs at h <;> cases h <;> simp [Mode.inWord, Mode.held]
  | dollar q w =>
    simp only [step] at h
    cases q <;> split_ifs at h <;> cases h <;> simp [Mode.inWord, Mode.held, resume]
  | name q w n =>
    simp only [step, stepBare, stepDouble] at h
    split_ifs at h <;> cases h <;> simp [Mode.inWord, Mode.held]

/-- The word a text completes extends the word under construction. -/
lemma held_prefix {m : Mode} {t : Text} {x : Word} {ts : List Token} (hm : m.inWord = true)
    (h : lex m t = some (.word x :: ts)) : m.held <+: x := by
  induction t generalizing m with
  | nil =>
    cases m with
    | bare w => simp [lex, finish] at h; simp [Mode.held, h.1]
    | name q w n => cases q <;> simp [lex, finish] at h; simp [Mode.held, ← h.1]
    | gap g => simp [Mode.inWord] at hm
    | comment => simp [Mode.inWord] at hm
    | _ => simp [lex, finish] at h
  | cons c t ih =>
    rw [lex_cons] at h
    cases hs : step m c with
    | none => simp [hs] at h
    | some p =>
      obtain ⟨m', out⟩ := p
      simp only [hs, Option.bind_some] at h
      rcases step_inWord hm hs with ⟨rfl, hm', hp⟩ | ⟨w, ts', rfl, hp⟩
      · exact hp.trans (ih hm' (by simpa using h))
      · obtain ⟨rest, -, hr⟩ := Option.map_eq_some_iff.1 h
        simp only [List.cons_append, List.cons.injEq, Token.word.injEq] at hr
        exact hr.1 ▸ hp

/-- A word with a parameter reference in it has no text of its own. -/
lemma text_none_of_param {w x : Word} {q : Bool} {n : Text} (h : w ++ [.param q n] <+: x) :
    text x = none := by
  obtain ⟨v, rfl⟩ := h
  have hn : literal (w ++ [Piece.param q n]) = none := by
    cases hw : literal w <;> simp [literal_append, hw, literal]
  rw [text, literal_append, hn]
  rfl

/-- A word completed from inside a parameter reference has no text of its own. -/
lemma text_none_of_inParam {m : Mode} {t : Text} {x : Word} {ts : List Token} (hm : m.inParam = true)
    (h : lex m t = some (.word x :: ts)) : text x = none := by
  induction t generalizing m with
  | nil =>
    cases m with
    | name q w n =>
      cases q <;> simp [lex, finish] at h
      exact text_none_of_param (w := w) (q := false) (n := n) (by simp [← h.1])
    | dollar q w => simp [lex, finish] at h
    | _ => simp [Mode.inParam] at hm
  | cons c t ih =>
    rw [lex_cons] at h
    cases m with
    | dollar q w =>
      simp only [step] at h
      split_ifs at h
      · exact ih (m := .name q w [c]) rfl (by simpa using h)
      · have hl : lex (resume q (w ++ [.param q [c]])) t = some (.word x :: ts) := by simpa using h
        have hp := held_prefix (by cases q <;> rfl) hl
        exact text_none_of_param (w := w) (q := q) (n := [c]) (by cases q <;> exact hp)
      · simp at h
    | name q w n =>
      by_cases hc : isNameChar c = true
      · simp only [step, hc, if_true] at h
        exact ih (m := .name q w (n ++ [c])) rfl (by simpa using h)
      · have hs : ∃ m', m'.inWord = true ∧ m'.held = w ++ [.param q n] ∧
            step m' c = step (.name q w n) c := by
          cases q
          · exact ⟨.bare (w ++ [.param false n]), rfl, rfl, by simp [step, hc]⟩
          · exact ⟨.double (w ++ [.param true n]), rfl, rfl, by simp [step, hc]⟩
        obtain ⟨m', hm', hh, hstep⟩ := hs
        rw [← hstep, ← lex_cons] at h
        exact text_none_of_param (hh ▸ held_prefix hm' h)
    | _ => simp [Mode.inParam] at hm

/-- A step inside a word over a character that ends no word adds at most what was read. -/
lemma step_behind {m m' : Mode} {c : Char} {ts : List Token} (hm : m.inWord = true)
    (hp : m.inParam = false) (hc : isTerminator c = false) (h : step m c = some (m', ts)) :
    ts = [] ∧ m'.inWord = true ∧
      (m'.inParam = true ∨ m'.held.length + m'.behind ≤ m.held.length + m.behind + 1) := by
  simp only [isTerminator, Bool.or_eq_false_iff] at hc
  cases m with
  | gap g => simp [Mode.inWord] at hm
  | comment => simp [Mode.inWord] at hm
  | bare w =>
    simp only [step, stepBare, hc.1, hc.2, Bool.false_eq_true, if_false] at h
    split_ifs at h <;> cases h <;> simp [Mode.inWord, Mode.inParam, Mode.held, Mode.behind]
  | escaped fresh w =>
    cases fresh with
    | true => simp [Mode.inWord] at hm
    | false =>
      simp only [step, Bool.false_eq_true, if_false] at h
      split_ifs at h <;> cases h <;> simp [Mode.inWord, Mode.held, Mode.behind]
  | single w =>
    simp only [step] at h
    split_ifs at h <;> cases h <;> simp [Mode.inWord, Mode.held, Mode.behind]
  | double w =>
    simp only [step, stepDouble] at h
    split_ifs at h <;> cases h <;> simp [Mode.inWord, Mode.inParam, Mode.held, Mode.behind]
  | doubleEscaped w =>
    simp only [step] at h
    split_ifs at h <;> cases h <;> simp [Mode.inWord, Mode.held, Mode.behind]
  | dollar q w => simp [Mode.inParam] at hp
  | name q w n => simp [Mode.inParam] at hp

/-- A terminator ends an unquoted word. -/
lemma lex_bare_terminator {w x : Word} {d : Char} {rest : Text} {ts : List Token}
    (hd : isTerminator d = true) (h : lex (.bare w) (d :: rest) = some (.word x :: ts)) : x = w := by
  simp only [isTerminator, Bool.or_eq_true] at hd
  rw [lex_cons] at h
  by_cases hb : isBlank d = true
  · simp only [step, stepBare, hb, if_true, Option.bind_some, Option.map_eq_some_iff] at h
    obtain ⟨a, -, ha⟩ := h
    simp only [List.cons_append, List.cons.injEq, Token.word.injEq] at ha
    exact ha.1.symm
  · have ho := hd.resolve_left hb
    simp only [step, stepBare, hb, ho, if_true, Bool.false_eq_true, if_false, Option.bind_some,
      Option.map_eq_some_iff] at h
    obtain ⟨a, -, ha⟩ := h
    simp only [List.cons_append, List.cons.injEq, Token.word.injEq] at ha
    exact ha.1.symm

/-- The first terminator met inside a word that is behind its source shows at an index below `k`: there
the word's text ends, or it has the terminator itself. -/
lemma text_at_terminator {m : Mode} {d : Char} {rest : Text} {x : Word} {ts : List Token} {y : Text}
    {k : Nat} (hm : m.inWord = true) (hp : m.inParam = true ∨ m.held.length + m.behind ≤ k)
    (hd : isTerminator d = true) (hn : d ≠ '\n') (h : lex m (d :: rest) = some (.word x :: ts))
    (hy : text x = some y) : ∃ i < k, y[i]? = none ∨ y[i]? = some d := by
  have hparam : m.inParam = false := by
    by_contra hc
    rw [text_none_of_inParam (by simpa using hc) h] at hy
    cases hy
  replace hp : m.held.length + m.behind ≤ k := by simpa [hparam] using hp
  -- what a mode that takes `d` into the word makes of it
  have grow : ∀ (m' : Mode) (v : Word) (a : Text), m'.inWord = true → m'.held = m.held ++ v →
      text v = some (a ++ [d]) → step m d = some (m', []) →
      y[m.held.length + a.length]? = some d := by
    intro m' v a hm' hh hv hs
    rw [lex_cons, hs] at h
    have hpre := held_prefix hm' (by simpa using h)
    rw [hh] at hpre
    obtain ⟨z, rfl⟩ := hpre
    obtain ⟨ab, e, hab, -, rfl⟩ := text_prefix hy
    obtain ⟨b, f, hb, hf, rfl⟩ := text_prefix hab
    rw [hv] at hf
    cases hf
    rw [← text_length hb]
    simp
  cases m with
  | gap g => simp [Mode.inWord] at hm
  | comment => simp [Mode.inWord] at hm
  | bare w =>
    have hx := lex_bare_terminator hd h
    subst hx
    simp only [Mode.held, Mode.behind] at hp
    exact ⟨x.length, by omega, .inl (by simp [text_length hy])⟩
  | escaped fresh w =>
    cases fresh with
    | true => simp [Mode.inWord] at hm
    | false =>
      simp only [Mode.held, Mode.behind] at hp
      refine ⟨w.length, by omega, .inr ?_⟩
      simpa [Mode.held] using grow (.bare (w ++ [.lit true d])) [.lit true d] [] rfl rfl rfl (by simp [step, hn])
  | single w =>
    have hq : d ≠ '\'' := by rintro rfl; exact absurd hd (by decide)
    simp only [Mode.held, Mode.behind] at hp
    refine ⟨w.length, by omega, .inr ?_⟩
    simpa [Mode.held] using grow (.single (w ++ [.lit true d])) [.lit true d] [] rfl rfl rfl (by simp [step, hq])
  | double w =>
    have hq : d ≠ '"' ∧ d ≠ '\\' ∧ d ≠ '$' ∧ d ≠ '`' := by
      refine ⟨?_, ?_, ?_, ?_⟩ <;> (rintro rfl; exact absurd hd (by decide))
    simp only [Mode.held, Mode.behind] at hp
    refine ⟨w.length, by omega, .inr ?_⟩
    simpa [Mode.held] using grow (.double (w ++ [.lit true d])) [.lit true d] [] rfl rfl rfl
      (by simp [step, stepDouble, hq])
  | doubleEscaped w =>
    have hq : d ∉ ['$', '`', '"', '\\'] := by
      intro hmem
      simp only [List.mem_cons, List.not_mem_nil, or_false] at hmem
      rcases hmem with rfl | rfl | rfl | rfl <;> exact absurd hd (by decide)
    simp only [Mode.held, Mode.behind] at hp
    refine ⟨w.length + 1, by omega, .inr ?_⟩
    exact grow (.double (w ++ [.lit true '\\', .lit true d])) [.lit true '\\', .lit true d] ['\\']
      rfl rfl rfl (by simp only [step, hq, hn, if_false])
  | dollar q w => simp [Mode.inParam] at hparam
  | name q w n => simp [Mode.inParam] at hparam

/-- The same over a stretch without terminators in front of the terminator. -/
lemma text_at_first_terminator {u : Text} {m : Mode} {d : Char} {rest : Text} {x : Word}
    {ts : List Token} {y : Text} {k : Nat} (hm : m.inWord = true)
    (hp : m.inParam = true ∨ m.held.length + m.behind ≤ k) (hu : ∀ c ∈ u, isTerminator c = false)
    (hd : isTerminator d = true) (hn : d ≠ '\n')
    (h : lex m (u ++ d :: rest) = some (.word x :: ts)) (hy : text x = some y) :
    ∃ i < k + u.length, y[i]? = none ∨ y[i]? = some d := by
  induction u generalizing m k with
  | nil => exact text_at_terminator hm hp hd hn h hy
  | cons c u ih =>
    have hparam : m.inParam = false := by
      by_contra hc
      rw [text_none_of_inParam (by simpa using hc) h] at hy
      cases hy
    replace hp : m.held.length + m.behind ≤ k := by simpa [hparam] using hp
    rw [List.cons_append, lex_cons] at h
    cases hs : step m c with
    | none => simp [hs] at h
    | some p =>
      obtain ⟨m', out⟩ := p
      obtain ⟨rfl, hm', hb⟩ := step_behind hm hparam (hu c (by simp)) hs
      obtain ⟨i, hi, hyi⟩ := ih (k := k + 1) hm' (hb.imp_right fun hb => by omega)
        (fun e he => hu e (by simp [he])) (by simpa [hs] using h)
      exact ⟨i, by simp only [List.length_cons]; omega, hyi⟩

/-- A text splits at its first character with a property. -/
lemma split_first {p : Char → Bool} {t : Text} (h : ∃ c ∈ t, p c = true) :
    ∃ u c v, t = u ++ c :: v ∧ (∀ d ∈ u, p d = false) ∧ p c = true := by
  induction t with
  | nil => simp at h
  | cons a t ih =>
    by_cases ha : p a = true
    · exact ⟨[], a, t, rfl, by simp, ha⟩
    · obtain ⟨u, c, v, rfl, hu, hc⟩ := ih (by simpa [ha] using h)
      refine ⟨a :: u, c, v, rfl, ?_, hc⟩
      simpa [ha] using hu

/-- A word that comes out as the text that went in was read from plain characters only: the first
quoting character would put the word behind its source, and the next terminator would show it. -/
theorem inert_of_text_eq {w x : Word} {y t : Text} {d : Char} {rest : Text} {ts : List Token}
    (hw : text w = some y) (hyt : ∀ c ∈ y, isTerminator c = false) (hnl : '\n' ∉ t)
    (hd : isTerminator d = true) (hdn : d ≠ '\n')
    (h : lex (.bare w) (t ++ d :: rest) = some (.word x :: ts)) (hx : text x = some (y ++ t)) :
    Inert t := by
  intro a ha
  by_contra hna
  obtain ⟨u, c, v, rfl, hu, hc⟩ := split_first (p := fun c => !isPlain c) ⟨a, ha, by simpa using hna⟩
  have hui : Inert u := fun e he => by simpa using hu e he
  rw [List.append_assoc, lex_append (run_bare_inert hui w), List.cons_append] at h
  have hl : (w ++ lits false u).length = y.length + u.length := by simp [lits, text_length hw]
  have hut : ∀ e ∈ u, isTerminator e = false := fun e he => by
    have := hui e he
    simp only [isPlain, Bool.and_eq_true, Bool.not_eq_true'] at this
    exact this.1
  have hlen : (y ++ (u ++ c :: v)).length = x.length := text_length hx
  by_cases hct : isTerminator c = true
  · -- the word ends too early
    have hxw := lex_bare_terminator hct (by simpa using h)
    simp only [hxw, hl, List.length_append, List.length_cons] at hlen
    omega
  · -- a quoting character: look at the first terminator behind it
    have hq : isQuoting c = true := by
      simp only [isPlain, Bool.not_eq_true'] at hc
      simpa [hct] using hc
    obtain ⟨v₁, d', rest', hv, hv₁, hd', hdn', htail⟩ : ∃ v₁ d' rest', v ++ d :: rest = v₁ ++ d' :: rest' ∧
        (∀ e ∈ v₁, isTerminator e = false) ∧ isTerminator d' = true ∧ d' ≠ '\n' ∧ v₁ <+: v := by
      by_cases ht : ∃ e ∈ v, isTerminator e = true
      · obtain ⟨v₁, d', v₂, rfl, hv₁, hd'⟩ := split_first ht
        exact ⟨v₁, d', v₂ ++ d :: rest, by simp, hv₁, hd', by rintro rfl; simp at hnl, by simp⟩
      · exact ⟨v, d, rest, rfl, fun e he => by simpa using fun hte => ht ⟨e, he, hte⟩, hd, hdn,
          List.prefix_refl v⟩
    obtain ⟨m', hm', hb, hs⟩ : ∃ m', m'.inWord = true ∧
        (m'.inParam = true ∨ m'.held.length + m'.behind ≤ y.length + u.length + 1) ∧
        lex m' (v₁ ++ d' :: rest') = some (.word x :: ts) := by
      simp only [List.nil_append, Option.map_id', hv, lex_cons, step, stepBare] at h
      simp only [isTerminator, Bool.not_eq_true, Bool.or_eq_false_iff] at hct
      simp only [hct.1, hct.2, Bool.false_eq_true, if_false] at h
      simp only [isQuoting, List.mem_cons, List.not_mem_nil, or_false, decide_eq_true_eq] at hq
      rcases hq with rfl | rfl | rfl | rfl | rfl
      · exact ⟨.single (w ++ lits false u), rfl, .inr (by simp [Mode.held, Mode.behind] at hl ⊢; omega),
          by simpa using h⟩
      · exact ⟨.double (w ++ lits false u), rfl, .inr (by simp [Mode.held, Mode.behind] at hl ⊢; omega),
          by simpa using h⟩
      · exact ⟨.escaped false (w ++ lits false u), rfl,
          .inr (by simp [Mode.held, Mode.behind] at hl ⊢; omega), by simpa using h⟩
      · exact ⟨.dollar false (w ++ lits false u), rfl, .inl rfl, by simpa using h⟩
      · simp at h
    obtain ⟨i, hi, hyi⟩ := text_at_first_terminator hm' hb hv₁ hd' hdn' hs hx
    obtain ⟨v₂, rfl⟩ := htail
    have hin : i < (y ++ (u ++ c :: v₁)).length := by
      simp only [List.length_append, List.length_cons]; omega
    have hget : (y ++ (u ++ c :: (v₁ ++ v₂)))[i]? = some ((y ++ (u ++ c :: v₁))[i]) := by
      rw [show y ++ (u ++ c :: (v₁ ++ v₂)) = (y ++ (u ++ c :: v₁)) ++ v₂ by simp,
        List.getElem?_append_left hin, List.getElem?_eq_getElem hin]
    have hmem := List.getElem_mem hin
    have hno : isTerminator (y ++ (u ++ c :: v₁))[i] = false := by
      simp only [List.mem_append, List.mem_cons] at hmem
      rcases hmem with hm | hm | hm | hm
      · exact hyt _ hm
      · exact hut _ hm
      · rw [hm]; simpa using hct
      · exact hv₁ _ hm
    rcases hyi with hyi | hyi
    · rw [hget] at hyi; cases hyi
    · rw [hget] at hyi
      rw [Option.some.inj hyi, hd'] at hno
      cases hno

/-- Texts with a common plain beginning, each followed by a blank and read back as themselves, are
plain to their ends. -/
theorem inert_of_spaced {y : Text} {c : Char} (hy : Inert (c :: y)) (hc : c ≠ '#') {vs : List Text}
    (hnl : ∀ v ∈ vs, '\n' ∉ v) {tail : Text} {ws : List Word} {more : List (Option Text)}
    (h : lex (.gap false) (spaced (vs.map (c :: y ++ ·)) ++ tail) = some (ws.map .word))
    (ht : ws.map text = vs.map (fun v => some (c :: y ++ v)) ++ more) : ∀ v ∈ vs, Inert v := by
  induction vs generalizing ws with
  | nil => simp
  | cons v vs ih =>
    cases ws with
    | nil => simp at ht
    | cons w ws =>
      simp only [List.map_cons, List.cons_append, List.cons.injEq] at ht
      have hread := Reads.bare hy hc false
      have hsplit : spaced ((v :: vs).map (c :: y ++ ·)) ++ tail =
          (c :: y) ++ (v ++ ' ' :: (spaced (vs.map (c :: y ++ ·)) ++ tail)) := by simp [spaced]
      have hyt : ∀ e ∈ c :: y, isTerminator e = false := fun e he => by
        have := hy e he
        simp only [isPlain, Bool.and_eq_true, Bool.not_eq_true'] at this
        exact this.1
      have h' := h
      rw [hsplit, lex_append hread] at h
      have hv : Inert v := inert_of_text_eq (d := ' ') (text_lits false _) hyt (hnl v (by simp))
        (by decide) (by decide) (by simpa using h) (by simpa using ht.1)
      have hall : Inert (c :: (y ++ v)) := fun e he => by
        rcases List.mem_append.1 (List.cons_append ▸ he : e ∈ (c :: y) ++ v) with he | he
        · exact hy e he
        · exact hv e he
      refine List.forall_mem_cons.2 ⟨hv, ?_⟩
      let arg : Arg := ⟨c :: (y ++ v), lits false (c :: (y ++ v)), []⟩
      have harg := lex_spaced (fun a ha => by
        rw [List.mem_singleton.1 ha]
        exact Reads.bare hall hc : ∀ a ∈ [arg], Reads a.source a.word)
        (spaced (vs.map (c :: y ++ ·)) ++ tail)
      have hsp : spaced ((v :: vs).map (c :: y ++ ·)) ++ tail =
          spaced ([arg].map Arg.source) ++ (spaced (vs.map (c :: y ++ ·)) ++ tail) := by
        simp [spaced, arg]
      rw [hsp, harg] at h'
      obtain ⟨ts, hts, heq⟩ := Option.map_eq_some_iff.1 h'
      simp only [List.map_cons, List.map_nil, List.cons_append, List.nil_append, List.cons.injEq] at heq
      exact ih (fun u hu => hnl u (by simp [hu])) (heq.2 ▸ hts) ht.2

end Shell
