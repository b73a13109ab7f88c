import SshGpuConsole.Lib.Shell

/-!
# JSON texts

Python's `json.dumps` on flat objects, with its default separators and ASCII escapes, and `json.loads` on
any text. The reader is an automaton with a stack that takes one character at a time, so that what it does
on a text is what it does on a prefix and then on the rest: a text that ends where its object ends is read
to its last character or not at all (`loads_prefix`).
-/

namespace Json
open Shell (Text)

/-- A JSON document; a number that is no integer is kept as it was written. -/
inductive Value where
  | null
  | bool (b : Bool)
  | int (n : Int)
  | float (source : Text)
  | str (s : Text)
  | arr (vs : List Value)
  | obj (kvs : List (Text × Value))
  deriving Repr

/-! ### Writing -/

/-- A lower-case hexadecimal digit. -/
def hexDigit (n : Nat) : Char := Nat.digitChar (n % 16)

/-- `\uXXXX` of a code unit. -/
def unicodeEscape (n : Nat) : Text :=
  ['\\', 'u', hexDigit (n / 4096), hexDigit (n / 256), hexDigit (n / 16), hexDigit n]

/-- A character inside a string, as `ensure_ascii` writes it. -/
def escapeChar (c : Char) : Text :=
  if c = '"' then "\\\"".toList
  else if c = '\\' then "\\\\".toList
  else if c = '\n' then "\\n".toList
  else if c = '\r' then "\\r".toList
  else if c = '\t' then "\\t".toList
  else if c = '\x0c' then "\\f".toList
  else if c = '\x08' then "\\b".toList
  else if 0x20 ≤ c.toNat ∧ c.toNat ≤ 0x7e then [c]
  else if c.toNat < 0x10000 then unicodeEscape c.toNat
  else
    unicodeEscape (0xd800 + (c.toNat - 0x10000) / 1024) ++ unicodeEscape (0xdc00 + (c.toNat - 0x10000) % 1024)

/-- A string. -/
def dumpsStr (s : Text) : Text := '"' :: s.flatMap escapeChar ++ ['"']

/-- The values of a flat object. -/
inductive Scalar where
  | str (s : Text)
  | nat (n : Nat)
  deriving DecidableEq, Repr

def Scalar.value : Scalar → Value
  | .str s => .str s
  | .nat n => .int n

def dumpsScalar : Scalar → Text
  | .str s => dumpsStr s
  | .nat n => Nat.toDigits 10 n

/-- One member of an object. -/
def dumpsMember (kv : Text × Scalar) : Text := dumpsStr kv.1 ++ ": ".toList ++ dumpsScalar kv.2

/-- `json.dumps` of a flat dict. -/
def dumps (kvs : List (Text × Scalar)) : Text :=
  '\x7b' :: ", ".toList.intercalate (kvs.map dumpsMember) ++ ['\x7d']

/-! ### Reading -/

def isWs (c : Char) : Bool := c ∈ [' ', '\t', '\n', '\r']

def isNumChar (c : Char) : Bool := c.isDigit || c ∈ ['-', '+', '.', 'e', 'E']

/-- The rest of a number behind its exponent sign. -/
def isDigits (t : Text) : Bool := !t.isEmpty && t.all Char.isDigit

/-- Behind the fraction: nothing or an exponent. -/
def isExponent : Text → Bool
  | [] => true
  | c :: t =>
    (c = 'e' || c = 'E') &&
      match t with
      | '+' :: ds | '-' :: ds => isDigits ds
      | ds => isDigits ds

/-- Behind the integer part of a number that is no integer: a fraction, an exponent or both. -/
def isFraction : Text → Bool
  | '.' :: t => isDigits (t.takeWhile Char.isDigit) && isExponent (t.dropWhile Char.isDigit)
  | t => isExponent t

/-- The value of a number token. -/
def numberOf (t : Text) : Option Value :=
  let (negative, body) := match t with
    | '-' :: r => (true, r)
    | _ => (false, t)
  let ds := body.takeWhile Char.isDigit
  let rest := body.dropWhile Char.isDigit
  if ds = [] || (ds.head? = some '0' && ds.length ≠ 1) then none
  else if rest = [] then
    let n : Nat := Nat.ofDigitChars 10 ds 0
    some (.int (if negative then -n else n))
  else if isFraction rest then some (.float t)
  else none

/-- The value of a hexadecimal digit. -/
def hexVal (c : Char) : Option Nat :=
  if c.isDigit then some (c.toNat - '0'.toNat)
  else if 'a' ≤ c ∧ c ≤ 'f' then some (c.toNat - 'a'.toNat + 10)
  else if 'A' ≤ c ∧ c ≤ 'F' then some (c.toNat - 'A'.toNat + 10)
  else none

/-- A container being read, with its members so far. -/
inductive Frame where
  | arr (vs : List Value)
  | obj (kvs : List (Text × Value)) (key : Text)
  deriving Repr

/-- What has to come next. -/
inductive Mode where
  | value
  /-- Behind `[`: a value or the end. -/
  | first
  /-- A key; behind the opening brace also the end. -/
  | key (orEnd : Bool)
  | colon
  /-- Inside a string, which is a key or a value. -/
  | str (isKey : Bool) (acc : Text)
  /-- Behind a backslash. -/
  | esc (isKey : Bool) (acc : Text)
  /-- Inside `\uXXXX`, behind a high surrogate perhaps. -/
  | hex (isKey : Bool) (acc : Text) (high : Option Nat) (digits : List Nat)
  /-- Behind a high surrogate: a backslash, then a `u`. -/
  | low (isKey : Bool) (acc : Text) (high : Nat) (backslash : Bool)
  | num (acc : Text)
  /-- Inside one of the fixed words. -/
  | word (rest : Text) (v : Value)
  /-- Behind a member of the innermost container. -/
  | next
  | done (v : Value)
  deriving Repr

abbrev State := Mode × List Frame

/-- Set a key: the last value of a key counts. -/
def setKey (kvs : List (Text × Value)) (k : Text) (v : Value) : List (Text × Value) :=
  if kvs.any (·.1 = k) then kvs.map fun kv => if kv.1 = k then (k, v) else kv else kvs ++ [(k, v)]

/-- A value is complete. -/
def complete (v : Value) : List Frame → State
  | [] => (.done v, [])
  | .arr vs :: st => (.next, .arr (vs ++ [v]) :: st)
  | .obj kvs k :: st => (.next, .obj (setKey kvs k v) [] :: st)

/-- A string is complete. -/
def completeStr (isKey : Bool) (s : Text) (st : List Frame) : Option State :=
  if isKey then
    match st with
    | .obj kvs _ :: st => some (.colon, .obj kvs s :: st)
    | _ => none
  else some (complete (.str s) st)

/-- The start of a value. -/
def stepValue (c : Char) (st : List Frame) : Option State :=
  if isWs c then some (.value, st)
  else if c = '"' then some (.str false [], st)
  else if c = '[' then some (.first, .arr [] :: st)
  else if c = '\x7b' then some (.key true, .obj [] [] :: st)
  else if c = 'n' then some (.word "ull".toList .null, st)
  else if c = 't' then some (.word "rue".toList (.bool true), st)
  else if c = 'f' then some (.word "alse".toList (.bool false), st)
  else if c = 'N' then some (.word "aN".toList (.float "NaN".toList), st)
  else if c = 'I' then some (.word "nfinity".toList (.float "Infinity".toList), st)
  else if isNumChar c then some (.num [c], st)
  else none

/-- Behind a value. -/
def stepNext (c : Char) (st : List Frame) : Option State :=
  if isWs c then some (.next, st)
  else
    match st with
    | .arr vs :: st =>
      if c = ',' then some (.value, .arr vs :: st)
      else if c = ']' then some (complete (.arr vs) st)
      else none
    | .obj kvs k :: st =>
      if c = ',' then some (.key false, .obj kvs k :: st)
      else if c = '\x7d' then some (complete (.obj kvs) st)
      else none
    | [] => none

/-- Behind a number, which ends at the first character that cannot be part of it. -/
def stepAfter (c : Char) : State → Option State
  | (.done v, []) => if isWs c then some (.done v, []) else none
  | (.next, st) => stepNext c st
  | _ => none

/-- The character of a code unit that stands alone; a lone surrogate is no character. -/
def charOf (n : Nat) : Option Char := if (Char.ofNat n).toNat = n then some (Char.ofNat n) else none

/-- A `\uXXXX` is complete. -/
def completeHex (isKey : Bool) (acc : Text) (high : Option Nat) (n : Nat) (st : List Frame) : Option State :=
  match high with
  | none =>
    if 0xd800 ≤ n ∧ n ≤ 0xdbff then some (.low isKey acc n false, st)
    else (charOf n).map fun c => (.str isKey (acc ++ [c]), st)
  | some hi =>
    if 0xdc00 ≤ n ∧ n ≤ 0xdfff then
      (charOf (0x10000 + (hi - 0xd800) * 1024 + (n - 0xdc00))).map fun c => (.str isKey (acc ++ [c]), st)
    else none

/-- The character of a short escape. -/
def shortEscape (c : Char) : Option Char :=
  match c with
  | '"' => some '"'
  | '\\' => some '\\'
  | '/' => some '/'
  | 'b' => some '\x08'
  | 'f' => some '\x0c'
  | 'n' => some '\n'
  | 'r' => some '\r'
  | 't' => some '\t'
  | _ => none

/-- Read one character. -/
def step : State → Char → Option State
  | (.value, st), c => stepValue c st
  | (.first, st), c =>
    match c, st with
    | ']', .arr vs :: st => some (complete (.arr vs) st)
    | _, _ => if isWs c then some (.first, st) else stepValue c st
  | (.key orEnd, st), c =>
    if isWs c then some (.key orEnd, st)
    else if c = '"' then some (.str true [], st)
    else
      match orEnd, c, st with
      | true, '\x7d', .obj kvs _ :: st => some (complete (.obj kvs) st)
      | _, _, _ => none
  | (.colon, st), c =>
    if isWs c then some (.colon, st) else if c = ':' then some (.value, st) else none
  | (.str isKey acc, st), c =>
    if c = '"' then completeStr isKey acc st
    else if c = '\\' then some (.esc isKey acc, st)
    else if c.toNat < 0x20 then none
    else some (.str isKey (acc ++ [c]), st)
  | (.esc isKey acc, st), c =>
    if c = 'u' then some (.hex isKey acc none [], st)
    else (shortEscape c).map fun d => (.str isKey (acc ++ [d]), st)
  | (.hex isKey acc high ds, st), c =>
    (hexVal c).bind fun d =>
      match ds with
      | [x, y, z] => completeHex isKey acc high (x * 4096 + y * 256 + z * 16 + d) st
      | _ => some (.hex isKey acc high (ds ++ [d]), st)
  | (.low isKey acc high backslash, st), c =>
    match backslash, c with
    | false, '\\' => some (.low isKey acc high true, st)
    | true, 'u' => some (.hex isKey acc (some high) [], st)
    | _, _ => none
  | (.num acc, st), c =>
    if isNumChar c then some (.num (acc ++ [c]), st)
    else if acc = ['-'] ∧ c = 'I' then some (.word "nfinity".toList (.float "-Infinity".toList), st)
    else (numberOf acc).bind fun v => stepAfter c (complete v st)
  | (.word rest v, st), c =>
    match rest with
    | [] => none
    | [d] => if c = d then some (complete v st) else none
    | d :: rest => if c = d then some (.word rest v, st) else none
  | (.next, st), c => stepNext c st
  | (.done v, st), c => if isWs c then some (.done v, st) else none

/-- Read a text. -/
def run : State → Text → Option State
  | s, [] => some s
  | s, c :: cs => (step s c).bind fun s' => run s' cs

/-- The document when the text ends. -/
def finish : State → Option Value
  | (.done v, []) => some v
  | (.num acc, []) => numberOf acc
  | _ => none

/-- `json.loads`. -/
def loads (t : Text) : Option Value := (run (.value, []) t).bind finish

lemma run_nil (s : State) : run s [] = some s := rfl

lemma run_cons (s : State) (c : Char) (cs : Text) : run s (c :: cs) = (step s c).bind fun s' => run s' cs := rfl

lemma step_str (k : Bool) (acc : Text) (st : List Frame) (c : Char) : step (.str k acc, st) c =
    if c = '"' then completeStr k acc st
    else if c = '\\' then some (.esc k acc, st)
    else if c.toNat < 0x20 then none
    else some (.str k (acc ++ [c]), st) := rfl

lemma step_hex (k : Bool) (acc : Text) (high : Option Nat) (ds : List Nat) (st : List Frame) (c : Char) :
    step (.hex k acc high ds, st) c = (hexVal c).bind fun d =>
      match ds with
      | [x, y, z] => completeHex k acc high (x * 4096 + y * 256 + z * 16 + d) st
      | _ => some (.hex k acc high (ds ++ [d]), st) := rfl

lemma step_num (acc : Text) (st : List Frame) (c : Char) : step (.num acc, st) c =
    if isNumChar c then some (.num (acc ++ [c]), st)
    else if acc = ['-'] ∧ c = 'I' then some (.word "nfinity".toList (.float "-Infinity".toList), st)
    else (numberOf acc).bind fun v => stepAfter c (complete v st) := rfl

lemma step_value (st : List Frame) (c : Char) : step (.value, st) c = stepValue c st := rfl

lemma step_done (v : Value) (st : List Frame) (c : Char) :
    step (.done v, st) c = if isWs c then some (.done v, st) else none := rfl

lemma run_append (s : State) (a b : Text) : run s (a ++ b) = (run s a).bind fun s' => run s' b := by
  induction a generalizing s with
  | nil => rfl
  | cons c a ih =>
    simp only [List.cons_append, run_cons]
    cases step s c with
    | none => rfl
    | some s' => exact ih s'

lemma run_append_of {s s' : State} {a : Text} (h : run s a = some s') (b : Text) :
    run s (a ++ b) = run s' b := by
  rw [run_append, h]
  rfl

lemma run_cons_of {s s' : State} {c : Char} (h : step s c = some s') (cs : Text) :
    run s (c :: cs) = run s' cs := by
  rw [run_cons, h]
  rfl

/-! ### Reading what was written -/

lemma charOf_toNat (c : Char) : charOf c.toNat = some c := by
  simp [charOf]

lemma hexVal_hexDigit (n : Nat) : hexVal (hexDigit n) = some (n % 16) := by
  have h : ∀ m < 16, hexVal (Nat.digitChar m) = some m := by decide
  exact h _ (Nat.mod_lt _ (by decide))

/-- Four hexadecimal digits complete a code unit. -/
lemma run_hexDigits {n : Nat} (hn : n < 65536) (k : Bool) (acc : Text) (high : Option Nat) (st : List Frame) :
    run (.hex k acc high [], st) [hexDigit (n / 4096), hexDigit (n / 256), hexDigit (n / 16), hexDigit n] =
      completeHex k acc high n st := by
  have h : n / 4096 % 16 * 4096 + n / 256 % 16 * 256 + n / 16 % 16 * 16 + n % 16 = n := by omega
  simp only [run_nil, run_cons, step_hex, hexVal_hexDigit, Option.bind_some, List.nil_append, List.cons_append, h]
  cases completeHex k acc high n st <;> rfl

/-- An escaped code unit. -/
lemma run_unicodeEscape {n : Nat} (hn : n < 65536) (k : Bool) (acc : Text) (st : List Frame) :
    run (.str k acc, st) (unicodeEscape n) = completeHex k acc none n st := by
  have h1 : step (.str k acc, st) '\\' = some (.esc k acc, st) := rfl
  have h2 : step (.esc k acc, st) 'u' = some (.hex k acc none [], st) := rfl
  rw [unicodeEscape, run_cons_of h1, run_cons_of h2, run_hexDigits hn]

/-- An escaped code unit behind a high surrogate. -/
lemma run_lowEscape {n : Nat} (hn : n < 65536) (k : Bool) (acc : Text) (high : Nat) (st : List Frame) :
    run (.low k acc high false, st) (unicodeEscape n) = completeHex k acc (some high) n st := by
  have h1 : step (.low k acc high false, st) '\\' = some (.low k acc high true, st) := rfl
  have h2 : step (.low k acc high true, st) 'u' = some (.hex k acc (some high) [], st) := rfl
  rw [unicodeEscape, run_cons_of h1, run_cons_of h2, run_hexDigits hn]

/-- The code of a character is no surrogate. -/
lemma toNat_bounds (c : Char) : (c.toNat < 0xd800 ∨ 0xdfff < c.toNat) ∧ c.toNat < 0x110000 := by
  have h := c.valid
  simp only [UInt32.isValidChar, Nat.isValidChar] at h
  have : c.toNat = c.val.toNat := rfl
  omega

/-- Reading an escaped character appends the character. -/
lemma run_escapeChar (c : Char) (k : Bool) (acc : Text) (st : List Frame) :
    run (.str k acc, st) (escapeChar c) = some (.str k (acc ++ [c]), st) := by
  obtain ⟨hs, hb⟩ := toNat_bounds c
  by_cases h1 : c = '"'
  · subst h1; rfl
  by_cases h2 : c = '\\'
  · subst h2; rfl
  by_cases h3 : c = '\n'
  · subst h3; rfl
  by_cases h4 : c = '\r'
  · subst h4; rfl
  by_cases h5 : c = '\t'
  · subst h5; rfl
  by_cases h6 : c = '\x0c'
  · subst h6; rfl
  by_cases h7 : c = '\x08'
  · subst h7; rfl
  simp only [escapeChar, h1, h2, h3, h4, h5, h6, h7, if_false]
  split_ifs with hp hu
  · have hn : ¬c.toNat < 0x20 := by omega
    simp [run_nil, run_cons, step_str, h1, h2, hn]
  · rw [run_unicodeEscape hu, completeHex, if_neg (by omega), charOf_toNat]
    rfl
  · -- a surrogate pair
    have hc : 0x10000 + (0xd800 + (c.toNat - 0x10000) / 1024 - 0xd800) * 1024 +
        (0xdc00 + (c.toNat - 0x10000) % 1024 - 0xdc00) = c.toNat := by omega
    rw [run_append, run_unicodeEscape (by omega), completeHex, if_pos (by omega), Option.bind_some,
      run_lowEscape (by omega), completeHex, if_pos (by omega), hc, charOf_toNat]
    rfl

/-- Reading the body of a string. -/
lemma run_escaped (s : Text) (k : Bool) (acc : Text) (st : List Frame) :
    run (.str k acc, st) (s.flatMap escapeChar) = some (.str k (acc ++ s), st) := by
  induction s generalizing acc with
  | nil => simp [run_nil]
  | cons c s ih =>
    rw [List.flatMap_cons, run_append_of (run_escapeChar c k acc st), ih, List.append_assoc]
    rfl

/-- Reading a string behind its opening quote. -/
lemma run_strBody (s : Text) (k : Bool) (st : List Frame) :
    run (.str k [], st) (s.flatMap escapeChar ++ ['"']) = completeStr k s st := by
  rw [run_append_of (run_escaped s k [] st), List.nil_append]
  simp only [run_nil, run_cons, step_str, if_true]
  cases completeStr k s st <;> rfl

/-- A decimal numeral with a leading zero is `0`. -/
lemma toDigits_head (n : Nat) (h : (Nat.toDigits 10 n).head? = some '0') :
    (Nat.toDigits 10 n).length = 1 := by
  by_cases hn : n < 10
  · rw [Nat.toDigits_of_lt_base hn]
    rfl
  · have hlt : n / 10 < n := by omega
    rw [Nat.toDigits_of_base_le (by decide) (by omega), List.head?_append_of_ne_nil _ Nat.toDigits_ne_nil] at h
    have hone := toDigits_head (n / 10) h
    have hd : n / 10 < 10 := by
      by_contra hge
      rw [Nat.toDigits_of_base_le (by decide) (by omega)] at hone
      have := List.length_pos_of_ne_nil (Nat.toDigits_ne_nil (n := n / 10 / 10) (b := 10))
      simp at hone
    rw [Nat.toDigits_of_lt_base hd] at h
    have hz : n / 10 = 0 := by simpa using h
    omega
termination_by n

/-- The number token of a natural number. -/
lemma numberOf_toDigits (n : Nat) : numberOf (Nat.toDigits 10 n) = some (.int n) := by
  have hall : ∀ c ∈ Nat.toDigits 10 n, c.isDigit = true :=
    fun c hc => Nat.isDigit_of_mem_toDigits (by decide) (by decide) hc
  have htw : (Nat.toDigits 10 n).takeWhile Char.isDigit = Nat.toDigits 10 n := List.takeWhile_eq_self_iff.2 hall
  have hdw : (Nat.toDigits 10 n).dropWhile Char.isDigit = [] := List.dropWhile_eq_nil_iff.2 hall
  have hz : ¬((Nat.toDigits 10 n).head? = some '0' ∧ (Nat.toDigits 10 n).length ≠ 1) :=
    fun h => h.2 (toDigits_head n h.1)
  have hneg : ∀ r, Nat.toDigits 10 n = '-' :: r → False := fun r h =>
    absurd (hall '-' (by rw [h]; exact List.mem_cons_self)) (by decide)
  have hc : (decide (Nat.toDigits 10 n = []) ||
      decide ((Nat.toDigits 10 n).head? = some '0') && decide ((Nat.toDigits 10 n).length ≠ 1)) = false := by
    simpa [Nat.toDigits_ne_nil] using hz
  rw [numberOf]
  · simp only [htw, hdw, hc]
    simp
  · exact hneg

/-- Digits prolong a number token. -/
lemma run_num {ds : Text} (h : ∀ c ∈ ds, c.isDigit = true) (acc : Text) (st : List Frame) :
    run (.num acc, st) ds = some (.num (acc ++ ds), st) := by
  induction ds generalizing acc with
  | nil => simp [run_nil]
  | cons c ds ih =>
    have hc : isNumChar c = true := by rw [isNumChar, h c List.mem_cons_self, Bool.true_or]
    have hs : step (.num acc, st) c = some (.num (acc ++ [c]), st) := by simp [step_num, hc]
    rw [run_cons_of hs, ih (fun d hd => h d (List.mem_cons_of_mem _ hd)), List.append_assoc]
    rfl

/-- A numeral where a value has to come. -/
lemma run_toDigits (n : Nat) (st : List Frame) :
    run (.value, st) (Nat.toDigits 10 n) = some (.num (Nat.toDigits 10 n), st) := by
  have hall : ∀ c ∈ Nat.toDigits 10 n, c.isDigit = true :=
    fun c hc => Nat.isDigit_of_mem_toDigits (by decide) (by decide) hc
  cases hd : Nat.toDigits 10 n with
  | nil => exact absurd hd Nat.toDigits_ne_nil
  | cons c ds =>
    rw [hd] at hall
    have hc := hall c List.mem_cons_self
    have hne : ∀ d : Char, d.isDigit = false → c ≠ d := by
      rintro d hd rfl
      rw [hc] at hd
      cases hd
    have hs : step (.value, st) c = some (.num [c], st) := by
      have hw : isWs c = false := by
        simp [isWs, hne ' ' (by decide), hne '\t' (by decide), hne '\n' (by decide), hne '\r' (by decide)]
      have hn : isNumChar c = true := by rw [isNumChar, hc, Bool.true_or]
      simp [step_value, stepValue, hw, hn, hne '"' (by decide), hne '[' (by decide), hne '\x7b' (by decide),
        hne 'n' (by decide), hne 't' (by decide), hne 'f' (by decide), hne 'N' (by decide), hne 'I' (by decide)]
    rw [run_cons_of hs, run_num (fun d hd => hall d (List.mem_cons_of_mem _ hd))]
    rfl

/-- A scalar member and the character behind it. -/
lemma run_scalar (v : Scalar) {c : Char} (hc : c = ',' ∨ c = '\x7d') (kvs : List (Text × Value)) (k : Text)
    (st : List Frame) (rest : Text) :
    run (.value, .obj kvs k :: st) (dumpsScalar v ++ c :: rest) =
      (stepNext c (.obj (setKey kvs k v.value) [] :: st)).bind fun s => run s rest := by
  cases v with
  | str s =>
    have h1 : step (.value, .obj kvs k :: st) '"' = some (.str false [], .obj kvs k :: st) := rfl
    have h2 : run (.str false [], .obj kvs k :: st) (s.flatMap escapeChar ++ ['"']) =
        some (.next, .obj (setKey kvs k (.str s)) [] :: st) := run_strBody s false _
    rw [dumpsScalar, dumpsStr, List.cons_append, List.cons_append, run_cons_of h1, run_append_of h2]
    rfl
  | nat n =>
    rw [dumpsScalar, run_append_of (run_toDigits n _)]
    have hs : step (.num (Nat.toDigits 10 n), .obj kvs k :: st) c =
        stepNext c (.obj (setKey kvs k (.int n)) [] :: st) := by
      have hn : isNumChar c = false := by rcases hc with rfl | rfl <;> decide
      have hi : c ≠ 'I' := by rcases hc with rfl | rfl <;> decide
      simp [step_num, hn, hi, numberOf_toDigits, stepAfter, complete]
    rw [run_cons, hs]
    rfl

/-- A member and the character behind it. -/
lemma run_member (kv : Text × Scalar) {c : Char} (hc : c = ',' ∨ c = '\x7d') (b : Bool)
    (kvs : List (Text × Value)) (k : Text) (st : List Frame) (rest : Text) :
    run (.key b, .obj kvs k :: st) (dumpsMember kv ++ c :: rest) =
      (stepNext c (.obj (setKey kvs kv.1 kv.2.value) [] :: st)).bind fun s => run s rest := by
  have h1 : step (.key b, .obj kvs k :: st) '"' = some (.str true [], .obj kvs k :: st) := rfl
  have h2 : step (.colon, .obj kvs kv.1 :: st) ':' = some (.value, .obj kvs kv.1 :: st) := rfl
  have h3 : step (.value, .obj kvs kv.1 :: st) ' ' = some (.value, .obj kvs kv.1 :: st) := rfl
  have hsplit : dumpsMember kv ++ c :: rest =
      '"' :: ((kv.1.flatMap escapeChar ++ ['"']) ++ ':' :: ' ' :: (dumpsScalar kv.2 ++ c :: rest)) := by
    simp [dumpsMember, dumpsStr]
  have hstr : run (.str true [], .obj kvs k :: st) (kv.1.flatMap escapeChar ++ ['"']) =
      some (.colon, .obj kvs kv.1 :: st) := run_strBody kv.1 true _
  rw [hsplit, run_cons_of h1, run_append_of hstr, run_cons_of h2, run_cons_of h3, run_scalar kv.2 hc]

/-- The members a flat object has. -/
def members (kvs : List (Text × Scalar)) : List (Text × Value) :=
  kvs.foldl (fun acc kv => setKey acc kv.1 kv.2.value) []

/-- The members and the closing brace. -/
lemma run_members (kv : Text × Scalar) (kvs : List (Text × Scalar)) (b : Bool) (acc : List (Text × Value))
    (k : Text) :
    run (.key b, [.obj acc k]) (", ".toList.intercalate ((kv :: kvs).map dumpsMember) ++ ['\x7d']) =
      some (.done (.obj ((kv :: kvs).foldl (fun acc kv => setKey acc kv.1 kv.2.value) acc)), []) := by
  induction kvs generalizing kv b acc k with
  | nil =>
    have h := run_member kv (c := '\x7d') (.inr rfl) b acc k [] []
    simp only [List.map_cons, List.map_nil, List.intercalate_singleton, List.foldl_cons, List.foldl_nil]
    rw [h]
    rfl
  | cons kv' kvs ih =>
    have hsplit : ", ".toList.intercalate ((kv :: kv' :: kvs).map dumpsMember) ++ ['\x7d'] =
        dumpsMember kv ++ ',' :: ' ' :: (", ".toList.intercalate ((kv' :: kvs).map dumpsMember) ++ ['\x7d']) := by
      simp [List.intercalate_cons_cons]
    have hn : stepNext ',' [.obj (setKey acc kv.1 kv.2.value) []] =
        some (.key false, [.obj (setKey acc kv.1 kv.2.value) []]) := rfl
    have hw : step (.key false, [.obj (setKey acc kv.1 kv.2.value) []]) ' ' =
        some (.key false, [.obj (setKey acc kv.1 kv.2.value) []]) := rfl
    rw [hsplit, run_member kv (.inl rfl), hn, Option.bind_some, run_cons_of hw, ih]
    rfl

/-- A written object, read. -/
lemma run_dumps (kvs : List (Text × Scalar)) :
    run (.value, []) (dumps kvs) = some (.done (.obj (members kvs)), []) := by
  have h1 : step (.value, []) '\x7b' = some (.key true, [.obj [] []]) := rfl
  rw [dumps, List.cons_append, run_cons_of h1]
  cases kvs with
  | nil => rfl
  | cons kv kvs => exact run_members kv kvs true [] []

/-- Reading gives back what was written. -/
theorem loads_dumps (kvs : List (Text × Scalar)) : loads (dumps kvs) = some (.obj (members kvs)) := by
  rw [loads, run_dumps]
  rfl

/-- Only blanks may follow a document. -/
lemma run_done {v : Value} {st : List Frame} {x : Text} {s : State} (h : run (.done v, st) x = some s) :
    ∀ c ∈ x, isWs c = true := by
  induction x with
  | nil => exact fun c hc => absurd hc List.not_mem_nil
  | cons c x ih =>
    by_cases hc : isWs c = true
    · have hs : step (.done v, st) c = some (.done v, st) := by simp [step_done, hc]
      rw [run_cons_of hs] at h
      exact fun d hd => (List.mem_cons.1 hd).elim (fun e => e ▸ hc) (ih h d)
    · have hs : step (.done v, st) c = none := by simp [step_done, hc]
      rw [run_cons, hs] at h
      exact nomatch h

/-- A prefix of a written object that reads as an object is the whole of it. -/
theorem loads_prefix {kvs : List (Text × Scalar)} {p x : Text} {o : List (Text × Value)}
    (h : loads p = some (.obj o)) (hp : p ++ x = dumps kvs) : x = [] := by
  obtain ⟨s, hs, hf⟩ := Option.bind_eq_some_iff.1 h
  have hdone : ∃ st, s = (.done (.obj o), st) := by
    obtain ⟨m, st⟩ := s
    unfold finish at hf
    split at hf
    · rename_i v heq
      cases hf
      exact ⟨[], heq⟩
    · rename_i acc heq
      -- a number is no object
      simp only [numberOf] at hf
      split_ifs at hf <;> cases hf
    · cases hf
  obtain ⟨st, rfl⟩ := hdone
  have hrun := run_dumps kvs
  rw [← hp, run_append_of hs] at hrun
  have hws := run_done hrun
  by_contra hx
  have hlast : x.getLast hx = '\x7d' := by
    have h1 : (p ++ x).getLast (by simp [hx]) = x.getLast hx := List.getLast_append_of_ne_nil _ hx
    rw [← h1]
    simp only [hp, dumps]
    exact List.getLast_append_singleton _
  have := hws _ (List.getLast_mem hx)
  rw [hlast] at this
  exact absurd this (by decide)

/-! ### The written text is ASCII -/

lemma ascii_of_all {t : Text} (h : (t.all fun c => decide (c.toNat < 128)) = true) :
    ∀ c ∈ t, c.toNat < 128 := by
  simpa using h

lemma hexDigit_ascii (n : Nat) : (hexDigit n).toNat < 128 := by
  have h : ∀ m < 16, (Nat.digitChar m).toNat < 128 := by decide
  exact h _ (Nat.mod_lt _ (by decide))

lemma unicodeEscape_ascii (n : Nat) : ∀ d ∈ unicodeEscape n, d.toNat < 128 := by
  simp only [unicodeEscape, List.forall_mem_cons]
  exact ⟨by decide, by decide, hexDigit_ascii _, hexDigit_ascii _, hexDigit_ascii _, hexDigit_ascii _,
    fun _ h => absurd h List.not_mem_nil⟩

lemma escapeChar_ascii (c : Char) : ∀ d ∈ escapeChar c, d.toNat < 128 := by
  rw [escapeChar]
  split_ifs with h1 h2 h3 h4 h5 h6 h7 hp hu
  any_goals exact ascii_of_all rfl
  · intro d hd
    obtain rfl := List.mem_singleton.1 hd
    omega
  · exact unicodeEscape_ascii _
  · intro d hd
    exact (List.mem_append.1 hd).elim (unicodeEscape_ascii _ d) (unicodeEscape_ascii _ d)

lemma dumpsStr_ascii (s : Text) : ∀ d ∈ dumpsStr s, d.toNat < 128 := by
  intro d hd
  rcases List.mem_append.1 hd with hd | hd
  · rcases List.mem_cons.1 hd with rfl | hd
    · decide
    · obtain ⟨c, -, hc⟩ := List.mem_flatMap.1 hd
      exact escapeChar_ascii c d hc
  · obtain rfl := List.mem_singleton.1 hd
    decide

lemma dumpsMember_ascii (kv : Text × Scalar) : ∀ d ∈ dumpsMember kv, d.toNat < 128 := by
  intro d hd
  rcases List.mem_append.1 hd with hd | hd
  · rcases List.mem_append.1 hd with hd | hd
    · exact dumpsStr_ascii _ d hd
    · exact ascii_of_all (t := [':', ' ']) rfl d hd
  · obtain ⟨k, v⟩ := kv
    cases v with
    | str s => exact dumpsStr_ascii s d hd
    | nat n =>
      have hdig : d.isDigit = true := Nat.isDigit_of_mem_toDigits (by decide) (by decide) hd
      have hle : d.toNat ≤ 57 := (Char.isDigit_iff_toNat.1 hdig).2
      omega

lemma dumps_ascii (kvs : List (Text × Scalar)) : ∀ d ∈ dumps kvs, d.toNat < 128 := by
  have hjoin : ∀ d ∈ ", ".toList.intercalate (kvs.map dumpsMember), d.toNat < 128 := by
    induction kvs with
    | nil => exact fun d hd => absurd hd List.not_mem_nil
    | cons kv kvs ih =>
      cases kvs with
      | nil => simpa using dumpsMember_ascii kv
      | cons kv' kvs =>
        intro d hd
        rw [List.map_cons, List.map_cons, List.intercalate_cons_cons] at hd
        rcases List.mem_append.1 hd with hd | hd
        · rcases List.mem_append.1 hd with hd | hd
          · exact dumpsMember_ascii kv d hd
          · exact ascii_of_all (t := [',', ' ']) rfl d hd
        · exact ih d hd
  intro d hd
  rcases List.mem_append.1 hd with hd | hd
  · rcases List.mem_cons.1 hd with rfl | hd
    · decide
    · exact hjoin d hd
  · obtain rfl := List.mem_singleton.1 hd
    decide

end Json
