import SshGpuConsole.Lib.Json

/-!
# Fields of JSON objects

Decoders of JSON values and of the members of an object, with the value a missing member takes, and what they
make of values written from Lean.
-/

namespace Json
open Shell (Text)

abbrev Members := List (Text × Value)

/-- A text. -/
def asStr : Value → Option Text
  | .str s => some s
  | _ => none

/-- An integer; what becomes of another value is up to the reader. -/
def asInt (other : Value → Option Int) : Value → Option Int
  | .int n => some n
  | v => other v

/-- A boolean; what becomes of another value is up to the reader. -/
def asBool (other : Value → Option Bool) : Value → Option Bool
  | .bool b => some b
  | v => other v

section Decoders
variable {α : Type}

/-- A value or null. -/
def asNullable (decode : Value → Option α) : Value → Option (Option α)
  | .null => some none
  | v => (decode v).map some

def asList (decode : Value → Option α) : Value → Option (List α)
  | .arr vs => vs.mapM decode
  | _ => none

/-- An object whose members are all of a kind. -/
def asDict (decode : Value → Option α) : Value → Option (List (Text × α))
  | .obj kvs => kvs.mapM fun kv => (decode kv.2).map fun a => (kv.1, a)
  | _ => none

def member (kvs : Members) (k : Text) : Option Value := (kvs.find? fun kv => kv.1 = k).map Prod.snd

/-- A member that has to be there. -/
def needed (kvs : Members) (k : Text) (decode : Value → Option α) : Option α := (member kvs k).bind decode

/-- A member with a default. -/
def defaulted (kvs : Members) (k : Text) (default : α) (decode : Value → Option α) : Option α :=
  match member kvs k with
  | none => some default
  | some v => decode v

/-- No other members than the named ones. -/
def onlyNamed (kvs : Members) (names : List Text) : Bool := kvs.all fun kv => names.contains kv.1

/-- A value or null, written. -/
def nullable (encode : α → Value) : Option α → Value
  | none => .null
  | some a => encode a

def texts (ts : List Text) : Value := .arr (ts.map .str)

def dict (kvs : List (Text × Text)) : Value := .obj (kvs.map fun kv => (kv.1, .str kv.2))

lemma mapM_map_some {β : Type} {f : β → Option α} {g : α → β} (h : ∀ a, f (g a) = some a) (as : List α) :
    (as.map g).mapM f = some as := by
  induction as with
  | nil => rfl
  | cons a as ih =>
    rw [List.map_cons, List.mapM_cons, h, ih]
    rfl

lemma asList_texts (ts : List Text) : asList asStr (texts ts) = some ts := mapM_map_some (f := asStr) (g := .str) (fun _ => rfl) ts

lemma asDict_dict (kvs : List (Text × Text)) : asDict asStr (dict kvs) = some kvs :=
  mapM_map_some (f := fun kv : Text × Value => (asStr kv.2).map fun a => (kv.1, a))
    (g := fun kv : Text × Text => (kv.1, Value.str kv.2)) (fun _ => rfl) kvs

lemma asNullable_nullable {decode : Value → Option α} {encode : α → Value} (h : ∀ a, decode (encode a) = some a)
    (hn : ∀ a, encode a ≠ .null) (a : Option α) : asNullable decode (nullable encode a) = some a := by
  cases a with
  | none => rfl
  | some a =>
    rw [nullable, asNullable]
    · rw [h]
      rfl
    · exact hn a

lemma needed_of {kvs : Members} {k : Text} {decode : Value → Option α} {v : Value} {a : α}
    (hm : member kvs k = some v) (hv : decode v = some a) : needed kvs k decode = some a := by
  rw [needed, hm]
  exact hv

lemma defaulted_of {kvs : Members} {k : Text} {decode : Value → Option α} {v : Value} {a default : α}
    (hm : member kvs k = some v) (hv : decode v = some a) : defaulted kvs k default decode = some a := by
  rw [defaulted, hm]
  exact hv

end Decoders

lemma asStr_str (t : Text) : asStr (.str t) = some t := rfl

lemma asInt_int (other : Value → Option Int) (n : Int) : asInt other (.int n) = some n := rfl

lemma asBool_bool (other : Value → Option Bool) (b : Bool) : asBool other (.bool b) = some b := rfl

lemma asNullable_str (t : Option Text) : asNullable asStr (nullable .str t) = some t :=
  asNullable_nullable asStr_str (fun _ h => by cases h) t

lemma asNullable_int (other : Value → Option Int) (n : Option Int) :
    asNullable (asInt other) (nullable .int n) = some n :=
  asNullable_nullable (asInt_int other) (fun _ h => by cases h) n

end Json
