import Agenda.Json.Lexeme
/-!
# Reading JSON

A JSON text is read lexeme by lexeme with a stack of the arrays and objects that are still open. The
members of an object keep their order, and keys may come again.
-/
namespace Agenda.Json

/-- A JSON text as it stands. What is no natural number, and a string that is no text, are known to
be there and no more. -/
inductive Source where
  | null
  | bool (b : Bool)
  | natural (n : Nat)
  | otherNumber
  | string (s : Option Text)
  | array (items : List Source)
  | object (members : List (Option Text × Source))

namespace Source

/-- An array or object that is still open, with what stands in it so far, backwards. -/
inductive Open where
  | array (before : List Source)
  /-- The value of `key` is to come. -/
  | object (before : List (Option Text × Source)) (key : Option Text)

inductive Stage where
  | value
  /-- A value, or the end of the array that has just been opened. -/
  | firstItem
  /-- A key of the innermost object, after the members `before`. -/
  | key (before : List (Option Text × Source))
  /-- A key, or the end of the object that has just been opened. -/
  | firstKey
  /-- The colon after a key. -/
  | colon (before : List (Option Text × Source)) (key : Option Text)
  /-- A value is complete: what is to come is up to the innermost open array or object. -/
  | after (v : Source)

/-- A lexeme where a value is to come. -/
def beginValue (stack : List Open) : Lexeme → Option (Stage × List Open)
  | .openBrace => some (.firstKey, stack)
  | .openBracket => some (.firstItem, .array [] :: stack)
  | .null => some (.after null, stack)
  | .bool b => some (.after (bool b), stack)
  | .natural n => some (.after (natural n), stack)
  | .otherNumber => some (.after otherNumber, stack)
  | .string s => some (.after (string s), stack)
  | .closeBrace | .closeBracket | .colon | .comma => none

/-- A lexeme after the complete value `v`. -/
def endValue (v : Source) (stack : List Open) (x : Lexeme) : Option (Stage × List Open) :=
  match stack, x with
  | .array before :: outer, .comma => some (.value, .array (v :: before) :: outer)
  | .array before :: outer, .closeBracket => some (.after (array (v :: before).reverse), outer)
  | .object before k :: outer, .comma => some (.key ((k, v) :: before), outer)
  | .object before k :: outer, .closeBrace =>
    some (.after (object ((k, v) :: before).reverse), outer)
  | _, _ => none

def accept : Stage × List Open → Lexeme → Option (Stage × List Open)
  | (.value, stack), x => beginValue stack x
  | (.firstItem, .array [] :: outer), .closeBracket => some (.after (array []), outer)
  | (.firstItem, stack), x => beginValue stack x
  | (.firstKey, stack), .closeBrace => some (.after (object []), stack)
  | (.firstKey, stack), .string k => some (.colon [] k, stack)
  | (.key before, stack), .string k => some (.colon before k, stack)
  | (.colon before k, stack), .colon => some (.value, .object before k :: stack)
  | (.after v, stack), x => endValue v stack x
  | _, _ => none

/-- Reads a text that is one JSON value with nothing but blanks around it. -/
def read? (s : Text) : Option Source := do
  match ← (← lexemes s).foldlM accept (.value, []) with
  | (.after v, []) => some v
  | _ => none

/-! ## Values of a known form -/

def text? : Source → Option Text
  | string s => s
  | _ => none

/-- A natural number that fits sixty-four bits. -/
def word? : Source → Option Nat
  | natural n => if n < Text.wordBound then some n else none
  | _ => none

def optional? {α : Type} (read : Source → Option α) : Source → Option (Option α)
  | null => some none
  | v => (read v).map some

/-- One of several names, by itself or as the only key of an object, whose value is null. -/
def choice? : Source → Option Text
  | string s => s
  | object [(k, null)] => k
  | _ => none

/-- Members whose keys are texts. -/
def members? : List (Option Text × Source) → Option (List (Text × Source))
  | [] => some []
  | (none, _) :: _ => none
  | (some k, v) :: r => (members? r).map ((k, v) :: ·)

/-- The fields of a record: an object in which none of the names comes twice and other keys count
for nothing, or an array of the values of the first few names. -/
def fields? (names : List Text) : Source → Option (List (Text × Source))
  | object ms => do
    let known := (← members? ms).filter fun m => names.contains m.1
    if (known.map Prod.fst).Nodup then some known else none
  | array vs => if vs.length ≤ names.length then some (names.zip vs) else none
  | _ => none

/-- The value of a field, or its default when the field is missing. -/
def field? {α : Type} (fields : List (Text × Source)) (name : Text) (default : α)
    (read : Source → Option α) : Option α :=
  match fields.lookup name with
  | none => some default
  | some v => read v

end Source

end Agenda.Json
