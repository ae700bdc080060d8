import Agenda.Text.Number
/-!
# JSON values

The values that plans are shown as, and their text on indented lines.
-/
namespace Agenda

/-- A JSON value. The members of an object keep their order. -/
inductive Json where
  | null
  | bool (b : Bool)
  | number (n : Nat)
  | string (s : Text)
  | array (items : List Json)
  | object (members : List (Text × Json))

namespace Json

def ofOption {α : Type} (f : α → Json) : Option α → Json
  | none => null
  | some a => f a

def ofTexts (ts : List Text) : Json := array (ts.map string)

/-! ## Text -/

def hexDigit (n : Nat) : Char := Nat.digitChar n

/-- How a character stands in a string. Control characters are written as escapes. -/
def escapeChar (c : Char) : Text :=
  if c = '"' then "\\\"".toList
  else if c = '\\' then "\\\\".toList
  else if c = '\n' then "\\n".toList
  else if c = '\r' then "\\r".toList
  else if c = '\t' then "\\t".toList
  else if c.toNat = 8 then "\\b".toList
  else if c.toNat = 12 then "\\f".toList
  else if c.toNat < 32 then "\\u00".toList ++ [hexDigit (c.toNat / 16), hexDigit (c.toNat % 16)]
  else [c]

def quoted (s : Text) : Text := '"' :: ((s.map escapeChar).flatten ++ ['"'])

/-- A new line with two spaces for each level. -/
def newline (level : Nat) : Text := '\n' :: List.replicate (2 * level) ' '

mutual

/-- The text of a value that stands at the given level of indentation. -/
def prettyAt (level : Nat) : Json → Text
  | null => "null".toList
  | bool true => "true".toList
  | bool false => "false".toList
  | number n => Text.ofNat n
  | string s => quoted s
  | array [] => "[]".toList
  | array (v :: vs) =>
    '[' :: (newline (level + 1) ++ prettyAt (level + 1) v ++ prettyItems (level + 1) vs
      ++ newline level ++ [']'])
  | object [] => "\x7b\x7d".toList
  | object (m :: ms) =>
    '\x7b' :: (newline (level + 1) ++ prettyMember (level + 1) m ++ prettyMembers (level + 1) ms
      ++ newline level ++ ['\x7d'])

/-- Further items, each after a comma and on a line of its own. -/
def prettyItems (level : Nat) : List Json → Text
  | [] => []
  | v :: vs => ',' :: (newline level ++ prettyAt level v ++ prettyItems level vs)

def prettyMember (level : Nat) : Text × Json → Text
  | (k, v) => quoted k ++ ": ".toList ++ prettyAt level v

/-- Further members, each after a comma and on a line of its own. -/
def prettyMembers (level : Nat) : List (Text × Json) → Text
  | [] => []
  | m :: ms => ',' :: (newline level ++ prettyMember level m ++ prettyMembers level ms)

end

def pretty (v : Json) : Text := prettyAt 0 v

end Json

end Agenda
