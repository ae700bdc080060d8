import Agenda.Position
import Agenda.Text.Byte
import Agenda.Text.Quoted
/-!
# Tokens

The smallest units of a line: what kind each is, the text it covers, and where it stands.

Results: what comes after a sigil (`Token.afterSigil?_eq_some_iff`).
-/
namespace Agenda

inductive TokenKind where
  /-- A text in closed quotes. -/
  | quoted
  /-- `#42`. -/
  | hashNumber
  /-- `#home`. -/
  | projectTag
  /-- `@errands`. -/
  | contextTag
  /-- A `#` with no name after it. -/
  | projectMark
  /-- An `@` with no name after it. -/
  | contextMark
  /-- `due:`. -/
  | setField
  /-- `+project:`. -/
  | addField
  /-- `-context:`. -/
  | removeField
  /-- `!due`. -/
  | clearField
  /-- A `!` by itself. -/
  | clearOp
  /-- A `+` by itself. -/
  | addOp
  /-- A `-` by itself. -/
  | removeOp
  | colon
  | comma
  | leftParen
  | rightParen
  /-- `&&`. -/
  | andOp
  /-- `||`. -/
  | orOp
  /-- A word. -/
  | ident
  /-- Blank space; a kind that may be given a colour, though no token has it. -/
  | whitespace
  /-- A quote that is never closed. -/
  | quoteStart
  /-- Plain text after a quote that is never closed. -/
  | stringText
  /-- A backslash and the character after it, in an open string. -/
  | stringEscape
  /-- A backslash at the end of an open string. -/
  | stringBackslash
  /-- A quote that closes an open string. -/
  | quoteEnd
deriving DecidableEq, Repr

namespace TokenKind

/-- Every kind, in the order of the lexical rules. -/
def all : List TokenKind :=
  [quoted, hashNumber, projectTag, contextTag, projectMark, contextMark, setField, addField,
   removeField, clearField, clearOp, addOp, removeOp, colon, comma, leftParen, rightParen, andOp,
   orOp, ident, whitespace, quoteStart, stringText, stringEscape, stringBackslash, quoteEnd]

/-- The name by which a configuration refers to a kind. -/
def name : TokenKind → Text
  | quoted => "Quoted".toList
  | hashNumber => "HashNumber".toList
  | projectTag => "ProjectTag".toList
  | contextTag => "ContextTag".toList
  | projectMark => "ProjectTagPrefix".toList
  | contextMark => "ContextTagPrefix".toList
  | setField => "SetField".toList
  | addField => "AddField".toList
  | removeField => "RemoveField".toList
  | clearField => "ClearField".toList
  | clearOp => "ClearOp".toList
  | addOp => "AddOp".toList
  | removeOp => "RemoveOp".toList
  | colon => "Colon".toList
  | comma => "Comma".toList
  | leftParen => "LParen".toList
  | rightParen => "RParen".toList
  | andOp => "AndOp".toList
  | orOp => "OrOp".toList
  | ident => "Ident".toList
  | whitespace => "Whitespace".toList
  | quoteStart => "QuoteStart".toList
  | stringText => "StringText".toList
  | stringEscape => "StringEscape".toList
  | stringBackslash => "StringBackslash".toList
  | quoteEnd => "QuoteEnd".toList

def ofName? (s : Text) : Option TokenKind := all.find? fun k => k.name == s

/-- Kinds that begin an operation of a create or update command. -/
def startsOp : TokenKind → Bool
  | setField | addField | removeField | clearField | projectTag | contextTag => true
  | _ => false

/-- Kinds found only from a quote that is never closed on. -/
def isOpenString : TokenKind → Bool
  | quoteStart | stringText | stringEscape | stringBackslash | quoteEnd => true
  | _ => false

/-- A sigil without a name. -/
def isMark : TokenKind → Bool
  | projectMark | contextMark => true
  | _ => false

/-- `#name` or `@name`. -/
def isTag : TokenKind → Bool
  | projectTag | contextTag => true
  | _ => false

/-- A sigil and what it is for: a number or a name. -/
def hasSigil (k : TokenKind) : Bool := k == hashNumber || k.isTag

end TokenKind

/-- See A.3 of the specification. -/
structure Token where
  kind : TokenKind
  text : Text
  span : Span
deriving DecidableEq, Repr

namespace Token

/-- What the token adds to a value: a quoted text what it says, any other token itself. -/
def value (t : Token) : Text := if t.kind = .quoted then t.text.unquote else t.text

/-- `u` follows `t` without a gap. -/
def touches (t u : Token) : Bool := t.span.stop.offset == u.span.start.offset

def isWord (t : Token) (w : Text) : Bool := t.kind == .ident && Text.sameWord t.text w

/-- The text without its first byte, the sigil. A text that is empty, or begins with a longer character,
cannot be cut there. -/
def afterSigil? (t : Token) : Option Text := (Text.splitAtByte? 1 t.text).map Prod.snd

theorem afterSigil?_eq_some_iff {t : Token} {s : Text} :
    t.afterSigil? = some s ↔ ∃ c : Char, c.utf8Size = 1 ∧ t.text = c :: s := by
  constructor
  · intro h
    obtain ⟨⟨a, b⟩, hsplit, rfl⟩ := Option.map_eq_some_iff.1 h
    obtain ⟨htext, hsize⟩ := Text.splitAtByte?_eq_some hsplit
    -- a text of one byte is one character
    cases a with
    | nil => cases hsize
    | cons c a =>
      have hc := c.utf8Size_pos
      rw [Text.byteSize_cons] at hsize
      cases a with
      | nil => exact ⟨c, hsize, htext⟩
      | cons d a =>
        have hd := d.utf8Size_pos
        rw [Text.byteSize_cons] at hsize
        omega
  · intro h
    obtain ⟨c, hc, htext⟩ := h
    have hsplit := Text.splitAtByte?_append [c] s
    rw [Text.byteSize_cons, Text.byteSize_nil, hc] at hsplit
    rw [afterSigil?, htext, show c :: s = [c] ++ s from rfl, hsplit]
    rfl

/-- The token can be cut after its sigil, if it has one. -/
def IsCuttable (t : Token) : Prop := t.kind.hasSigil = true → t.afterSigil?.isSome = true

instance (t : Token) : Decidable t.IsCuttable := inferInstanceAs (Decidable (_ → _))

end Token

end Agenda
