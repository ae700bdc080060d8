import Agenda.Command.Basic
import Agenda.Lexer
import Agenda.ValueRun
/-!
# Canonical form

The text of a command in one fixed form, which reads back as the same command. A value stands
without quotes when its tokens join to it again; failing that, only its offending fragments are
quoted; failing that, all of it is.
-/
namespace Agenda

namespace Canonical

/-- A token that may stand in a value that is not quoted. -/
def fitsOpValue (t : Token) : Bool :=
  !t.kind.startsOp && !t.kind.isOpenString && t.kind != .quoted && !t.kind.isMark

/-- One of the words that combine filters. -/
def isKeyword (t : Token) : Bool :=
  t.isWord "and".toList || t.isWord "or".toList || t.isWord "not".toList

/-- A token that may stand in a filter's value that is not quoted. -/
def fitsFilterValue (t : Token) : Bool :=
  !isKeyword t && !t.kind.isOpenString && t.kind != .quoted && t.kind != .rightParen
    && t.kind != .andOp && t.kind != .orOp && !t.kind.isMark

/-- The text is cut into tokens that all satisfy `fits`, and joins to itself again. -/
def isPlainRun (fits : Token → Bool) (s : Text) : Bool :=
  let l := Lexer.lex s
  l.failure.isNone && !l.tokens.isEmpty && l.tokens.all fits && ValueRun.join l.tokens == s

/-- The text is one word that is no keyword. -/
def isPlainWord (s : Text) : Bool :=
  let l := Lexer.lex s
  l.failure.isNone && match l.tokens with
    | [t] => t.kind == .ident && t.text == s && fitsFilterValue t
    | _ => false

/-- The fragments between spaces, those that cannot stand plainly in quotes. -/
def requoted (s : Text) : Text :=
  Text.joinWith ' '
    ((Text.pieces ' ' s).map fun p => if isPlainRun fitsOpValue p then p else p.quote)

/-- The text is cut into tokens that start with an unquoted one, none of them ends a value, and they
join to `s`. -/
def readsBackAs (s rendered : Text) : Bool :=
  let l := Lexer.lex rendered
  l.failure.isNone && (l.tokens.head?.any fun t => t.kind != .quoted)
    && (l.tokens.all fun t => t.kind == .quoted || fitsOpValue t) && ValueRun.join l.tokens == s

/-- A value as it stands after its field. -/
def value (v : Value) : Text :=
  if !v.quoted && isPlainRun fitsOpValue v.raw then v.raw
  else if !v.quoted && readsBackAs v.raw (requoted v.raw) then requoted v.raw
  else v.raw.quote

def title (s : Text) : Text := if isPlainRun fitsOpValue s then s else s.quote

end Canonical

open Canonical

def Op.canonical : Op → Text
  | .edit how field v _ => how.sign ++ field.name ++ ':' :: value v
  | .clear field _ => '!' :: field.name
  | .tag kind name _ => kind.sigil :: name

/-- Stronger operators have a greater level. -/
def BoolOp.level : BoolOp → Nat
  | .or => 1
  | .and => 2

namespace Filter

def negationLevel : Nat := 3

/-- A filter of level `own` needs parentheses inside one of level `outer`. On the right of an
operator it needs them also when both levels are that of the operator. -/
def needsParens (own outer : Nat) (onRight : Bool) : Bool :=
  own < outer || (onRight && own == outer && own < negationLevel)

def parenthesized (needed : Bool) (s : Text) : Text := if needed then '(' :: (s ++ [')']) else s

def predicateText (kind : PredicateKind) (text : Text) : Text :=
  if kind = .text then
    if isPlainWord text then text else text.quote
  else
    kind.name ++ ':' :: if isPlainRun fitsFilterValue text then text else text.quote

/-- The canonical form of a filter that stands inside one of level `outer`. -/
def canonicalIn (outer : Nat) (onRight : Bool) : Filter → Text
  | binary op l r _ =>
    parenthesized (needsParens op.level outer onRight)
      (l.canonicalIn op.level false ++ ' ' :: op.name ++ ' ' :: r.canonicalIn op.level true)
  | negation e _ =>
    parenthesized (needsParens negationLevel outer onRight)
      ("not ".toList ++ e.canonicalIn negationLevel false)
  | predicate kind text _ => predicateText kind text

def canonical (e : Filter) : Text := e.canonicalIn 0 false

end Filter

/-- The canonical form of operations, each after a space. -/
def Op.canonicalAll (ops : List Op) : Text := (ops.map fun op => ' ' :: op.canonical).flatten

def Target.canonical : Target → Text
  | .selected => "selected".toList
  | .id n => '#' :: Text.ofNat n

def ContextArg.canonical : ContextArg → Text
  | .clear => "clear".toList
  | .tag kind name => kind.sigil :: name

namespace Command

/-- What follows the verb in the canonical form. -/
def canonicalRest : Command → Text
  | create t ops _ => (if t = [] then [] else ' ' :: title t) ++ Op.canonicalAll ops
  | update target ops _ => ' ' :: target.canonical ++ Op.canonicalAll ops
  | filter e _ => ' ' :: e.canonical
  | view none _ => []
  | view (some v) _ => ' ' :: v.name
  | context none _ => []
  | context (some a) _ => ' ' :: a.canonical

/-- See B.9 of the specification. -/
def canonical (c : Command) : Text := c.intent.verb ++ c.canonicalRest

end Command

end Agenda
