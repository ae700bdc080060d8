import Agenda.Field
import Agenda.Position
/-!
# Operations

What a create or update command does to one field: set it, add to it, remove from it, clear it, or
give the task a tag. Which fields allow which operation is decided when the command is compiled.
-/
namespace Agenda

/-- A value as it was written, and whether it was one quotation. -/
structure Value where
  raw : Text
  quoted : Bool
  span : Span
deriving DecidableEq, Repr

inductive Edit where
  | set
  | add
  | remove
deriving DecidableEq, Repr

namespace Edit

def name : Edit → Text
  | set => "set".toList
  | add => "add".toList
  | remove => "remove".toList

def sign : Edit → Text
  | set => []
  | add => ['+']
  | remove => ['-']

end Edit

/-- One operation of a create or update command. See A.3 of the specification. -/
inductive Op where
  | edit (how : Edit) (field : Field) (value : Value) (span : Span)
  | clear (field : Field) (span : Span)
  | tag (kind : TagKind) (name : Text) (span : Span)
deriving DecidableEq, Repr

namespace Op

def span : Op → Span
  | edit _ _ _ s => s
  | clear _ s => s
  | tag _ _ s => s

def field : Op → Field
  | edit _ f _ _ => f
  | clear f _ => f
  | tag k _ _ => k.field

def withoutSpans : Op → Op
  | edit h f v _ => edit h f { v with span := .zero } .zero
  | clear f _ => clear f .zero
  | tag k n _ => tag k n .zero

def describe : Op → Text
  | edit h f v _ => h.name ++ ' ' :: f.name ++ " \"".toList ++ v.raw ++ ['"']
  | clear f _ => "clear ".toList ++ f.name
  | tag k n _ => "tag ".toList ++ k.name ++ " \"".toList ++ n ++ ['"']

end Op

end Agenda
