import Agenda.Text.Byte
import Agenda.Text.Number
/-!
# Positions and spans

A position counts bytes of the UTF-8 form, lines, and characters within the line. A span runs from
one position up to another.

Results: passing over a text is passing over its parts (`Position.after_append`); the offset grows
by the number of bytes (`Position.offset_after`).
-/
namespace Agenda

structure Position where
  /-- Bytes before it. -/
  offset : Nat
  /-- Line, from one. -/
  line : Nat
  /-- Character in the line, from one. -/
  column : Nat
deriving DecidableEq, Repr

namespace Position

def origin : Position := ⟨0, 1, 1⟩

/-- The position of no text at all. -/
def zero : Position := ⟨0, 0, 0⟩

/-- The position after the character `c`. A line feed begins a line. -/
def next (p : Position) (c : Char) : Position :=
  if c = '\n' then ⟨p.offset + c.utf8Size, p.line + 1, 1⟩
  else ⟨p.offset + c.utf8Size, p.line, p.column + 1⟩

def after (p : Position) (s : Text) : Position := s.foldl next p

def trail (p : Position) : Text → List Position
  | [] => []
  | c :: r => p.next c :: (p.next c).trail r

@[simp] theorem after_nil (p : Position) : p.after [] = p := rfl

@[simp] theorem after_cons (p : Position) (c : Char) (s : Text) :
    p.after (c :: s) = (p.next c).after s := rfl

theorem after_append (p : Position) (s t : Text) : p.after (s ++ t) = (p.after s).after t :=
  List.foldl_append

end Position

theorem Position.offset_next (p : Position) (c : Char) :
    (p.next c).offset = p.offset + c.utf8Size := by
  unfold next; split <;> rfl

theorem Position.offset_after (p : Position) (s : Text) :
    (p.after s).offset = p.offset + s.byteSize := by
  induction s generalizing p with
  | nil => rfl
  | cons c s ih => rw [after_cons, ih, offset_next]; simp [Text.byteSize]; omega

/-- The part of a text from `start` up to `stop`. -/
structure Span where
  start : Position
  stop : Position
deriving DecidableEq, Repr

namespace Span

/-- The span of what has no place in a text. -/
def zero : Span := ⟨.zero, .zero⟩

def point (p : Position) : Span := ⟨p, p⟩

/-- The least span over both: on equal offsets the ends of `a` stay. -/
def cover (a b : Span) : Span :=
  ⟨if b.start.offset < a.start.offset then b.start else a.start,
   if b.stop.offset > a.stop.offset then b.stop else a.stop⟩

def render (s : Span) : Text :=
  Text.ofNat s.start.line ++ ':' :: Text.ofNat s.start.column ++ '-' :: Text.ofNat s.stop.line
    ++ ':' :: Text.ofNat s.stop.column

end Span

end Agenda
