import Agenda.Text.Basic
/-!
# Lines

A line feed ends a line, together with a carriage return right before it. Nothing after the last
line feed is no line.
-/
namespace Agenda.Text

/-- A line, backwards, without a carriage return at its end. -/
def dropReturn : Text → Text
  | '\r' :: r => r
  | s => s

/-- The lines of a text, of whose first line `line` (backwards) has been read already. -/
def linesFrom (line : Text) : Text → List Text
  | [] => if line = [] then [] else [line.reverse]
  | c :: r =>
    if c = '\n' then (dropReturn line).reverse :: linesFrom [] r else linesFrom (c :: line) r

def lines (s : Text) : List Text := linesFrom [] s

end Agenda.Text
