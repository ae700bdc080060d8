import Agenda.Token
import Agenda.Text.Blank
/-!
# Value runs

A run of tokens read as one value: their values with one space between neighbours, except that a
colon, a comma and a token that ends in a colon stick to what stands beside them.

Results: the empty run is the empty value (`join_nil`).
-/
namespace Agenda.ValueRun

def sticksBefore (t : Token) : Bool := t.kind == .colon || t.kind == .comma

def sticksAfter (t : Token) : Bool :=
  sticksBefore t || (t.kind != .quoted && t.text.getLast? == some ':')

/-- The values of a run. `begun` says that there is text before it, `glued` that the token before it
sticks to what comes. -/
def spread (begun glued : Bool) : List Token → Text
  | [] => []
  | t :: ts =>
    (if begun && !glued && !sticksBefore t then [' '] else []) ++ t.value
      ++ spread (begun || !t.value.isEmpty) (sticksAfter t) ts

/-- See 4.3 and B.7 of the specification. -/
def join (ts : List Token) : Text := Text.trim (spread false false ts)

theorem join_nil : join [] = [] := rfl

end Agenda.ValueRun
