import Agenda.Dictionary
import Agenda.Lexer
/-!
# Colours

A palette gives the kinds of token their colours, as parameters of the terminal's escape sequence.
A line is painted token by token, whatever it is; what comes after the last token stays plain.
-/
namespace Agenda

/-- The colours of the kinds of token; a kind may have none. -/
abbrev Palette := TokenKind → Option Text

namespace Palette

def standard : Palette
  | .quoted | .quoteStart | .stringText | .quoteEnd => some "32".toList
  | .stringEscape | .stringBackslash => some "1;32".toList
  | .hashNumber => some "33".toList
  | .projectTag => some "1;34".toList
  | .contextTag => some "1;35".toList
  | .projectMark => some "34".toList
  | .contextMark => some "35".toList
  | .setField | .addField | .removeField | .clearField => some "36".toList
  | .clearOp | .addOp | .removeOp => some "1;36".toList
  | .andOp | .orOp => some "1;33".toList
  | .leftParen | .rightParen => some "1".toList
  | .colon | .comma => some "2".toList
  | .ident | .whitespace => none

/-- The standard colours, but those in `styles` for the kinds that it names. An empty style takes
the colour away. -/
def ofStyles (styles : Dictionary) : Palette := fun kind =>
  match styles.find? kind.name with
  | none => standard kind
  | some [] => none
  | some style => some style

def sequence (parameters : Text) : Text := '\x1b' :: '[' :: (parameters ++ ['m'])

/-- A text in the colour of a kind, which ends with it. -/
def paintText (p : Palette) (kind : TokenKind) (s : Text) : Text :=
  match p kind with
  | none => s
  | some style => sequence style ++ s ++ sequence ['0']

/-- A text cut into pieces, with every token in its colour. -/
def paintLexed (p : Palette) (l : Lexer.Lexed) : Text :=
  (l.pieces.map fun piece => piece.gap ++ p.paintText piece.token.kind piece.token.text).flatten
    ++ l.tail

/-- See B.9 of the specification. -/
def paint (p : Palette) (s : Text) : Text := p.paintLexed (Lexer.lex s)

/-- A line of the shell as the editor shows it: an instruction to the shell stays plain. -/
def paintLine (p : Palette) (line : Text) : Text :=
  if line.head? = some ':' then line else p.paint line

end Palette

end Agenda
