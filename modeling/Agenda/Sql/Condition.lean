import Agenda.Plan.Request
/-!
# Conditions on task rows

Tasks are the rows of one table. Their projects and contexts are rows of two further tables that
link the number of a task to a name. A condition says of a task row whether it is wanted.
-/
namespace Agenda.Sql

inductive Column where
  | id
  | title
  | notes
  | state
  | due
deriving DecidableEq, Repr

def Column.name : Column → Text
  | id => "id".toList
  | title => "title".toList
  | notes => "notes".toList
  | state => "state".toList
  | due => "due_on".toList

inductive Literal where
  | text (s : Text)
  | number (n : Nat)
deriving DecidableEq, Repr

inductive Condition where
  | equal (column : Column) (value : Literal)
  | among (column : Column) (values : List Literal)
  /-- The column has a value. -/
  | present (column : Column)
  /-- The column matches a pattern in which a backslash takes the character after it literally. -/
  | like (column : Column) (pattern : Text)
  /-- A link of the given kind exists for the task. -/
  | tagged (kind : TagKind) (names : TagMatch)
  /-- A link to one of the names exists for the task. -/
  | taggedAmong (kind : TagKind) (names : List Text)
  | both (left right : Condition)
  | either (left right : Condition)
  | not (inner : Condition)
deriving DecidableEq, Repr

namespace Condition

/-- A pattern character that stands for itself: a percent sign, an underscore and a backslash need
a backslash in front. -/
def escapePattern : Text → Text
  | [] => []
  | c :: r =>
    if c = '%' ∨ c = '_' ∨ c = '\\' then '\\' :: c :: escapePattern r else c :: escapePattern r

/-- The pattern of the texts in which `s` occurs. -/
def substringPattern (s : Text) : Text := '%' :: (escapePattern s ++ ['%'])

/-- The text `s` occurs in the title or in the notes. -/
def contains (s : Text) : Condition :=
  either (like .title (substringPattern s)) (like .notes (substringPattern s))

/-- All of the conditions, grouped from the left; nothing when there are none. -/
def all? : List Condition → Option Condition
  | [] => none
  | c :: cs => some (cs.foldl both c)

end Condition

end Agenda.Sql
