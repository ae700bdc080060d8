import Agenda.Text.Blank
import Agenda.Text.Lowercase
/-!
# Fields

The fields of a task, the words by which a line names them, and the key that such a word stands
for. Two keys, `id` and `text`, occur in filters only and are no fields.

Results: a field's name names it (`Field.ofName?_name`).
-/
namespace Agenda

inductive Field where
  | title
  | notes
  | due
  | waiting
  | state
  | projects
  | contexts
  | metadata
deriving DecidableEq, Repr

namespace Field

def all : List Field := [title, notes, due, waiting, state, projects, contexts, metadata]

def name : Field → Text
  | title => "title".toList
  | notes => "notes".toList
  | due => "due".toList
  | waiting => "waiting".toList
  | state => "state".toList
  | projects => "projects".toList
  | contexts => "contexts".toList
  | metadata => "meta".toList

def ofName? (s : Text) : Option Field := all.find? fun f => f.name == s

theorem ofName?_name (f : Field) : ofName? f.name = some f := by cases f <;> decide

/-- The words that the lexical rules know as field names. A word stands before every word that it
continues, so that the first match is the longest. -/
def words : List Text :=
  ["waiting-for".toList, "waiting_for".toList, "contexts".toList, "projects".toList,
   "context".toList, "project".toList, "waiting".toList, "notes".toList, "state".toList,
   "title".toList, "meta".toList, "text".toList, "due".toList, "id".toList]

/-- The key that a field word stands for. -/
def unalias (s : Text) : Text :=
  if s = "waiting-for".toList ∨ s = "waiting_for".toList then "waiting".toList
  else if s = "project".toList then "projects".toList
  else if s = "context".toList then "contexts".toList
  else s

/-- The key of a field token: signs in front and colons behind fall away, blanks around the rest too;
what is left is taken in lower case and without its alias. See 4.3 of the specification. -/
def key (s : Text) : Text :=
  let unsigned := s.dropWhile fun c => c == '+' || c == '-' || c == '!'
  unalias (Text.lower (Text.trim (Text.dropRightWhile (· == ':') unsigned)))

end Field

inductive TagKind where
  | project
  | context
deriving DecidableEq, Repr

namespace TagKind

def name : TagKind → Text
  | project => "project".toList
  | context => "context".toList

/-- The list field that holds tags of this kind. -/
def field : TagKind → Field
  | project => .projects
  | context => .contexts

def sigil : TagKind → Char
  | project => '#'
  | context => '@'

theorem utf8Size_sigil (k : TagKind) : k.sigil.utf8Size = 1 := by cases k <;> rfl

end TagKind

end Agenda
