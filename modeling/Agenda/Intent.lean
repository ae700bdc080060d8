import Agenda.Text.Blank
/-!
# Intents and modes

The five kinds of command, the verbs that ask for them, and the mode in which a line is read: any
command, or one intent that needs no verb.

Results: an intent is what its canonical verb asks for (`Intent.ofVerb?_verb`).
-/
namespace Agenda

inductive Intent where
  | create
  | update
  | filter
  | view
  | context
deriving DecidableEq, Repr

namespace Intent

def all : List Intent := [create, update, filter, view, context]

def name : Intent → Text
  | create => "create".toList
  | update => "update".toList
  | filter => "filter".toList
  | view => "view".toList
  | context => "context".toList

/-- The verbs that ask for an intent, in lower case. See 4.3 of the specification. -/
def verbs : Intent → List Text
  | create => ["add".toList, "create".toList, "new".toList]
  | update => ["set".toList, "edit".toList, "update".toList]
  | filter => ["find".toList, "show".toList, "list".toList, "filter".toList]
  | view => ["view".toList]
  | context => ["context".toList]

/-- The verb of the canonical form. -/
def verb : Intent → Text
  | create => "add".toList
  | update => "set".toList
  | filter => "find".toList
  | view => "view".toList
  | context => "context".toList

def ofVerb? (word : Text) : Option Intent :=
  all.find? fun i => i.verbs.contains (Text.asciiLower word)

theorem ofVerb?_verb (i : Intent) : ofVerb? i.verb = some i := by cases i <;> decide

end Intent

inductive Mode where
  /-- A verb says which command it is. -/
  | auto
  /-- Without a verb the line is a command of the given intent. -/
  | only (intent : Intent)
deriving DecidableEq, Repr

structure UnknownMode where
  text : Text
deriving DecidableEq, Repr

def UnknownMode.message (e : UnknownMode) : Text :=
  "unknown parse mode \"".toList ++ e.text
    ++ "\" (expected auto|create|update|filter|view|context)".toList

namespace Mode

def intent? : Mode → Option Intent
  | auto => none
  | only i => some i

def name : Mode → Text
  | auto => "auto".toList
  | only i => i.name

def all : List Mode := auto :: Intent.all.map only

def ofName? (s : Text) : Option Mode := all.find? fun m => m.name == s

/-- Reads a mode's name, in any case and with blanks around it. -/
def read (s : Text) : Except UnknownMode Mode :=
  let word := Text.asciiLower (Text.trim s)
  match ofName? word with
  | some m => .ok m
  | none => .error ⟨word⟩

end Mode

end Agenda
