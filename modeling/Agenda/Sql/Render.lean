import Agenda.Sql.Query
import Agenda.Text.Number
/-!
# Queries as SQL

The text of a query in one of two dialects, which differ in their string constants. An operand is in
parentheses unless it is a comparison of any sort or, on the left, has the same operator.
-/
namespace Agenda.Sql

inductive Dialect where
  | postgres
  | sqlite
deriving DecidableEq, Repr

namespace Dialect

def name : Dialect → Text
  | postgres => "postgres".toList
  | sqlite => "sqlite".toList

def all : List Dialect := [postgres, sqlite]

def ofName? (s : Text) : Option Dialect := all.find? fun d => d.name == s

end Dialect

structure Config where
  table : Text
  projectTable : Text
  contextTable : Text
  dialect : Dialect
  /-- So many values of one column make a list. -/
  leastFold : Nat
deriving DecidableEq, Repr

namespace Config

def standard : Config :=
  ⟨"tasks".toList, "task_projects".toList, "task_contexts".toList, .postgres, 2⟩

/-- The table that links tasks to tags of a kind. -/
def linkTable (config : Config) : TagKind → Text
  | .project => config.projectTable
  | .context => config.contextTable

end Config

/-! ## Names and constants -/

/-- A text between two quotes of the given kind, with those inside it doubled. -/
def doubled (quote : Char) (s : Text) : Text :=
  quote :: (s.flatMap (fun c => if c = quote then [c, c] else [c]) ++ [quote])

def identifier (s : Text) : Text := doubled '"' s

def qualified (table column : Text) : Text := identifier table ++ '.' :: identifier column

/-- The escape of a character in a string with escapes, if it has one. -/
def escape? (c : Char) : Option Char :=
  if c = '\\' ∨ c = '"' ∨ c = '\'' then some c
  else if c = '\n' then some 'n'
  else if c = '\r' then some 'r'
  else if c = '\t' then some 't'
  else if c = '\x00' then some '0'
  else if c = '\x08' then some 'b'
  else if c = '\x1a' then some 'z'
  else none

def escapeChar (c : Char) : Text :=
  match escape? c with
  | some e => ['\\', e]
  | none => [c]

/-- A string constant. PostgreSQL takes escapes in a string with an `E` in front; SQLite doubles
single quotes. -/
def string (dialect : Dialect) (s : Text) : Text :=
  match dialect with
  | .postgres =>
    let body := '\'' :: (s.flatMap escapeChar ++ ['\''])
    if s.any fun c => (escape? c).isSome then 'E' :: body else body
  | .sqlite => doubled '\'' s

def Literal.render (dialect : Dialect) : Literal → Text
  | text s => string dialect s
  | number n => Text.ofNat n

def commas : List Text → Text
  | [] => []
  | [s] => s
  | s :: t :: r => s ++ ", ".toList ++ commas (t :: r)

def tuple (dialect : Dialect) (values : List Literal) : Text :=
  '(' :: (commas (values.map (Literal.render dialect)) ++ [')'])

/-! ## Conditions -/

def Condition.isCompound : Condition → Bool
  | both .. | either .. | not _ => true
  | _ => false

def Condition.isBoth : Condition → Bool
  | both .. => true
  | _ => false

def Condition.isEither : Condition → Bool
  | either .. => true
  | _ => false

def parenthesized (asked : Bool) (s : Text) : Text := if asked then '(' :: (s ++ [')']) else s

/-- There is a row of the link table for the task, and `more` holds of it. -/
def existsLink (config : Config) (kind : TagKind) (more : Text) : Text :=
  let link := config.linkTable kind
  "EXISTS(SELECT 1 FROM ".toList ++ identifier link ++ " WHERE ".toList
    ++ qualified link "task_id".toList ++ " = ".toList ++ qualified config.table Column.id.name
    ++ more ++ [')']

/-- A further condition on the name in a link table. -/
def nameIs (config : Config) (kind : TagKind) (test : Text) : Text :=
  " AND ".toList ++ qualified (config.linkTable kind) "name".toList ++ ' ' :: test

def Condition.render (config : Config) : Condition → Text
  | equal c v => qualified config.table c.name ++ " = ".toList ++ v.render config.dialect
  | among c vs => qualified config.table c.name ++ " IN ".toList ++ tuple config.dialect vs
  | present c => qualified config.table c.name ++ " IS NOT NULL".toList
  | like c pattern =>
    qualified config.table c.name ++ " LIKE ".toList ++ string config.dialect pattern
      ++ " ESCAPE ".toList ++ string config.dialect ['\\']
  | tagged kind .any => existsLink config kind []
  | tagged kind (.named n) =>
    existsLink config kind (nameIs config kind ("= ".toList ++ string config.dialect n))
  | taggedAmong kind ns =>
    existsLink config kind
      (nameIs config kind ("IN ".toList ++ tuple config.dialect (ns.map .text)))
  | both l r =>
    parenthesized (l.isCompound && !l.isBoth) (l.render config) ++ " AND ".toList
      ++ parenthesized r.isCompound (r.render config)
  | either l r =>
    parenthesized (l.isCompound && !l.isEither) (l.render config) ++ " OR ".toList
      ++ parenthesized r.isCompound (r.render config)
  | not e => "NOT ".toList ++ parenthesized e.isCompound (e.render config)

/-- The text of a query: the rows of the task table, by number. -/
def Query.render (config : Config) (q : Query) : Text :=
  "SELECT * FROM ".toList ++ identifier config.table
    ++ (match q.condition with
      | none => []
      | some c => " WHERE ".toList ++ c.render config)
    ++ " ORDER BY ".toList ++ qualified config.table Column.id.name ++ " ASC".toList

end Agenda.Sql
