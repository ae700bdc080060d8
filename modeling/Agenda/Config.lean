import Agenda.Dictionary
import Agenda.Intent
import Agenda.Json.Source
import Agenda.Sql.Render
import Agenda.Token
/-!
# Configuration of the shell

A JSON file may set how the shell starts. A field that is missing has its default; what the program
does not know is passed over.
-/
namespace Agenda

/-- See B.4 of the specification. -/
structure Config where
  mode : Mode
  /-- What stands before the cursor on a terminal. -/
  prompt : Text
  historyFile : Option Text
  /-- The task that is selected. -/
  selected : Option Nat
  /-- Colours for kinds of token, by the name of the kind. -/
  styles : Dictionary
  sql : Sql.Config
deriving DecidableEq, Repr

/-- What there is at the place of a file. -/
inductive FileState where
  | missing
  /-- Something that is no file. -/
  | unreadable
  | bytes (b : ByteArray)

inductive ConfigError where
  | notFound
  /-- There is no file that is text in UTF-8. -/
  | notText
  /-- The text is no JSON value of the right form. -/
  | malformed
  | invalidStyle (name style : Text)
deriving DecidableEq, Repr

def ConfigError.message : ConfigError → Text
  | notFound => "config file not found".toList
  | notText => "cannot read config file".toList
  | malformed => "cannot parse config file".toList
  | invalidStyle name style =>
    "invalid highlight style \"".toList ++ style ++ "\" for \"".toList ++ name
      ++ "\" (expected SGR parameters such as \"1;34\")".toList

namespace Config

def standard : Config := ⟨.auto, "task> ".toList, none, none, .empty, .standard⟩

/-- The file that is looked for when no other is named. -/
def standardFile : Text := "task_dsl.json".toList

/-! ## Reading -/

open Json (Source)

/-- An object of texts; the last value of a key counts. -/
def readStyles? : Source → Option Dictionary
  | .object ms => do
    let entries ← (← Source.members? ms).mapM fun (k, v) => return ⟨k, ← v.text?⟩
    return Dictionary.ofList entries
  | _ => none

def readSql? (v : Source) : Option Sql.Config := do
  let fs ← v.fields? ["table".toList, "project_table".toList, "context_table".toList,
    "dialect".toList, "min_or_values_for_in".toList]
  let d := Sql.Config.standard
  return {
    table := ← Source.field? fs "table".toList d.table Source.text?
    projectTable := ← Source.field? fs "project_table".toList d.projectTable Source.text?
    contextTable := ← Source.field? fs "context_table".toList d.contextTable Source.text?
    dialect := ← Source.field? fs "dialect".toList d.dialect fun v =>
      v.choice?.bind Sql.Dialect.ofName?
    leastFold := ← Source.field? fs "min_or_values_for_in".toList d.leastFold Source.word? }

/-- The configuration that a JSON value makes, if it has the right form. -/
def ofSource? (v : Source) : Option Config := do
  let fs ← v.fields? ["mode".toList, "prompt".toList, "history_file".toList,
    "selected_task_id".toList, "highlight".toList, "sql".toList]
  let d := standard
  return {
    mode := ← Source.field? fs "mode".toList d.mode fun v => v.choice?.bind Mode.ofName?
    prompt := ← Source.field? fs "prompt".toList d.prompt Source.text?
    historyFile := ←
      Source.field? fs "history_file".toList d.historyFile (Source.optional? Source.text?)
    selected := ←
      Source.field? fs "selected_task_id".toList d.selected (Source.optional? Source.word?)
    styles := ← Source.field? fs "highlight".toList d.styles readStyles?
    sql := ← Source.field? fs "sql".toList d.sql readSql? }

/-- Whether a style is a run of numbers with semicolons between them. -/
def isStyle (style : Text) : Bool :=
  (Text.pieces ';' style).all fun part => part ≠ [] && part.all Char.isDigit

def firstInvalid? (config : Config) : Option Entry :=
  config.styles.entries.find? fun e => !isStyle e.value

def ofText (s : Text) : Except ConfigError Config :=
  match (Source.read? s).bind ofSource? with
  | none => .error .malformed
  | some config =>
    match config.firstInvalid? with
    | some e => .error (.invalidStyle e.key e.value)
    | none => .ok config

def ofFile : FileState → Except ConfigError Config
  | .missing => .error .notFound
  | .unreadable => .error .notText
  | .bytes b =>
    match String.fromUTF8? b with
    | none => .error .notText
    | some s => ofText s.toList

/-- The configuration in a file, or the standard one when there is no file; and whether there was
one. -/
def load (file : FileState) : Except ConfigError (Config × Bool) :=
  match ofFile file with
  | .ok config => .ok (config, true)
  | .error .notFound => .ok (standard, false)
  | .error e => .error e

/-- The keys among the colours that name no kind of token, in order. -/
def unknownStyles (config : Config) : List Text :=
  config.styles.keys.filter fun k => (TokenKind.ofName? k).isNone

end Config

end Agenda
