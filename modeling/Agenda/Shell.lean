import Agenda.Canonical
import Agenda.Config
import Agenda.Plan.Encoding
import Agenda.Reading
import Agenda.Sql.Render
/-!
# The shell

A line of the shell is an instruction to the shell itself, which begins with a colon, or a command,
which is read and compiled and shown. Only instructions change how the shell goes on.

Results: a line that is a command, or an instruction that is refused, leaves the shell as it is
(`next_eq_self`).
-/
namespace Agenda

structure Shell where
  mode : Mode
  /-- The task that is selected. -/
  selected : Option Nat
  showTokens : Bool
  showSql : Bool
  sql : Sql.Config
deriving DecidableEq, Repr

namespace Shell

def start (config : Config) : Shell := ⟨config.mode, config.selected, false, false, config.sql⟩

/-! ## Instructions -/

/-- See B.9 of the specification. -/
inductive Instruction where
  | quit
  | help
  | showMode
  | setMode (mode : Mode)
  | unknownMode (e : UnknownMode)
  | select (id : Nat)
  | invalidId (word : Text)
  | deselect
  | toggleTokens
  | toggleSql
  | unknown (word : Text)
  /-- The line is a command. -/
  | run
deriving DecidableEq, Repr

namespace Instruction

def ofId (word : Text) : Instruction :=
  match Text.readHashed? word with
  | some n => if n = 0 then invalidId word else select n
  | none => invalidId word

def ofMode (word : Text) : Instruction :=
  match Mode.read word with
  | .ok m => setMode m
  | .error e => unknownMode e

/-- The instruction that a word and the word after it make. -/
def ofWords (word : Text) (argument : Option Text) : Instruction :=
  if word = ":quit".toList ∨ word = ":q".toList ∨ word = ":exit".toList then quit
  else if word = ":help".toList then help
  else if word = ":mode".toList then argument.elim showMode ofMode
  else if word = ":select".toList then argument.elim deselect ofId
  else if word = ":tokens".toList then toggleTokens
  else if word = ":sql".toList then toggleSql
  else if word.head? = some ':' then unknown word
  else run

/-- The instruction of a line; words after the second count for nothing. -/
def ofLine (line : Text) : Instruction :=
  match Text.words line with
  | [] => run
  | word :: rest => ofWords word rest.head?

def isRefused : Instruction → Bool
  | unknownMode _ | invalidId _ | unknown _ => true
  | _ => false

end Instruction

def apply (sh : Shell) : Instruction → Shell
  | .setMode m => { sh with mode := m }
  | .select n => { sh with selected := some n }
  | .deselect => { sh with selected := none }
  | .toggleTokens => { sh with showTokens := !sh.showTokens }
  | .toggleSql => { sh with showSql := !sh.showSql }
  | .quit | .help | .showMode | .unknownMode _ | .invalidId _ | .unknown _ | .run => sh

def next (sh : Shell) (line : Text) : Shell := sh.apply (.ofLine line)

theorem next_eq_self (sh : Shell) {line : Text}
    (h : Instruction.ofLine line = .run ∨ (Instruction.ofLine line).isRefused = true) :
    sh.next line = sh := by
  revert h
  unfold next
  cases Instruction.ofLine line <;> simp [apply, Instruction.isRefused]

/-! ## Commands -/

def tokenLine (t : Token) : Text :=
  t.kind.name ++ ' ' :: Text.padRight 20 t.text ++ ' ' :: t.span.render

def errorLine (e : CompileError) : Text :=
  "error[E_CMD]: ".toList ++ e.message
    ++ match e.span with
      | none => []
      | some s => " at ".toList ++ s.render

/-- The query of a plan, if it makes one. -/
def sqlLines (config : Sql.Config) (plan : Plan) : List Text :=
  match plan.listRequest? with
  | none => []
  | some r =>
    match Sql.Query.ofRequest config.leastFold r with
    | .ok q => ["sql: ".toList ++ q.render config]
    | .error e => ["sql error: ".toList ++ e.message]

/-- What becomes of the command that was read. After an error of reading nothing is added. -/
def planLines (sh : Shell) (r : Reading) : List Text :=
  match r.compile none sh.selected with
  | .ok plan => plan.toJson.pretty :: if sh.showSql then sqlLines sh.sql plan else []
  | .error e => if r.hasErrors then [] else [errorLine e]

/-- What is shown of a command: its tokens if asked for, the diagnostics, and its plan. -/
def commandLines (sh : Shell) (now : Timestamp) (line : Text) : List Text :=
  let r := (Reading.ofLine sh.mode now line).1
  (if sh.showTokens then (Lexer.lex line).tokens.map tokenLine else [])
    ++ r.diagnostics.map (·.render line)
    ++ match r.command with
      | none => []
      | some c => ("canonical: ".toList ++ c.canonical) :: sh.planLines r

/-- The lines as one text, without blanks at its end. -/
def joinLines (lines : List Text) : Text := Text.trimRight (lines.flatMap (· ++ ['\n']))

/-! ## Output -/

def helpText : Text :=
  ("commands:\n"
    ++ "  :mode <auto|create|update|filter|view|context>   force a parse mode\n"
    ++ "  :select [id]                                     set or clear the selected task\n"
    ++ "  :tokens                                          toggle the token dump\n"
    ++ "  :sql                                             toggle SQL for listings\n"
    ++ "  :quit                                            leave the shell\n"
    ++ "anything else is parsed and compiled, e.g. `add buy milk due:tomorrow #home`").toList

def onOff (b : Bool) : Text := if b then "on".toList else "off".toList

/-- What is shown after a line, given the shell that it found; nothing when the line leaves the
shell. -/
def output (sh : Shell) (now : Timestamp) (line : Text) : Option Text :=
  match Instruction.ofLine line with
  | .quit => none
  | .help => some helpText
  | .showMode => some ("mode: ".toList ++ sh.mode.name)
  | .setMode m => some ("mode: ".toList ++ m.name)
  | .unknownMode e => some ("error: ".toList ++ e.message)
  | .select n => some ("selected: #".toList ++ Text.ofNat n)
  | .invalidId word => some ("error: invalid task id \"".toList ++ word ++ ['"'])
  | .deselect => some "selection cleared".toList
  | .toggleTokens => some ("tokens: ".toList ++ onOff (!sh.showTokens))
  | .toggleSql => some ("sql: ".toList ++ onOff (!sh.showSql))
  | .unknown word =>
    some ("error: unknown shell command \"".toList ++ word ++ "\" (try :help)".toList)
  | .run => some (joinLines (sh.commandLines now line))

/-- Takes a line: what is shown, and the shell for the next line. -/
def execute (sh : Shell) (now : Timestamp) (line : Text) : Option Text × Shell :=
  (sh.output now line, sh.next line)

end Shell

end Agenda
