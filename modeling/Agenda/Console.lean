import Agenda.Console.Typed
import Agenda.Shell
import Agenda.Text.Line
/-!
# The console

The program as it runs on plain input and output: it says which configuration it starts with, takes
line after line, and in the end keeps the lines in the history file if the configuration names one.
-/
namespace Agenda

inductive Stage
  | running
  /-- It has been asked to end. -/
  | left
  /-- A line could not be read. -/
  | broken
deriving DecidableEq, Repr

structure Session where
  shell : Shell
  /-- The lines that were taken, backwards. -/
  entered : List Text
  stage : Stage
deriving DecidableEq, Repr

namespace Session

def start (config : Config) : Session := ⟨.start config, [], .running⟩

/-- Answers a line. Blanks around it do not count, nor does a blank line. -/
def answer (s : Session) (now : Timestamp) (line : Text) : Text × Session :=
  let line := Text.trim line
  if line = [] then ([], s)
  else match s.shell.execute now line with
    | (none, shell) => ([], ⟨shell, line :: s.entered, .left⟩)
    | (some answer, shell) =>
      (if answer = [] then [] else answer ++ ['\n'], ⟨shell, line :: s.entered, .running⟩)

/-- Takes a line as it was typed and answers what is left of it. -/
def take (s : Session) (now : Timestamp) (line : Text) : Text × Session :=
  if s.stage ≠ .running then ([], s)
  else match Console.typed? line with
    | none => ([], ⟨s.shell, s.entered, .broken⟩)
    | some line => s.answer now line

def takeAll (s : Session) (now : Timestamp) : List Text → Text × Session
  | [] => ([], s)
  | line :: rest =>
    let (answer, s) := s.take now line
    let (answers, s) := s.takeAll now rest
    (answer ++ answers, s)

end Session

namespace Console

def configLine (path : Text) (found : Bool) : Text :=
  if found then "✅ 已加载配置文件: ".toList ++ path
  else "⚠️ 未找到配置文件 ".toList ++ path ++ "，使用默认配置".toList

def banner : Text := "--- Task DSL: 命令到执行计划编译器 (:help 查看命令) ---".toList

def greeting (path : Text) (found : Bool) : Text :=
  configLine path found ++ '\n' :: banner ++ ['\n']

/-- The file in which the lines of a session are to be kept, if there are any. Those of a broken
session are not kept. -/
def historyTarget? (config : Config) (s : Session) : Option Text :=
  if s.entered = [] ∨ s.stage = .broken then none else config.historyFile

structure Outcome where
  output : Text
  success : Bool
deriving DecidableEq, Repr

/-- Runs the program on a whole input. The configuration is in `file`, which goes by the name
`path`; `canWrite` says of a path whether a file can be written there. -/
def run (now : Timestamp) (path : Text) (file : FileState) (canWrite : Text → Bool)
    (input : Text) : Outcome :=
  match Config.load file with
  | .error _ => ⟨[], false⟩
  | .ok (config, found) =>
    let (answers, s) := (Session.start config).takeAll now (Text.lines input)
    ⟨greeting path found ++ answers,
      s.stage != .broken && ((historyTarget? config s).map canWrite).getD true⟩

end Console

end Agenda
