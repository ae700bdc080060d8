import Agenda.Console
import Std.Time.Zoned
/-!
# The program

The console on standard input and output. The first argument names the configuration file.
-/
namespace Agenda

def clock : IO Timestamp := do
  let t ← Std.Time.PlainDateTime.now
  match Date.ofParts? t.year.toInt t.month.val.toNat t.day.val.toNat with
  | some date =>
    return ⟨date, t.hour.val.toNat, t.minute.val.toNat, t.second.val.toNat,
      t.nanosecond.val.toNat, 0⟩
  | none => throw (IO.userError "the clock shows no date")

/-- What there is at a path. A file that may not be opened is there all the same. -/
def readFile (path : String) : IO FileState := do
  match ← (IO.FS.Handle.mk path .read).toBaseIO with
  | .error (.permissionDenied ..) => return .unreadable
  | .error _ => return .missing
  | .ok file =>
    match ← file.readBinToEnd.toBaseIO with
    | .error _ => return .unreadable
    | .ok bytes => return .bytes bytes

def say (s : Text) : IO Unit := do
  IO.print (String.ofList s)
  (← IO.getStdout).flush

/-- Takes lines up to the end of the input or of the session. -/
partial def converse (config : Config) (s : Session) : IO Session := do
  let stdin ← IO.getStdin
  if ← stdin.isTty then say config.prompt
  let line ← stdin.getLine
  if line.isEmpty then return s
  let (answer, s) := s.take (← clock) line.toList
  say answer
  if s.stage = .running then converse config s else return s

def keepHistory (path : Text) (s : Session) : IO Unit :=
  IO.FS.withFile (String.ofList path) .append fun file =>
    s.entered.reverse.forM fun line => file.putStrLn (String.ofList line)

end Agenda

open Agenda in
def main (args : List String) : IO UInt32 := do
  let path := args.headD (String.ofList Config.standardFile)
  match Config.load (← readFile path) with
  | .error e =>
    IO.eprintln s!"failed to load {path}: {String.ofList e.message}"
    return 1
  | .ok (config, found) =>
    say (Console.greeting path.toList found)
    for name in config.unknownStyles do
      IO.eprintln s!"ignoring highlight style for unknown token {String.ofList name}"
    let s ← converse config (.start config)
    if let some target := Console.historyTarget? config s then keepHistory target s
    return if s.stage = .broken then 1 else 0
