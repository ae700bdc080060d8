import Agenda.Command.Basic
import Agenda.Filter.Parser
import Agenda.Op.Parser
/-!
# Reading commands

A verb at the head of the tokens says which command they are; without one the mode must say it. A
command takes all tokens: what is left over is a mistake.

A reader reads one command after the other from the same tokens. A mistake or a panic leaves it where
it was found.
-/
namespace Agenda

namespace Command

/-- The intent of the verb at the head of the tokens. -/
def leadingVerb : List Token → Option Intent
  | [] => none
  | t :: _ => if t.kind = .ident then Intent.ofVerb? t.text else none

/-! ## Create -/

/-- The tokens of a title and the operations, in any order. -/
def readItems (eof : Position) (ts : List Token) : Except Failure (List Token × List Op) :=
  match ts with
  | [] => .ok ([], [])
  | t :: rest =>
    match _h : Op.read eof (t :: rest) with
    | .error e => .error e
    | .ok (some (op, rest')) => (readItems eof rest').map fun (words, ops) => (words, op :: ops)
    | .ok none => (readItems eof rest).map fun (words, ops) => (t :: words, ops)
termination_by ts.length
decreasing_by
  · exact Op.read_length _h
  · simp

theorem readItems_error {eof : Position} {t : Token} {ts : List Token} {f : Failure}
    (h : Op.read eof (t :: ts) = .error f) : readItems eof (t :: ts) = .error f := by
  rw [readItems]; split <;> simp_all

theorem readItems_op {eof : Position} {ts rest : List Token} {op : Op}
    (h : Op.read eof ts = .ok (some (op, rest))) :
    readItems eof ts = (readItems eof rest).map fun (words, ops) => (words, op :: ops) := by
  cases ts with
  | nil => cases h
  | cons t ts => rw [readItems]; split <;> simp_all

theorem readItems_word {eof : Position} {t : Token} {ts : List Token}
    (h : Op.read eof (t :: ts) = .ok none) :
    readItems eof (t :: ts) = (readItems eof ts).map fun (words, ops) => (t :: words, ops) := by
  rw [readItems]; split <;> simp_all

def setsTitle : Op → Bool
  | .edit .set .title _ _ => true
  | _ => false

/-- A create command from `whole`, of which `ts` comes after the verb. See 4.3 of the specification. -/
def readCreate (eof : Position) (whole ts : List Token) : Parsed Command :=
  match readItems eof ts with
  | .error e => .error e
  | .ok (words, ops) =>
    let span := Token.spanBetween eof whole []
    let title := ValueRun.join words
    if title = [] ∧ !ops.any setsTitle then .error ⟨.mistake ⟨.missingTitle, span⟩, []⟩
    else .ok (.create title ops span, [])

/-! ## Update -/

def selectedWords : List Text :=
  ["selected".toList, "it".toList, "this".toList, "that".toList]

/-- The number that digits spell, in at most sixty-four bits. -/
def readId (t : Token) (digits : Text) (rest : List Token) : Parsed Target :=
  match Text.readWord? digits with
  | some n => .ok (.id n, rest)
  | none => .error (.at t (.invalidTaskId digits) rest)

/-- The target of an update; without one it is the selected task. See 4.3 of the specification. -/
def readTarget (ts : List Token) : Parsed Target :=
  match ts with
  | [] => .ok (.selected, [])
  | t :: rest =>
    match t.kind with
    | .hashNumber =>
      match t.afterSigil? with
      | some digits => readId t digits rest
      | none => .error ⟨.panic, rest⟩
    | .ident =>
      if selectedWords.contains (Text.asciiLower t.text) then .ok (.selected, rest)
      else if t.text.all Char.isDigit then readId t t.text rest
      else .error (.at t (.invalidTarget t.text) ts)
    | _ =>
      if Op.begins ts then .ok (.selected, ts) else .error (.at t (.invalidTarget t.text) ts)

def readOps (eof : Position) (ts : List Token) : Except Failure (List Op) :=
  match ts with
  | [] => .ok []
  | t :: rest =>
    match _h : Op.read eof (t :: rest) with
    | .error e => .error e
    | .ok (some (op, rest')) => (readOps eof rest').map (op :: ·)
    | .ok none => .error (.at t (.unexpectedToken t.text .operation) (t :: rest))
termination_by ts.length
decreasing_by exact Op.read_length _h

theorem readOps_error {eof : Position} {t : Token} {ts : List Token} {f : Failure}
    (h : Op.read eof (t :: ts) = .error f) : readOps eof (t :: ts) = .error f := by
  rw [readOps]; split <;> simp_all

theorem readOps_none {eof : Position} {t : Token} {ts : List Token} (h : Op.read eof (t :: ts) = .ok none) :
    readOps eof (t :: ts) = .error (.at t (.unexpectedToken t.text .operation) (t :: ts)) := by
  rw [readOps]; split <;> simp_all

theorem readOps_op {eof : Position} {ts rest : List Token} {op : Op}
    (h : Op.read eof ts = .ok (some (op, rest))) :
    readOps eof ts = (readOps eof rest).map (op :: ·) := by
  cases ts with
  | nil => cases h
  | cons t ts => rw [readOps]; split <;> simp_all

/-- See 4.3 and B.7 of the specification. -/
def readUpdate (eof : Position) (whole ts : List Token) : Parsed Command :=
  match readTarget ts with
  | .error e => .error e
  | .ok (target, rest) =>
    match readOps eof rest with
    | .error e => .error e
    | .ok ops => .ok (.update target ops (Token.spanBetween eof whole []), [])

/-! ## Filter, view and context -/

def readFilter (eof : Position) (whole ts : List Token) : Parsed Command :=
  if ts = [] then .error ⟨.mistake ⟨.missingFilter, .point eof⟩, []⟩
  else match Filter.read eof ts with
    | .error e => .error e
    | .ok (e, rest) => .ok (.filter e (Token.spanBetween eof whole rest), rest)

def viewOf (t : Token) : Option View := if t.kind = .ident then View.ofAlias? t.text else none

/-- See B.7 of the specification. -/
def readView (eof : Position) (whole ts : List Token) : Parsed Command :=
  match ts with
  | [] => .ok (.view none (Token.spanBetween eof whole []), [])
  | t :: rest =>
    match viewOf t with
    | some v => .ok (.view (some v) (Token.spanBetween eof whole rest), rest)
    | none => .error (.at t (.unknownView t.text) ts)

def contextOf (t : Token) : Except Stop ContextArg :=
  if t.isWord "clear".toList then .ok .clear
  else if t.kind.isTag then
    match t.afterSigil? with
    | some name => .ok (.tag (Op.tagKind t.kind) name)
    | none => .error .panic
  else .error (.mistake ⟨.invalidContext t.text, t.span⟩)

/-- See B.7 of the specification. -/
def readContext (eof : Position) (whole ts : List Token) : Parsed Command :=
  match ts with
  | [] => .ok (.context none (Token.spanBetween eof whole []), [])
  | t :: rest =>
    match contextOf t with
    | .ok a => .ok (.context (some a) (Token.spanBetween eof whole rest), rest)
    | .error stop => .error ⟨stop, ts⟩

/-! ## Commands -/

/-- A command of the given intent from `whole`, of which `ts` comes after the verb. -/
def readAs (intent : Intent) (eof : Position) (whole ts : List Token) : Parsed Command :=
  match intent with
  | .create => readCreate eof whole ts
  | .update => readUpdate eof whole ts
  | .filter => readFilter eof whole ts
  | .view => readView eof whole ts
  | .context => readContext eof whole ts

/-- The intent of the tokens, and the tokens after the verb. See 4.3 and B.7 of the specification. -/
def dispatch (mode : Mode) (eof : Position) (ts : List Token) :
    Except Failure (Intent × List Token) :=
  match leadingVerb ts, mode.intent? with
  | some verb, _ => .ok (verb, ts.tail)
  | none, some intent => .ok (intent, ts)
  | none, none =>
    match ts with
    | [] => .error ⟨.mistake ⟨.missingVerb none, .point eof⟩, []⟩
    | t :: _ => .error (.at t (.missingVerb (some t.text)) ts)

/-- A token that is left over is a mistake. -/
def expectEnd : List Token → Except Failure Unit
  | [] => .ok ()
  | t :: rest => .error (.at t (.unexpectedToken t.text .endOfInput) (t :: rest))

/-- The command that the tokens `ts` make, and what its reader leaves of them. -/
def readWhole (mode : Mode) (eof : Position) (ts : List Token) : Parsed Command :=
  match dispatch mode eof ts with
  | .error e => .error e
  | .ok (intent, after) =>
    match readAs intent eof ts after with
    | .error e => .error e
    | .ok (c, rest) =>
      match expectEnd rest with
      | .error e => .error e
      | .ok () => .ok (c, rest)

/-- The same when all tokens of the line are `line`. An open string anywhere in the line is a
mistake. -/
def readFrom (mode : Mode) (line ts : List Token) : Parsed Command :=
  match line.find? fun t => t.kind.isOpenString with
  | some t => .error (.at t .unterminatedString ts)
  | none => readWhole mode (Token.endOf line) ts

/-- The command that the tokens `ts` make, when all tokens of the line are `line`. -/
def read (mode : Mode) (line ts : List Token) : Except Failure Command :=
  (readFrom mode line ts).map Prod.fst

end Command

/-! ## One command after the other -/

structure Reader where
  mode : Mode
  line : List Token
  rest : List Token
deriving DecidableEq, Repr

namespace Reader

def start (mode : Mode) (line : List Token) : Reader := ⟨mode, line, line⟩

def next (r : Reader) : Except Stop Command × Reader :=
  match Command.readFrom r.mode r.line r.rest with
  | .ok (c, rest) => (.ok c, { r with rest })
  | .error e => (.error e.stop, { r with rest := e.rest })

end Reader

end Agenda
