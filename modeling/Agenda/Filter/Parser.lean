import Agenda.Filter.Basic
import Agenda.Field
import Agenda.ParseError
import Agenda.ValueRun
/-!
# Reading filters

Not binds stronger than and, and stronger than or; and and or group to the left. A predicate is a
tag, a field with a value, or a value by itself; a value is one quotation or the run of tokens up to
the next delimiter.

A reading keeps, in its type, that it used up at least one token (`Shorter`), or that it added none
(`NoLonger`): with that every call is on fewer tokens, or on the same tokens one level down.
-/
namespace Agenda

/-- What is left of `ts` after at least one token has been read. -/
abbrev Shorter (ts : List Token) : Type := { rest : List Token // rest.length < ts.length }

/-- What is left of `ts` after some tokens, or none, have been read. -/
abbrev NoLonger (ts : List Token) : Type := { rest : List Token // rest.length ≤ ts.length }

namespace Filter

/-! ## Delimiters -/

def isOr (t : Token) : Bool := t.kind == .orOp || t.isWord "or".toList

def isAnd (t : Token) : Bool := t.kind == .andOp || t.isWord "and".toList

def isNot (t : Token) : Bool := t.kind == .clearOp || t.isWord "not".toList

/-- A token that ends a value. -/
def isDelimiter (t : Token) : Bool :=
  t.kind == .rightParen || t.kind == .andOp || t.kind == .orOp || t.isWord "and".toList
    || t.isWord "or".toList || t.isWord "not".toList

/-! ## Values and predicates -/

/-- The run of tokens up to the next delimiter, as a value. -/
def readRun (eof : Position) (ts : List Token) : (Text × Span) × List Token :=
  let rest := ts.dropWhile fun t => !isDelimiter t
  ((ValueRun.join (ts.takeWhile fun t => !isDelimiter t), Token.spanBetween eof ts rest), rest)

/-- One quotation, or a run. -/
def readValue (eof : Position) (ts : List Token) : (Text × Span) × List Token :=
  match ts with
  | [] => readRun eof ts
  | t :: rest => if t.kind = .quoted then ((t.value, t.span), rest) else readRun eof ts

/-- The predicate that a field key makes. A key without a predicate of its own is searched for as
text, with its value after a colon. -/
def ofKey (key text : Text) (span : Span) : Filter :=
  match PredicateKind.ofKey? key with
  | some kind => .predicate kind text span
  | none => .predicate .text (key ++ ':' :: text) span

/-- The value after the token of a field, as a predicate. -/
def readField (eof : Position) (field : Token) (ts : List Token) : Parsed Filter :=
  let ((text, span), rest) := readValue eof ts
  let key := Field.key field.text
  if Text.trim text = [] then .error (.at field (.missingValue key) rest)
  else .ok (ofKey key (Text.trim text) (field.span.cover span), rest)

theorem readValue_suffix (eof : Position) (ts : List Token) : (readValue eof ts).2 <:+ ts := by
  unfold readValue
  split
  · exact List.dropWhile_suffix _
  · split
    · exact List.suffix_cons _ _
    · exact List.dropWhile_suffix _

theorem readValue_length_lt (eof : Position) {t : Token} (ts : List Token)
    (h : isDelimiter t = false) : (readValue eof (t :: ts)).2.length < (t :: ts).length := by
  simp only [readValue]
  split
  · simp
  · have : ((t :: ts).dropWhile fun u => !isDelimiter u)
        = ts.dropWhile fun u => !isDelimiter u := by simp [h]
    simp only [readRun, this, List.length_cons]
    have := List.Sublist.length_le (List.dropWhile_sublist (fun u => !isDelimiter u) (l := ts))
    omega

theorem readField_suffix {eof : Position} {field : Token} {ts rest : List Token} {e : Filter}
    (h : readField eof field ts = .ok (e, rest)) : rest <:+ ts := by
  have := readValue_suffix eof ts
  unfold readField at h
  simp only at h
  split at h
  · cases h
  · cases h; exact this

theorem readField_length {eof : Position} {field : Token} {ts rest : List Token} {e : Filter}
    (h : readField eof field ts = .ok (e, rest)) : rest.length ≤ ts.length :=
  (readField_suffix h).length_le

/-! ## Expressions -/

mutual

/-- Alternatives with or between them. See 4.3 of the specification. -/
def readOr (eof : Position) (ts : List Token) : Except Failure (Filter × Shorter ts) :=
  match readAnd eof ts with
  | .error e => .error e
  | .ok (left, ⟨r, h⟩) =>
    match readOrTail eof left r with
    | .error e => .error e
    | .ok (e, ⟨r', h'⟩) => .ok (e, ⟨r', by omega⟩)
termination_by 4 * ts.length + 3

/-- What comes after the alternatives in `left`. -/
def readOrTail (eof : Position) (left : Filter) (ts : List Token) :
    Except Failure (Filter × NoLonger ts) :=
  match ts with
  | [] => .ok (left, ⟨[], Nat.le_refl _⟩)
  | t :: rest =>
    if isOr t then
      match readAnd eof rest with
      | .error e => .error e
      | .ok (right, ⟨r, h⟩) =>
        match readOrTail eof (combine .or left right) r with
        | .error e => .error e
        | .ok (e, ⟨r', h'⟩) => .ok (e, ⟨r', by simp only [List.length_cons]; omega⟩)
    else .ok (left, ⟨t :: rest, Nat.le_refl _⟩)
termination_by 4 * ts.length
decreasing_by all_goals simp only [List.length_cons]; omega

/-- Terms with and between them. -/
def readAnd (eof : Position) (ts : List Token) : Except Failure (Filter × Shorter ts) :=
  match readNot eof ts with
  | .error e => .error e
  | .ok (left, ⟨r, h⟩) =>
    match readAndTail eof left r with
    | .error e => .error e
    | .ok (e, ⟨r', h'⟩) => .ok (e, ⟨r', by omega⟩)
termination_by 4 * ts.length + 2

/-- What comes after the terms in `left`. -/
def readAndTail (eof : Position) (left : Filter) (ts : List Token) :
    Except Failure (Filter × NoLonger ts) :=
  match ts with
  | [] => .ok (left, ⟨[], Nat.le_refl _⟩)
  | t :: rest =>
    if isAnd t then
      match readNot eof rest with
      | .error e => .error e
      | .ok (right, ⟨r, h⟩) =>
        match readAndTail eof (combine .and left right) r with
        | .error e => .error e
        | .ok (e, ⟨r', h'⟩) => .ok (e, ⟨r', by simp only [List.length_cons]; omega⟩)
    else .ok (left, ⟨t :: rest, Nat.le_refl _⟩)
termination_by 4 * ts.length
decreasing_by all_goals simp only [List.length_cons]; omega

/-- A term, negated or not. A clearing with a colon after it is the negation of a field's
predicate. -/
def readNot (eof : Position) (ts : List Token) : Except Failure (Filter × Shorter ts) :=
  match ts with
  | [] => .error ⟨.mistake ⟨.missingTerm, .point eof⟩, []⟩
  | t :: rest =>
    if t.kind = .clearField ∧ rest.head?.any (fun u => u.kind == .colon) then
      match hp : readField eof t rest.tail with
      | .error e => .error e
      | .ok (p, r) =>
        .ok (.negation p (t.span.cover p.span),
          ⟨r, by have := readField_length hp; simp at this ⊢; omega⟩)
    else if isNot t then
      match readNot eof rest with
      | .error e => .error e
      | .ok (e, ⟨r, h⟩) =>
        .ok (.negation e (t.span.cover e.span), ⟨r, by simp only [List.length_cons]; omega⟩)
    else readTerm eof t rest
termination_by 4 * ts.length + 1

/-- A group in parentheses, or a predicate. See 4.3 and B.7 of the specification. -/
def readTerm (eof : Position) (t : Token) (ts : List Token) :
    Except Failure (Filter × Shorter (t :: ts)) :=
  match t.kind with
  | .leftParen =>
    match readOr eof ts with
    | .error e => .error e
    | .ok (_, ⟨[], _⟩) => .error ⟨.mistake ⟨.missingParen none, .point eof⟩, []⟩
    | .ok (e, ⟨u :: r, h⟩) =>
      if u.kind = .rightParen then
        .ok (e, ⟨r, by simp only [List.length_cons] at *; omega⟩)
      else .error (.at u (.missingParen (some u.text)) (u :: r))
  | .projectTag =>
    match t.afterSigil? with
    | some name => .ok (.predicate .project name t.span, ⟨ts, by simp⟩)
    | none => .error ⟨.panic, ts⟩
  | .contextTag =>
    match t.afterSigil? with
    | some name => .ok (.predicate .context name t.span, ⟨ts, by simp⟩)
    | none => .error ⟨.panic, ts⟩
  | .projectMark => .error (.at t (.missingName t.text) (t :: ts))
  | .contextMark => .error (.at t (.missingName t.text) (t :: ts))
  | .setField =>
    match hp : readField eof t ts with
    | .error e => .error e
    | .ok (p, r) =>
      .ok (p, ⟨r, by have := readField_length hp; simp only [List.length_cons]; omega⟩)
  | _ =>
    if h : isDelimiter t then .error (.at t (.unexpectedToken t.text .filterTerm) (t :: ts))
    else
      .ok (.predicate .text (readValue eof (t :: ts)).1.1 (readValue eof (t :: ts)).1.2,
        ⟨(readValue eof (t :: ts)).2, readValue_length_lt eof ts (by simpa using h)⟩)
termination_by 4 * (ts.length + 1)

end

def read (eof : Position) (ts : List Token) : Parsed Filter :=
  (readOr eof ts).map fun (e, rest) => (e, rest.val)

end Filter

end Agenda
