import Agenda.Op.Basic
import Agenda.ParseError
import Agenda.ValueRun
/-!
# Reading operations

An operation begins with a field token or a tag; a plus or minus sign begins one when a tag follows
it without a gap. A value is one quotation, or the run of tokens up to the next operation.

Results: reading an operation uses up its first token and perhaps some that follow (`Op.read_suffix`).
-/
namespace Agenda

namespace Op

def begins : List Token → Bool
  | [] => false
  | t :: ts =>
    t.kind.startsOp || ((t.kind == .addOp || t.kind == .removeOp) &&
      match ts with
      | [] => false
      | u :: _ => u.kind.isTag && t.touches u)

/-- An operation begins with its own kind of token, or with a sign that touches a tag. -/
theorem begins_cons_iff {t : Token} {ts : List Token} : begins (t :: ts) = true ↔
    t.kind.startsOp = true ∨ (t.kind = .addOp ∨ t.kind = .removeOp) ∧
      ∃ u us, ts = u :: us ∧ u.kind.isTag = true ∧ t.touches u = true := by
  cases ts <;> simp [begins]

def tagKind : TokenKind → TagKind
  | .contextTag => .context
  | _ => .project

def fieldOf (t : Token) : Except ParseError.Cause Field :=
  match Field.ofName? (Field.key t.text) with
  | some f => .ok f
  | none => .error (.fixedField (Field.key t.text))

/-- The tokens up to an operation or a sigil without a name, and what comes after. -/
def splitValue : List Token → List Token × List Token
  | [] => ([], [])
  | t :: ts =>
    if begins (t :: ts) || t.kind.isMark then ([], t :: ts)
    else (t :: (splitValue ts).1, (splitValue ts).2)

/-- The value after the token of a field. -/
def readValue (eof : Position) (field : Field) (fieldToken : Token) (ts : List Token) :
    Parsed Value :=
  match ts with
  | t :: rest =>
    if t.kind = .quoted then .ok (⟨t.value, true, t.span⟩, rest)
    else readRun
  | [] => readRun
where
  /-- A value that is not a quotation. -/
  readRun : Parsed Value :=
    let (run, rest) := splitValue ts
    let raw := ValueRun.join run
    if raw = [] then .error (.at fieldToken (.missingValue field.name) rest)
    else .ok (⟨raw, false, Token.spanBetween eof ts rest⟩, rest)

/-- An edit of the field that the token `t` names. -/
def readEdit (eof : Position) (how : Edit) (t : Token) (ts : List Token) : Parsed Op :=
  match fieldOf t with
  | .error cause => .error (.at t cause ts)
  | .ok field =>
    match readValue eof field t ts with
    | .error e => .error e
    | .ok (value, rest) => .ok (.edit how field value (t.span.cover value.span), rest)

def readClear (t : Token) (ts : List Token) : Parsed Op :=
  match fieldOf t with
  | .error cause => .error (.at t cause ts)
  | .ok field => .ok (.clear field t.span, ts)

/-- The operation that the name in a tag token makes. -/
def readTag (tag : Token) (rest : List Token) (make : Text → Op) : Parsed Op :=
  match tag.afterSigil? with
  | some name => .ok (make name, rest)
  | none => .error ⟨.panic, rest⟩

/-- A sign and the tag that touches it. -/
def signed (sign : Token) (tag : Token) (name : Text) : Op :=
  let span := sign.span.cover tag.span
  if sign.kind = .addOp then .tag (tagKind tag.kind) name span
  else .edit .remove (tagKind tag.kind).field ⟨name, false, tag.span⟩ span

/-- The operation at the head of the tokens, if one begins there. See 4.3 and B.7 of the
specification. -/
def read (eof : Position) (ts : List Token) : Except Failure (Option (Op × List Token)) :=
  match ts with
  | [] => .ok none
  | t :: rest =>
    if t.kind.isMark then .error (.at t (.missingName t.text) ts)
    else if begins ts then
      match t.kind, rest with
      | .setField, _ => (readEdit eof .set t rest).map some
      | .addField, _ => (readEdit eof .add t rest).map some
      | .removeField, _ => (readEdit eof .remove t rest).map some
      | .clearField, _ => (readClear t rest).map some
      | .projectTag, _ => (readTag t rest fun name => .tag .project name t.span).map some
      | .contextTag, _ => (readTag t rest fun name => .tag .context name t.span).map some
      | .addOp, u :: rest' => (readTag u rest' (signed t u)).map some
      | .removeOp, u :: rest' => (readTag u rest' (signed t u)).map some
      | _, _ => .ok none
    else .ok none

/-! ## Progress -/

theorem length_splitValue (ts : List Token) :
    (splitValue ts).1.length + (splitValue ts).2.length = ts.length := by
  induction ts with
  | nil => rfl
  | cons t ts ih => rw [splitValue]; split <;> simp; omega

theorem splitValue_append (ts : List Token) : (splitValue ts).1 ++ (splitValue ts).2 = ts := by
  induction ts with
  | nil => rfl
  | cons t ts ih => rw [splitValue]; split <;> simp [ih]

theorem splitValue_suffix (ts : List Token) : (splitValue ts).2 <:+ ts := ⟨_, splitValue_append ts⟩

theorem readRun_suffix {eof : Position} {field : Field} {t : Token} {ts rest : List Token}
    {v : Value} (h : readValue.readRun eof field t ts = .ok (v, rest)) : rest <:+ ts := by
  unfold readValue.readRun at h
  simp only at h
  split at h
  · cases h
  · cases h; exact splitValue_suffix ts

theorem readValue_suffix {eof : Position} {field : Field} {t : Token} {ts rest : List Token}
    {v : Value} (h : readValue eof field t ts = .ok (v, rest)) : rest <:+ ts := by
  unfold readValue at h
  split at h
  · split at h
    · cases h; exact List.suffix_cons _ _
    · exact readRun_suffix h
  · exact readRun_suffix h

theorem readEdit_suffix {eof : Position} {how : Edit} {t : Token} {ts rest : List Token} {op : Op}
    (h : readEdit eof how t ts = .ok (op, rest)) : rest <:+ ts := by
  unfold readEdit at h
  split at h
  · cases h
  · split at h
    · cases h
    · next hv => cases h; exact readValue_suffix hv

theorem readClear_suffix {t : Token} {ts rest : List Token} {op : Op}
    (h : readClear t ts = .ok (op, rest)) : rest <:+ ts := by
  unfold readClear at h
  split at h
  · cases h
  · cases h; exact List.suffix_rfl

theorem readTag_ok_iff {t : Token} {ts rest : List Token} {make : Text → Op} {op : Op} :
    readTag t ts make = .ok (op, rest) ↔ ∃ name, t.afterSigil? = some name ∧ op = make name ∧ rest = ts := by
  unfold readTag
  cases t.afterSigil? <;> simp [eq_comm]

theorem ok_of_map_some {p : Parsed Op} {r : Op × List Token}
    (h : p.map some = .ok (some r)) : p = .ok r := by
  cases p with
  | error e => cases h
  | ok x => cases h; rfl

theorem readTag_suffix {t : Token} {ts rest : List Token} {make : Text → Op} {op : Op}
    (h : readTag t ts make = .ok (op, rest)) : rest <:+ ts := by
  obtain ⟨name, -, -, rfl⟩ := readTag_ok_iff.1 h
  exact List.suffix_rfl

theorem read_suffix {eof : Position} {t : Token} {ts rest : List Token} {op : Op}
    (h : read eof (t :: ts) = .ok (some (op, rest))) : rest <:+ ts := by
  unfold read at h
  simp only at h
  split at h
  · cases h
  · split at h
    · split at h
      · exact readEdit_suffix (ok_of_map_some h)
      · exact readEdit_suffix (ok_of_map_some h)
      · exact readEdit_suffix (ok_of_map_some h)
      · exact readClear_suffix (ok_of_map_some h)
      · exact readTag_suffix (ok_of_map_some h)
      · exact readTag_suffix (ok_of_map_some h)
      · exact (readTag_suffix (ok_of_map_some h)).trans (List.suffix_cons _ _)
      · exact (readTag_suffix (ok_of_map_some h)).trans (List.suffix_cons _ _)
      · cases h
    · cases h

theorem read_length {eof : Position} {ts rest : List Token} {op : Op}
    (h : read eof ts = .ok (some (op, rest))) : rest.length < ts.length := by
  cases ts with
  | nil => cases h
  | cons t ts => exact Nat.lt_succ_of_le (read_suffix h).length_le

end Op

end Agenda
