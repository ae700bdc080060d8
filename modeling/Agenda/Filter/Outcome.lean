import Agenda.Filter.Parser
/-!
# Outcomes of reading a filter

`Filter.readOr` and the readers below it carry in their types that they make progress. `outcome`
forgets that, and each reader gets one equation between outcomes.
-/
namespace Agenda.Filter

/-- A reading without the proof that it made progress. -/
def outcome {P : List Token → Prop} (r : Except Failure (Filter × { rest : List Token // P rest })) :
    Parsed Filter :=
  r.map fun (e, rest) => (e, rest.val)

theorem prop_of_outcome {P : List Token → Prop}
    {r : Except Failure (Filter × { rest : List Token // P rest })} {e : Filter}
    {rest : List Token} (h : outcome r = .ok (e, rest)) : P rest := by
  rcases r with err | ⟨e', rest', hp⟩
  · cases h
  · cases h; exact hp

/-- What a first reading leaves is read on, unless it failed. -/
def andThen (p : Parsed Filter) (next : Filter → List Token → Parsed Filter) : Parsed Filter :=
  p.bind fun (e, rest) => next e rest

@[simp] theorem andThen_ok (e : Filter) (rest : List Token)
    (next : Filter → List Token → Parsed Filter) : andThen (.ok (e, rest)) next = next e rest := rfl

theorem ok_of_andThen {p : Parsed Filter} {next : Filter → List Token → Parsed Filter}
    {r : Filter × List Token} (h : andThen p next = .ok r) :
    ∃ e rest, p = .ok (e, rest) ∧ next e rest = .ok r := by
  rcases p with err | ⟨e, rest⟩
  · cases h
  · exact ⟨e, rest, rfl, h⟩

theorem outcome_readOr (eof : Position) (ts : List Token) :
    outcome (readOr eof ts)
      = andThen (outcome (readAnd eof ts)) fun l rest => outcome (readOrTail eof l rest) := by
  rw [readOr]
  rcases readAnd eof ts with err | ⟨l, mid, h⟩
  · rfl
  · simp only [outcome, Except.map, andThen_ok]
    rcases readOrTail eof l mid with err | ⟨e, rest, h'⟩ <;> rfl

theorem outcome_readAnd (eof : Position) (ts : List Token) :
    outcome (readAnd eof ts)
      = andThen (outcome (readNot eof ts)) fun l rest => outcome (readAndTail eof l rest) := by
  rw [readAnd]
  rcases readNot eof ts with err | ⟨l, mid, h⟩
  · rfl
  · simp only [outcome, Except.map, andThen_ok]
    rcases readAndTail eof l mid with err | ⟨e, rest, h'⟩ <;> rfl

theorem outcome_readOrTail_cons (eof : Position) (l : Filter) {t : Token} (ts : List Token)
    (ht : isOr t = true) :
    outcome (readOrTail eof l (t :: ts))
      = andThen (outcome (readAnd eof ts)) fun r rest =>
          outcome (readOrTail eof (combine .or l r) rest) := by
  rw [readOrTail, if_pos ht]
  rcases readAnd eof ts with err | ⟨r, mid, h⟩
  · rfl
  · simp only [outcome, Except.map, andThen_ok]
    rcases readOrTail eof (combine .or l r) mid with err | ⟨e, rest, h'⟩ <;> rfl

theorem outcome_readAndTail_cons (eof : Position) (l : Filter) {t : Token} (ts : List Token)
    (ht : isAnd t = true) :
    outcome (readAndTail eof l (t :: ts))
      = andThen (outcome (readNot eof ts)) fun r rest =>
          outcome (readAndTail eof (combine .and l r) rest) := by
  rw [readAndTail, if_pos ht]
  rcases readNot eof ts with err | ⟨r, mid, h⟩
  · rfl
  · simp only [outcome, Except.map, andThen_ok]
    rcases readAndTail eof (combine .and l r) mid with err | ⟨e, rest, h'⟩ <;> rfl

/-- The tokens do not begin with a token of the given class. -/
def NotAt (p : Token → Bool) (ts : List Token) : Prop := ∀ t, ts.head? = some t → p t = false

theorem notAt_nil (p : Token → Bool) : NotAt p [] := fun t h => by cases h

theorem notAt_cons {p : Token → Bool} {t : Token} (ts : List Token) (h : p t = false) :
    NotAt p (t :: ts) := fun u hu => by cases hu; exact h

theorem outcome_readOrTail_stop (eof : Position) (l : Filter) {ts : List Token}
    (h : NotAt isOr ts) : outcome (readOrTail eof l ts) = .ok (l, ts) := by
  cases ts with
  | nil => rw [readOrTail]; rfl
  | cons t ts => rw [readOrTail, if_neg (by simp [h t rfl])]; rfl

theorem outcome_readAndTail_stop (eof : Position) (l : Filter) {ts : List Token}
    (h : NotAt isAnd ts) : outcome (readAndTail eof l ts) = .ok (l, ts) := by
  cases ts with
  | nil => rw [readAndTail]; rfl
  | cons t ts => rw [readAndTail, if_neg (by simp [h t rfl])]; rfl

/-- The tokens begin with a clearing and the colon after it. -/
abbrev AtClearing (t : Token) (ts : List Token) : Prop :=
  t.kind = .clearField ∧ ts.head?.any (fun u => u.kind == .colon) = true

theorem outcome_readNot_clearing (eof : Position) {t u : Token} (ts : List Token)
    (ht : t.kind = .clearField) (hu : u.kind = .colon) :
    outcome (readNot eof (t :: u :: ts))
      = andThen (readField eof t ts) fun p rest =>
          .ok (negation p (t.span.cover p.span), rest) := by
  rw [readNot, if_pos (by simp [ht, hu])]
  simp only [List.tail_cons]
  split
  · next h => simp [outcome, Except.map, h, andThen, Except.bind]
  · next h => simp [outcome, Except.map, h]

theorem outcome_readNot_not (eof : Position) {t : Token} (ts : List Token)
    (hc : ¬ AtClearing t ts) (ht : isNot t = true) :
    outcome (readNot eof (t :: ts))
      = andThen (outcome (readNot eof ts)) fun e rest =>
          .ok (negation e (t.span.cover e.span), rest) := by
  rw [readNot, if_neg hc, if_pos ht]
  rcases readNot eof ts with err | ⟨e, rest, h⟩ <;> rfl

theorem outcome_readNot_plain (eof : Position) {t : Token} (ts : List Token)
    (hc : ¬ AtClearing t ts) (ht : isNot t = false) :
    outcome (readNot eof (t :: ts)) = outcome (readTerm eof t ts) := by
  rw [readNot, if_neg hc, if_neg (by simp [ht])]

theorem outcome_readTerm_group (eof : Position) {t : Token} (ts : List Token)
    (ht : t.kind = .leftParen) :
    outcome (readTerm eof t ts) = andThen (outcome (readOr eof ts)) fun e mid =>
      match mid with
      | [] => .error ⟨.mistake ⟨.missingParen none, .point eof⟩, []⟩
      | u :: rest =>
        if u.kind = .rightParen then .ok (e, rest)
        else .error (.at u (.missingParen (some u.text)) (u :: rest)) := by
  rw [readTerm, ht]
  simp only
  rcases readOr eof ts with err | ⟨e, _ | ⟨u, rest⟩, h⟩
  · rfl
  · rfl
  · by_cases hu : u.kind = .rightParen <;> simp [outcome, Except.map, hu]

theorem outcome_readTerm_field (eof : Position) {t : Token} (ts : List Token)
    (ht : t.kind = .setField) : outcome (readTerm eof t ts) = readField eof t ts := by
  rw [readTerm, ht]
  simp only
  split
  · next h => simp [outcome, Except.map, h]
  · next h => simp [outcome, Except.map, h]

end Agenda.Filter
