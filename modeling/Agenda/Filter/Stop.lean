import Agenda.Filter.Outcome
import Agenda.Op.Stop
/-!
# Where the reading of a filter stops

The readers of expressions call each other, and each hands on what the others leave, or their stop. So of
each it is shown what it takes of the tokens and where it stops, if all of them do so on fewer tokens.

Results: `allStayIn`, by the number of tokens; from it `foundIn_of_read` and `suffix_of_read`.
-/
namespace Agenda

open Failure (foundIn_at foundIn_head foundIn_point foundIn_panic)

namespace Filter

/-- Reading takes some of the first tokens, or stops at one of them. -/
def StaysIn (ts : List Token) : Parsed Filter → Prop
  | .ok (_, rest) => rest <:+ ts
  | .error f => f.FoundIn ts

theorem StaysIn.of_suffix {ts us : List Token} {p : Parsed Filter} (h : StaysIn ts p) (hs : ts <:+ us) :
    StaysIn us p := by
  cases p with
  | error f => exact Failure.FoundIn.of_suffix h hs
  | ok r => exact List.IsSuffix.trans h hs

/-- What reads on stays in the tokens of the first reading. -/
theorem StaysIn.andThen {ts : List Token} {p : Parsed Filter} {next : Filter → List Token → Parsed Filter}
    (h : StaysIn ts p) (hnext : ∀ e rest, p = .ok (e, rest) → StaysIn rest (next e rest)) :
    StaysIn ts (andThen p next) := by
  cases p with
  | error f => exact h
  | ok r => exact (hnext r.1 r.2 rfl).of_suffix h

/-- What is shown of all readers of the tokens at once. -/
structure AllStayIn (eof : Position) (ts : List Token) : Prop where
  not : StaysIn ts (outcome (readNot eof ts))
  andTail : ∀ left, StaysIn ts (outcome (readAndTail eof left ts))
  and : StaysIn ts (outcome (readAnd eof ts))
  orTail : ∀ left, StaysIn ts (outcome (readOrTail eof left ts))
  or : StaysIn ts (outcome (readOr eof ts))

variable {eof : Position} {left : Filter} {field t : Token} {ts us rest : List Token}

/-! ## Predicates -/

/-- Where the value of a field is missed, a colon may stand between the field and the value. -/
theorem staysIn_readField (hfield : field ∈ us) (hts : ts <:+ us) : StaysIn us (readField eof field ts) := by
  have hrest := (readValue_suffix eof ts).trans hts
  unfold readField
  simp only
  split
  · exact foundIn_at hfield hrest (by simp)
  · exact hrest

theorem staysIn_readTerm (h : AllStayIn eof ts) : StaysIn (t :: ts) (outcome (readTerm eof t ts)) := by
  by_cases hgroup : t.kind = .leftParen
  · rw [outcome_readTerm_group eof ts hgroup]
    refine (h.or.of_suffix (List.suffix_cons t ts)).andThen fun e mid _ => ?_
    cases mid with
    | nil => exact foundIn_point eof (by simp)
    | cons u rest =>
      simp only
      split
      · exact List.suffix_cons u rest
      · exact foundIn_head (by simp)
  by_cases hfield : t.kind = .setField
  · rw [outcome_readTerm_field eof ts hfield]
    exact staysIn_readField List.mem_cons_self (List.suffix_cons t ts)
  rw [readTerm]
  split
  · next hk => exact absurd hk hgroup
  · next hk =>
    split
    · exact List.suffix_cons t ts
    · next hcut => exact foundIn_panic List.mem_cons_self (by rw [hk]; rfl) hcut (List.suffix_cons t ts)
  · next hk =>
    split
    · exact List.suffix_cons t ts
    · next hcut => exact foundIn_panic List.mem_cons_self (by rw [hk]; rfl) hcut (List.suffix_cons t ts)
  · exact foundIn_head (by simp)
  · exact foundIn_head (by simp)
  · next hk => exact absurd hk hfield
  · split
    · exact foundIn_head (by simp)
    · exact readValue_suffix eof (t :: ts)

/-! ## Expressions -/

section
variable (h : ∀ r, r.length < ts.length → AllStayIn eof r)
include h

theorem staysIn_readNot : StaysIn ts (outcome (readNot eof ts)) := by
  cases ts with
  | nil =>
    rw [readNot]
    exact foundIn_point eof (by simp)
  | cons t ts =>
    have hts := h ts (Nat.lt_succ_self ts.length)
    by_cases hclear : AtClearing t ts
    · obtain ⟨hk, hcolon⟩ := hclear
      cases ts with
      | nil => cases hcolon
      | cons u ts =>
        have hsuffix := (List.suffix_cons u ts).trans (List.suffix_cons t (u :: ts))
        rw [outcome_readNot_clearing eof ts hk (by simpa using hcolon)]
        exact (staysIn_readField List.mem_cons_self hsuffix).andThen fun p rest _ => List.suffix_rfl
    · by_cases hnot : isNot t = true
      · rw [outcome_readNot_not eof ts hclear hnot]
        exact (hts.not.of_suffix (List.suffix_cons t ts)).andThen fun e rest _ => List.suffix_rfl
      · rw [outcome_readNot_plain eof ts hclear (by simpa using hnot)]
        exact staysIn_readTerm hts

theorem staysIn_readAndTail : StaysIn ts (outcome (readAndTail eof left ts)) := by
  cases ts with
  | nil =>
    rw [outcome_readAndTail_stop eof left (notAt_nil isAnd)]
    exact List.suffix_rfl
  | cons t ts =>
    by_cases ht : isAnd t = true
    · have hlt := Nat.lt_succ_self ts.length
      rw [outcome_readAndTail_cons eof left ts ht]
      exact ((h ts hlt).not.of_suffix (List.suffix_cons t ts)).andThen fun r rest hr =>
        (h rest (Nat.lt_trans (prop_of_outcome hr) hlt)).andTail _
    · rw [outcome_readAndTail_stop eof left (notAt_cons ts (by simpa using ht))]
      exact List.suffix_rfl

theorem staysIn_readAnd : StaysIn ts (outcome (readAnd eof ts)) := by
  rw [outcome_readAnd]
  exact (staysIn_readNot h).andThen fun left rest hl => (h rest (prop_of_outcome hl)).andTail left

theorem staysIn_readOrTail : StaysIn ts (outcome (readOrTail eof left ts)) := by
  cases ts with
  | nil =>
    rw [outcome_readOrTail_stop eof left (notAt_nil isOr)]
    exact List.suffix_rfl
  | cons t ts =>
    by_cases ht : isOr t = true
    · have hlt := Nat.lt_succ_self ts.length
      rw [outcome_readOrTail_cons eof left ts ht]
      exact ((h ts hlt).and.of_suffix (List.suffix_cons t ts)).andThen fun r rest hr =>
        (h rest (Nat.lt_trans (prop_of_outcome hr) hlt)).orTail _
    · rw [outcome_readOrTail_stop eof left (notAt_cons ts (by simpa using ht))]
      exact List.suffix_rfl

theorem staysIn_readOr : StaysIn ts (outcome (readOr eof ts)) := by
  rw [outcome_readOr]
  exact (staysIn_readAnd h).andThen fun left rest hl => (h rest (prop_of_outcome hl)).orTail left

end

theorem allStayIn (eof : Position) (ts : List Token) : AllStayIn eof ts := by
  induction hn : ts.length using Nat.strongRecOn generalizing ts with
  | ind n ih =>
    have hshorter (r : List Token) (hr : r.length < ts.length) : AllStayIn eof r :=
      ih r.length (hn ▸ hr) r rfl
    exact ⟨staysIn_readNot hshorter, fun _ => staysIn_readAndTail hshorter, staysIn_readAnd hshorter,
      fun _ => staysIn_readOrTail hshorter, staysIn_readOr hshorter⟩

/-! ## Filters -/

theorem staysIn_read (eof : Position) (ts : List Token) : StaysIn ts (Filter.read eof ts) :=
  (allStayIn eof ts).or

theorem foundIn_of_read {f : Failure} (h : Filter.read eof ts = .error f) : f.FoundIn ts := by
  have hstays := staysIn_read eof ts
  rw [h] at hstays
  exact hstays

theorem suffix_of_read {e : Filter} (h : Filter.read eof ts = .ok (e, rest)) : rest <:+ ts := by
  have hstays := staysIn_read eof ts
  rw [h] at hstays
  exact hstays

end Filter

end Agenda
