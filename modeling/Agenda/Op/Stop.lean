import Agenda.Op.Parser
/-!
# Where reading stops

A reader stops at a token that it cannot take, at the token whose value is missing, or, when the tokens are
used up, at a point without extent; so the place of a mistake is that of one of the tokens, or empty
(`Failure.IsAt`). What it leaves are the last of the tokens, and it panics only where one of them cannot be
cut after its sigil (`Failure.StopsIn`).

Results: `Op.foundIn_of_read`.
-/
namespace Agenda

namespace Failure

/-- The mistake is at one of the tokens, or at a point. -/
def IsAt (f : Failure) (ts : List Token) : Prop :=
  ∀ e, f.stop = .mistake e → (∃ t ∈ ts, e.span = t.span) ∨ ∃ p, e.span = .point p

/-- The stop leaves the last of the tokens, or none, and is no open string; a panic has one of the tokens
for its reason. -/
structure StopsIn (f : Failure) (ts : List Token) : Prop where
  rest : f.rest <:+ ts
  cause : ∀ e, f.stop = .mistake e → e.cause ≠ .unterminatedString
  panic : f.stop = .panic → ∃ t ∈ ts, ¬ t.IsCuttable

structure FoundIn (f : Failure) (ts : List Token) : Prop extends StopsIn f ts where
  place : f.IsAt ts

variable {f : Failure} {t : Token} {ts us rest : List Token} {cause : ParseError.Cause}

theorem IsAt.of_suffix (h : f.IsAt ts) (hs : ts <:+ us) : f.IsAt us := by
  intro e he
  rcases h e he with ⟨t, ht, hspan⟩ | hpoint
  · exact Or.inl ⟨t, hs.subset ht, hspan⟩
  · exact Or.inr hpoint

theorem StopsIn.of_suffix (h : f.StopsIn ts) (hs : ts <:+ us) : f.StopsIn us := by
  refine ⟨h.rest.trans hs, h.cause, fun hpanic => ?_⟩
  obtain ⟨t, ht, hcut⟩ := h.panic hpanic
  exact ⟨t, hs.subset ht, hcut⟩

theorem FoundIn.of_suffix (h : f.FoundIn ts) (hs : ts <:+ us) : f.FoundIn us :=
  ⟨h.toStopsIn.of_suffix hs, h.place.of_suffix hs⟩

theorem FoundIn.of_tail (h : f.FoundIn ts) : f.FoundIn (t :: ts) := h.of_suffix (List.suffix_cons t ts)

theorem foundIn_at (ht : t ∈ ts) (hrest : rest <:+ ts) (hcause : cause ≠ .unterminatedString) :
    (Failure.at t cause rest).FoundIn ts where
  rest := hrest
  cause e he := by cases he; exact hcause
  panic h := by cases h
  place e he := by cases he; exact Or.inl ⟨t, ht, rfl⟩

theorem foundIn_head (hcause : cause ≠ .unterminatedString) :
    (Failure.at t cause (t :: ts)).FoundIn (t :: ts) :=
  foundIn_at List.mem_cons_self List.suffix_rfl hcause

theorem foundIn_point (p : Position) (hcause : cause ≠ .unterminatedString) :
    FoundIn ⟨.mistake ⟨cause, .point p⟩, []⟩ ts where
  rest := List.nil_suffix
  cause e he := by cases he; exact hcause
  panic h := by cases h
  place e he := by cases he; exact Or.inr ⟨p, rfl⟩

/-- A panic at a token with a sigil that cannot be cut. -/
theorem foundIn_panic (ht : t ∈ ts) (hk : t.kind.hasSigil = true) (hcut : t.afterSigil? = none)
    (hrest : rest <:+ ts) : FoundIn ⟨.panic, rest⟩ ts where
  rest := hrest
  cause e he := by cases he
  panic _ := ⟨t, ht, fun hcuttable => by have := hcuttable hk; rw [hcut] at this; cases this⟩
  place e he := by cases he

end Failure

open Failure (foundIn_at foundIn_head foundIn_panic)

/-! ## Operations -/

namespace Op

variable {eof : Position} {t : Token} {ts us : List Token} {f : Failure}

theorem cause_of_fieldOf {cause : ParseError.Cause} (h : fieldOf t = .error cause) :
    cause ≠ .unterminatedString := by
  unfold fieldOf at h
  split at h
  · cases h
  · cases h
    simp

theorem foundIn_of_readRun {field : Field} (h : readValue.readRun eof field t ts = .error f) :
    f.FoundIn (t :: ts) := by
  unfold readValue.readRun at h
  simp only at h
  split at h
  · cases h
    exact foundIn_at List.mem_cons_self ((splitValue_suffix ts).trans (List.suffix_cons t ts)) (by simp)
  · cases h

theorem foundIn_of_readValue {field : Field} (h : readValue eof field t ts = .error f) :
    f.FoundIn (t :: ts) := by
  unfold readValue at h
  split at h
  · split at h
    · cases h
    · exact foundIn_of_readRun h
  · exact foundIn_of_readRun h

/-- The value of a field is missed at the token of the field. -/
theorem foundIn_of_readEdit {how : Edit} (h : readEdit eof how t ts = .error f) : f.FoundIn (t :: ts) := by
  unfold readEdit at h
  split at h
  · next hfield =>
    cases h
    exact foundIn_at List.mem_cons_self (List.suffix_cons t ts) (cause_of_fieldOf hfield)
  · split at h
    · next hvalue =>
      cases h
      exact foundIn_of_readValue hvalue
    · cases h

theorem foundIn_of_readClear (h : readClear t ts = .error f) : f.FoundIn (t :: ts) := by
  unfold readClear at h
  split at h
  · next hfield =>
    cases h
    exact foundIn_at List.mem_cons_self (List.suffix_cons t ts) (cause_of_fieldOf hfield)
  · cases h

theorem foundIn_of_readTag {make : Text → Op} (hk : t.kind.isTag = true)
    (h : readTag t ts make = .error f) : f.FoundIn (t :: ts) := by
  unfold readTag at h
  split at h
  · cases h
  · next hcut =>
    cases h
    exact foundIn_panic List.mem_cons_self (by rw [TokenKind.hasSigil, hk, Bool.or_true]) hcut
      (List.suffix_cons t ts)

/-- A sign makes an operation of a tag only. -/
theorem isTag_of_begins {u : Token} (hb : begins (t :: u :: ts) = true) (ht : t.kind.startsOp = false) :
    u.kind.isTag = true := by
  rcases begins_cons_iff.1 hb with hstart | ⟨-, v, vs, hvs, htag, -⟩
  · rw [ht] at hstart
    cases hstart
  · cases hvs
    exact htag

/-- An operation is read wrongly at its first token, or at the tag after a sign. -/
theorem foundIn_of_read (h : Op.read eof ts = .error f) : f.FoundIn ts := by
  cases ts with
  | nil => cases h
  | cons t ts =>
    unfold Op.read at h
    simp only at h
    split at h
    · cases h
      exact foundIn_head (by simp)
    · split at h
      · next hb =>
        split at h
        · exact foundIn_of_readEdit (map_eq_error_iff.1 h)
        · exact foundIn_of_readEdit (map_eq_error_iff.1 h)
        · exact foundIn_of_readEdit (map_eq_error_iff.1 h)
        · exact foundIn_of_readClear (map_eq_error_iff.1 h)
        · next hk => exact foundIn_of_readTag (by rw [hk]; rfl) (map_eq_error_iff.1 h)
        · next hk => exact foundIn_of_readTag (by rw [hk]; rfl) (map_eq_error_iff.1 h)
        · next hk =>
          have htag := isTag_of_begins hb (by rw [hk]; rfl)
          exact (foundIn_of_readTag htag (map_eq_error_iff.1 h)).of_tail
        · next hk =>
          have htag := isTag_of_begins hb (by rw [hk]; rfl)
          exact (foundIn_of_readTag htag (map_eq_error_iff.1 h)).of_tail
        · cases h
      · cases h

end Op

end Agenda
