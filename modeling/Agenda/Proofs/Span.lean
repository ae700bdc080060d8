import Agenda.ParseError
/-!
# Spans of runs

Tokens of a line are in order: each covers something and ends before the next begins (`Token.InOrder`). A
span that begins where one of them does and ends where one of them does (`Span.LiesIn`) is then within the
span of them all, and the cover of two such spans, of which the one comes from tokens before those of the
other, runs from the start of the one to the stop of the other.

Results: `cover_of_before`; `LiesIn.cover` and `liesIn_run` for what readers put together; `LiesIn.within`
for the span of all tokens (`Token.wholeSpan`).
-/
namespace Agenda

namespace Span

/-- A part of another span that is not empty. -/
structure Within (inner outer : Span) : Prop where
  start_le : outer.start.offset ≤ inner.start.offset
  nonempty : inner.start.offset < inner.stop.offset
  stop_le : inner.stop.offset ≤ outer.stop.offset

/-- The span ends before another begins, or where it begins. -/
def Before (a b : Span) : Prop := a.stop.offset ≤ b.start.offset

theorem cover_self (a : Span) : a.cover a = a := by
  rw [cover, if_neg (Nat.lt_irrefl _), if_neg (Nat.lt_irrefl _)]

/-- A span that begins no earlier than another and ends after it only adds its stop. -/
theorem cover_of_le {a b : Span} (hstart : a.start.offset ≤ b.start.offset)
    (hstop : a.stop.offset < b.stop.offset) : a.cover b = ⟨a.start, b.stop⟩ := by
  rw [cover, if_neg (Nat.not_lt.2 hstart), if_pos hstop]

theorem cover_of_before {a b : Span} (h : a.Before b) (ha : a.start.offset < a.stop.offset)
    (hb : b.start.offset < b.stop.offset) : a.cover b = ⟨a.start, b.stop⟩ := by
  unfold Before at h
  exact cover_of_le (by omega) (by omega)

/-- Both parts of a cover are within it. -/
theorem within_cover_of_before {a b : Span} (h : a.Before b) (ha : a.start.offset < a.stop.offset)
    (hb : b.start.offset < b.stop.offset) : a.Within (a.cover b) ∧ b.Within (a.cover b) := by
  rw [cover_of_before h ha hb]
  unfold Before at h
  exact ⟨⟨Nat.le_refl _, ha, by simp only; omega⟩, ⟨by simp only; omega, hb, Nat.le_refl _⟩⟩

end Span

namespace Token

/-- The tokens that were read are those before the tokens that are left. -/
theorem spanBetween_append (eof : Position) (t : Token) (ts rest : List Token) :
    spanBetween eof (t :: ts ++ rest) rest = t.span.cover (ts.getLastD t).span := by
  have hlen : (t :: (ts ++ rest)).length - rest.length = (t :: ts).length := by
    simp only [List.length_cons, List.length_append]; omega
  simp only [List.cons_append, spanBetween]
  rw [hlen, ← List.cons_append, List.take_left, List.getLast?_cons, List.getLastD_eq_getLast?]

/-! ## Tokens in order -/

/-- Each token covers something and ends before the next begins. -/
structure InOrder (ts : List Token) : Prop where
  nonempty : ∀ t ∈ ts, t.span.start.offset < t.span.stop.offset
  apart : ts.Pairwise fun t u => t.span.Before u.span

namespace InOrder

variable {t : Token} {ts us : List Token}

theorem sublist (h : InOrder us) (hs : ts.Sublist us) : InOrder ts :=
  ⟨fun t ht => h.nonempty t (hs.subset ht), h.apart.sublist hs⟩

theorem suffix (h : InOrder us) (hs : ts <:+ us) : InOrder ts := h.sublist hs.sublist

theorem tail (h : InOrder (t :: ts)) : InOrder ts := h.suffix (List.suffix_cons t ts)

theorem start_le (h : InOrder (t :: ts)) : ∀ u ∈ t :: ts, t.span.start.offset ≤ u.span.start.offset := by
  refine List.forall_mem_cons.2 ⟨Nat.le_refl _, fun u hu => ?_⟩
  have hlt := h.nonempty t List.mem_cons_self
  have hle : t.span.stop.offset ≤ u.span.start.offset := List.rel_of_pairwise_cons h.apart hu
  omega

theorem stop_le (h : InOrder (t :: ts)) :
    ∀ u ∈ t :: ts, u.span.stop.offset ≤ (ts.getLastD t).span.stop.offset := by
  induction ts generalizing t with
  | nil => exact List.forall_mem_singleton.2 (Nat.le_refl _)
  | cons v vs ih =>
    have hvs := ih h.tail
    rw [List.getLastD_cons]
    refine List.forall_mem_cons.2 ⟨?_, hvs⟩
    have hle : t.span.stop.offset ≤ v.span.start.offset :=
      List.rel_of_pairwise_cons h.apart List.mem_cons_self
    have hlt := h.nonempty v (List.mem_cons_of_mem _ List.mem_cons_self)
    have hlast := hvs v List.mem_cons_self
    exact Nat.le_trans (Nat.le_trans hle (Nat.le_of_lt hlt)) hlast

end InOrder

/-- The span of all tokens, from the start of the first to the stop of the last. -/
def wholeSpan : List Token → Span
  | [] => .point .origin
  | t :: ts => ⟨t.span.start, (ts.getLastD t).span.stop⟩

/-- What covers the first and the last of some tokens is the span of them all. -/
theorem cover_getLastD {t : Token} {ts : List Token} (h : InOrder (t :: ts)) :
    t.span.cover (ts.getLastD t).span = wholeSpan (t :: ts) := by
  cases ts with
  | nil => exact Span.cover_self t.span
  | cons u us =>
    have hlast : (u :: us).getLastD t ∈ u :: us := by
      rw [List.getLastD_cons]; exact List.getLastD_mem_cons
    have hbefore := List.rel_of_pairwise_cons h.apart hlast
    exact Span.cover_of_before hbefore (h.nonempty t List.mem_cons_self)
      (h.nonempty _ (List.mem_cons_of_mem _ hlast))

theorem spanBetween_nil {ts : List Token} (h : InOrder ts) :
    spanBetween (endOf ts) ts [] = wholeSpan ts := by
  cases ts with
  | nil => rfl
  | cons t ts =>
    have hspan := spanBetween_append (endOf (t :: ts)) t ts []
    rw [List.append_nil] at hspan
    rw [hspan, cover_getLastD h]

end Token

/-! ## Spans of tokens -/

namespace Span

open Token (InOrder)

/-- The span is not empty, begins where one of the tokens does and ends where one of them does. -/
structure LiesIn (s : Span) (ts : List Token) : Prop where
  start : ∃ t ∈ ts, s.start = t.span.start
  stop : ∃ u ∈ ts, s.stop = u.span.stop
  nonempty : s.start.offset < s.stop.offset

variable {a b : Span} {t : Token} {ts us : List Token}

theorem LiesIn.mono (h : a.LiesIn ts) (hs : ts ⊆ us) : a.LiesIn us := by
  obtain ⟨⟨t, ht, hstart⟩, ⟨u, hu, hstop⟩, hne⟩ := h
  exact ⟨⟨t, hs ht, hstart⟩, ⟨u, hs hu, hstop⟩, hne⟩

theorem liesIn_token (h : InOrder ts) (ht : t ∈ ts) : t.span.LiesIn ts :=
  ⟨⟨t, ht, rfl⟩, ⟨t, ht, rfl⟩, h.nonempty t ht⟩

/-- Spans of tokens before and of tokens after. -/
theorem LiesIn.before (h : InOrder (ts ++ us)) (ha : a.LiesIn ts) (hb : b.LiesIn us) : a.Before b := by
  obtain ⟨t, ht, hstop⟩ := ha.stop
  obtain ⟨u, hu, hstart⟩ := hb.start
  rw [Before, hstop, hstart]
  exact (List.pairwise_append.1 h.apart).2.2 t ht u hu

/-- The cover of a span of tokens and one of tokens after them. -/
theorem LiesIn.cover (h : InOrder (ts ++ us)) (ha : a.LiesIn ts) (hb : b.LiesIn us) :
    (a.cover b).LiesIn (ts ++ us) := by
  have hbefore := LiesIn.before h ha hb
  obtain ⟨t, ht, hstart⟩ := ha.start
  obtain ⟨u, hu, hstop⟩ := hb.stop
  have hfirst := ha.nonempty
  have hsecond := hb.nonempty
  rw [cover_of_before hbefore hfirst hsecond]
  unfold Before at hbefore
  exact ⟨⟨t, List.mem_append_left _ ht, hstart⟩, ⟨u, List.mem_append_right _ hu, hstop⟩,
    by simp only; omega⟩

theorem liesIn_wholeSpan (h : InOrder (t :: ts)) : (Token.wholeSpan (t :: ts)).LiesIn (t :: ts) := by
  refine ⟨⟨t, List.mem_cons_self, rfl⟩, ⟨_, List.getLastD_mem_cons .., rfl⟩, ?_⟩
  exact Nat.lt_of_lt_of_le (h.nonempty t List.mem_cons_self) (h.stop_le t List.mem_cons_self)

/-- A run of tokens, from the first to the last. -/
theorem liesIn_run (h : InOrder (t :: ts)) :
    (t.span.cover (ts.getLastD t).span).LiesIn (t :: ts) := by
  rw [Token.cover_getLastD h]
  exact liesIn_wholeSpan h

/-- Every span of some tokens is within the span of them all. -/
theorem LiesIn.within (h : InOrder ts) (ha : a.LiesIn ts) : a.Within (Token.wholeSpan ts) := by
  obtain ⟨⟨t, ht, hstart⟩, ⟨u, hu, hstop⟩, hne⟩ := ha
  cases ts with
  | nil => cases ht
  | cons v vs => exact ⟨hstart ▸ h.start_le t ht, hne, hstop ▸ h.stop_le u hu⟩

end Span

end Agenda
