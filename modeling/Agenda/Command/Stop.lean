import Agenda.Command.Parser
import Agenda.Filter.Stop
/-!
# Where the reading of a command stops

A command is read wrongly at one of its tokens or at a point, as operations and filters are. The two
exceptions are those of the whole line: a title that is missing, and a quote that stays open, which is found
before anything is read.

Results: `foundIn_of_readAs` and `suffix_of_readAs`; reading ends with all tokens read
(`readFrom_eq_ok_iff`) or at a stop (`readFrom_eq_error`), and there with a mistake where all tokens can be
cut (`stop_ne_panic_of_read`).
-/
namespace Agenda

open Failure (foundIn_at foundIn_head foundIn_point foundIn_panic)

namespace Command

variable {eof : Position} {whole ts rest : List Token} {f : Failure}

theorem foundIn_of_readItems (h : readItems eof ts = .error f) : f.FoundIn ts := by
  induction ts using readItems.induct eof with
  | case1 =>
    rw [readItems] at h
    cases h
  | case2 t ts f' hf =>
    rw [readItems_error hf] at h
    cases h
    exact Op.foundIn_of_read hf
  | case3 t ts op rest hop ih =>
    rw [readItems_op hop, map_eq_error_iff] at h
    exact ((ih h).of_suffix (Op.read_suffix hop)).of_tail
  | case4 t ts hop ih =>
    rw [readItems_word hop, map_eq_error_iff] at h
    exact (ih h).of_tail

theorem foundIn_of_readOps {ts : List Token} (h : readOps eof ts = .error f) : f.FoundIn ts := by
  induction ts using readOps.induct eof with
  | case1 =>
    rw [readOps] at h
    cases h
  | case2 t ts f' hf =>
    rw [readOps_error hf] at h
    cases h
    exact Op.foundIn_of_read hf
  | case3 t ts op rest hop ih =>
    rw [readOps_op hop, map_eq_error_iff] at h
    exact ((ih h).of_suffix (Op.read_suffix hop)).of_tail
  | case4 t ts hop =>
    rw [readOps_none hop] at h
    cases h
    exact foundIn_head (by simp)

theorem foundIn_of_readId {t : Token} {digits : Text} (h : readId t digits ts = .error f) :
    f.FoundIn (t :: ts) := by
  unfold readId at h
  split at h
  · cases h
  · cases h
    exact foundIn_at List.mem_cons_self (List.suffix_cons t ts) (by simp)

theorem foundIn_of_readTarget (h : readTarget ts = .error f) : f.FoundIn ts := by
  unfold readTarget at h
  split at h
  · cases h
  · split at h
    · next hk =>
      split at h
      · exact foundIn_of_readId h
      · next hcut =>
        cases h
        exact foundIn_panic List.mem_cons_self (by rw [hk]; rfl) hcut (List.suffix_cons _ _)
    · split at h
      · cases h
      · split at h
        · exact foundIn_of_readId h
        · cases h
          exact foundIn_head (by simp)
    · split at h
      · cases h
      · cases h
        exact foundIn_head (by simp)

theorem suffix_of_readId {t : Token} {digits : Text} {target : Target}
    (h : readId t digits ts = .ok (target, rest)) : rest <:+ t :: ts := by
  unfold readId at h
  split at h
  · cases h
    exact List.suffix_cons t ts
  · cases h

theorem suffix_of_readTarget {target : Target} (h : readTarget ts = .ok (target, rest)) : rest <:+ ts := by
  unfold readTarget at h
  split at h
  · cases h
    exact List.suffix_rfl
  · split at h
    · split at h
      · exact suffix_of_readId h
      · cases h
    · split at h
      · cases h
        exact List.suffix_cons _ _
      · split at h
        · exact suffix_of_readId h
        · cases h
    · split at h
      · cases h
        exact List.suffix_rfl
      · cases h

/-- The mistake is one of the whole line. -/
def SpansLine (eof : Position) (whole : List Token) (f : Failure) : Prop :=
  ∀ e, f.stop = .mistake e → e.span = Token.spanBetween eof whole []

theorem inLine_of_foundIn (h : f.FoundIn ts) : (f.IsAt ts ∨ SpansLine eof whole f) ∧ f.StopsIn ts :=
  ⟨Or.inl h.place, h.toStopsIn⟩

theorem foundIn_of_readCreate (h : readCreate eof whole ts = .error f) :
    (f.IsAt ts ∨ SpansLine eof whole f) ∧ f.StopsIn ts := by
  unfold readCreate at h
  split at h
  · next herr =>
    cases h
    exact inLine_of_foundIn (foundIn_of_readItems herr)
  · simp only at h
    split at h
    · cases h
      refine ⟨Or.inr fun e he => ?_, List.nil_suffix, fun e he => ?_, fun hpanic => ?_⟩
      · cases he
        rfl
      · cases he
        simp
      · cases hpanic
    · cases h

theorem foundIn_of_readUpdate (h : readUpdate eof whole ts = .error f) : f.FoundIn ts := by
  unfold readUpdate at h
  split at h
  · next herr =>
    cases h
    exact foundIn_of_readTarget herr
  · next htarget =>
    split at h
    · next herr =>
      cases h
      exact (foundIn_of_readOps herr).of_suffix (suffix_of_readTarget htarget)
    · cases h

theorem foundIn_of_readFilter (h : readFilter eof whole ts = .error f) : f.FoundIn ts := by
  unfold readFilter at h
  split at h
  · cases h
    exact foundIn_point _ (by simp)
  · split at h
    · next herr =>
      cases h
      exact Filter.foundIn_of_read herr
    · cases h

theorem foundIn_of_readView (h : readView eof whole ts = .error f) : f.FoundIn ts := by
  unfold readView at h
  split at h
  · cases h
  · split at h
    · cases h
    · cases h
      exact foundIn_head (by simp)

/-- The token of a context is refused or cannot be cut, before it is taken. -/
theorem foundIn_of_contextOf {t : Token} {stop : Stop} (h : contextOf t = .error stop) :
    Failure.FoundIn ⟨stop, t :: ts⟩ (t :: ts) := by
  unfold contextOf at h
  split at h
  · cases h
  · split at h
    · next htag =>
      split at h
      · cases h
      · next hcut =>
        cases h
        exact foundIn_panic List.mem_cons_self (by rw [TokenKind.hasSigil, htag, Bool.or_true]) hcut
          List.suffix_rfl
    · cases h
      exact foundIn_head (by simp)

theorem foundIn_of_readContext (h : readContext eof whole ts = .error f) : f.FoundIn ts := by
  unfold readContext at h
  split at h
  · cases h
  · split at h
    · cases h
    · next herr =>
      cases h
      exact foundIn_of_contextOf herr

/-- What an intent asks for is read wrongly at one of the tokens, or a title is missing in the line. -/
theorem foundIn_of_readAs {i : Intent} (h : readAs i eof whole ts = .error f) :
    (f.IsAt ts ∨ SpansLine eof whole f) ∧ f.StopsIn ts := by
  cases i with
  | create => exact foundIn_of_readCreate h
  | update => exact inLine_of_foundIn (foundIn_of_readUpdate h)
  | filter => exact inLine_of_foundIn (foundIn_of_readFilter h)
  | view => exact inLine_of_foundIn (foundIn_of_readView h)
  | context => exact inLine_of_foundIn (foundIn_of_readContext h)

section
variable {c : Command}

theorem rest_of_readCreate (h : readCreate eof whole ts = .ok (c, rest)) : rest = [] := by
  unfold readCreate at h
  split at h
  · cases h
  · simp only at h
    split at h <;> cases h
    rfl

theorem rest_of_readUpdate (h : readUpdate eof whole ts = .ok (c, rest)) : rest = [] := by
  unfold readUpdate at h
  split at h
  · cases h
  · split at h <;> cases h
    rfl

theorem suffix_of_readFilter (h : readFilter eof whole ts = .ok (c, rest)) : rest <:+ ts := by
  unfold readFilter at h
  split at h
  · cases h
  · split at h
    · cases h
    · next hread =>
      cases h
      exact Filter.suffix_of_read hread

theorem suffix_of_readView (h : readView eof whole ts = .ok (c, rest)) : rest <:+ ts := by
  unfold readView at h
  split at h
  · cases h
    exact List.suffix_rfl
  · split at h <;> cases h
    exact List.suffix_cons _ _

theorem suffix_of_readContext (h : readContext eof whole ts = .ok (c, rest)) : rest <:+ ts := by
  unfold readContext at h
  split at h
  · cases h
    exact List.suffix_rfl
  · split at h <;> cases h
    exact List.suffix_cons _ _

/-- Whatever is left over after a command ends the tokens. -/
theorem suffix_of_readAs {i : Intent} (h : readAs i eof whole ts = .ok (c, rest)) : rest <:+ ts := by
  cases i with
  | create => exact rest_of_readCreate h ▸ List.nil_suffix
  | update => exact rest_of_readUpdate h ▸ List.nil_suffix
  | filter => exact suffix_of_readFilter h
  | view => exact suffix_of_readView h
  | context => exact suffix_of_readContext h

end

theorem foundIn_of_dispatch {mode : Mode} (h : dispatch mode eof ts = .error f) : f.FoundIn ts := by
  unfold dispatch at h
  split at h
  · cases h
  · cases h
  · split at h
    · cases h
      exact foundIn_point _ (by simp)
    · cases h
      exact foundIn_head (by simp)

theorem suffix_of_dispatch {mode : Mode} {i : Intent} {after : List Token}
    (h : dispatch mode eof ts = .ok (i, after)) : after <:+ ts := by
  unfold dispatch at h
  split at h
  · cases h
    exact List.tail_suffix ts
  · cases h
    exact List.suffix_rfl
  · split at h <;> cases h

theorem expectEnd_eq_ok_iff {ts : List Token} : expectEnd ts = .ok () ↔ ts = [] := by
  cases ts <;> simp [expectEnd]

theorem foundIn_of_expectEnd (h : expectEnd ts = .error f) : f.FoundIn ts := by
  cases ts with
  | nil => cases h
  | cons t ts =>
    cases h
    exact foundIn_head (by simp)

theorem foundIn_of_readWhole {mode : Mode} (h : readWhole mode eof ts = .error f) :
    (f.IsAt ts ∨ SpansLine eof ts f) ∧ f.StopsIn ts := by
  unfold readWhole at h
  split at h
  · next herr =>
    cases h
    exact inLine_of_foundIn (foundIn_of_dispatch herr)
  · next i after hd =>
    have hafter := suffix_of_dispatch hd
    split at h
    · next herr =>
      cases h
      obtain ⟨hplace, hstops⟩ := foundIn_of_readAs herr
      exact ⟨hplace.imp_left fun h => h.of_suffix hafter, hstops.of_suffix hafter⟩
    · next hread =>
      split at h
      · next herr =>
        cases h
        have hrest := (suffix_of_readAs hread).trans hafter
        exact inLine_of_foundIn ((foundIn_of_expectEnd herr).of_suffix hrest)
      · cases h

theorem readWhole_eq_ok_iff {mode : Mode} {c : Command} : readWhole mode eof ts = .ok (c, rest) ↔
    rest = [] ∧ ∃ i after, dispatch mode eof ts = .ok (i, after) ∧
      readAs i eof ts after = .ok (c, rest) := by
  constructor
  · intro h
    unfold readWhole at h
    split at h
    · cases h
    · next i after hd =>
      split at h
      · cases h
      · next hread =>
        split at h
        · cases h
        · next hend =>
          cases h
          exact ⟨expectEnd_eq_ok_iff.1 hend, i, after, hd, hread⟩
  · intro h
    obtain ⟨rfl, i, after, hd, hread⟩ := h
    simp only [readWhole, hd, hread, expectEnd]

/-! ## Calls -/

section
variable {mode : Mode} {line : List Token} {c : Command}

/-- A line is read wrongly at its first open string, before any token is taken; without one, at one of the
tokens, at a point, or as a whole. -/
theorem readFrom_eq_error (h : readFrom mode line ts = .error f) :
    (∃ t, line.find? (fun t => t.kind.isOpenString) = some t ∧ f = .at t .unterminatedString ts) ∨
    ((∀ t ∈ line, t.kind.isOpenString = false) ∧ (f.IsAt ts ∨ SpansLine (Token.endOf line) ts f) ∧
      f.StopsIn ts) := by
  unfold readFrom at h
  split at h
  · next t ht =>
    cases h
    exact Or.inl ⟨t, ht, rfl⟩
  · next hopen =>
    refine Or.inr ⟨fun t ht => ?_, foundIn_of_readWhole h⟩
    simpa using List.find?_eq_none.1 hopen t ht

/-- What is read as a command has no open string, is for something, and is read up to its end. -/
theorem readFrom_eq_ok_iff : readFrom mode line ts = .ok (c, rest) ↔
    (∀ t ∈ line, t.kind.isOpenString = false) ∧ rest = [] ∧
      ∃ i after, dispatch mode (Token.endOf line) ts = .ok (i, after) ∧
        readAs i (Token.endOf line) ts after = .ok (c, rest) := by
  have hclosed : line.find? (fun t => t.kind.isOpenString) = none ↔
      ∀ t ∈ line, t.kind.isOpenString = false := by simp
  constructor
  · intro h
    unfold readFrom at h
    split at h
    · cases h
    · next hopen => exact ⟨hclosed.1 hopen, readWhole_eq_ok_iff.1 h⟩
  · intro h
    obtain ⟨hopen, hwhole⟩ := h
    rw [readFrom, hclosed.2 hopen]
    exact readWhole_eq_ok_iff.2 hwhole

theorem read_eq_ok_iff : Command.read mode line ts = .ok c ↔ readFrom mode line ts = .ok (c, []) := by
  unfold Command.read
  cases h : readFrom mode line ts with
  | error f => simp [Except.map]
  | ok r =>
    obtain ⟨c', rest⟩ := r
    obtain rfl := (readFrom_eq_ok_iff.1 h).2.1
    simp [Except.map]

theorem read_eq_error_iff : Command.read mode line ts = .error f ↔ readFrom mode line ts = .error f :=
  map_eq_error_iff

/-- Where all tokens can be cut, a command is read or a mistake is found. -/
theorem stop_ne_panic_of_read (hts : ∀ t ∈ ts, t.IsCuttable) (h : Command.read mode line ts = .error f) :
    f.stop ≠ .panic := by
  intro hpanic
  rcases readFrom_eq_error (read_eq_error_iff.1 h) with ⟨t, -, rfl⟩ | ⟨-, -, hstops⟩
  · cases hpanic
  · obtain ⟨t, ht, hcut⟩ := hstops.panic hpanic
    exact hcut (hts t ht)

end

end Command

end Agenda
