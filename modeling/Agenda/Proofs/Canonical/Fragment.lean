import Agenda.Proofs.Canonical.Value
import Agenda.Proofs.Lexer.Shape
import Mathlib.Data.List.Chain
/-!
# Values whose fragments are quoted

A value that is no plain run may still stand without quotes around all of it, with quotes around those
of its fragments between spaces that are no plain runs. This fails when the value starts with such a
fragment, and when a space would be lost: a fragment that stands plainly and begins or ends with a colon
or a comma sticks to its neighbour.

The lexemes of the text are those of its fragments (`cut_fragments`): a field that arises across a
space would not fit, and nothing else can. They join to the fragments with a space between two of them
unless these stick together (`spread_fragments`), which is shorter than the value when one space is
missing.

Results: `readsBackAs_requoted_iff`; `standsBare_iff`.
-/
namespace Agenda.Canonical

open Lexer

/-! ## Glue -/

/-- A character that sticks to what stands beside it. -/
def isGlue (c : Char) : Bool := c == ':' || c == ','

/-- A fragment that stands plainly and sticks to the one before it. -/
def gluesBefore (p : Text) : Bool := isPlainRun fitsOpValue p && p.head?.any isGlue

/-- A fragment that stands plainly and sticks to the one after it. -/
def gluesAfter (p : Text) : Bool := isPlainRun fitsOpValue p && p.getLast?.any isGlue

theorem sticksBefore_of_solid {t : Token} (h : Solid t.kind t.text) :
    ValueRun.sticksBefore t = t.text.head?.any isGlue := by
  rcases h.glue with ⟨hk, ht⟩ | ⟨hk, ht⟩ | ⟨⟨hk, hk'⟩, hall⟩
  · rw [ValueRun.sticksBefore, hk, ht]; rfl
  · rw [ValueRun.sticksBefore, hk, ht]; rfl
  · rw [ValueRun.sticksBefore, beq_false_of_ne hk, beq_false_of_ne hk']
    cases htext : t.text with
    | nil => rfl
    | cons c r =>
      have := hall c (by rw [htext]; simp)
      simp [isGlue, this]

theorem sticksAfter_of_solid {t : Token} (h : Solid t.kind t.text) :
    ValueRun.sticksAfter t = t.text.getLast?.any isGlue := by
  rcases h.glue with ⟨hk, ht⟩ | ⟨hk, ht⟩ | ⟨⟨hk, hk'⟩, hall⟩
  · rw [ValueRun.sticksAfter, ValueRun.sticksBefore, hk, ht]; rfl
  · rw [ValueRun.sticksAfter, ValueRun.sticksBefore, hk, ht]; rfl
  · rw [ValueRun.sticksAfter, ValueRun.sticksBefore, beq_false_of_ne hk, beq_false_of_ne hk']
    cases hl : t.text.getLast? with
    | none => simp
    | some c =>
      obtain ⟨h1, h2⟩ := hall c (List.mem_of_getLast? hl)
      simp [isGlue, beq_false_of_ne h1, beq_false_of_ne h2]

/-! ## One fragment -/

/-- A fragment as it stands when the offending ones are quoted. -/
def fragment (p : Text) : Text := if isPlainRun fitsOpValue p then p else p.quote

def fragmentLexemes (p : Text) : List Lexeme := (cut .root (fragment p)).lexemes

def fragmentTokens (p : Text) : List Token := (fragmentLexemes p).map Lexeme.token

theorem fragment_plain {p : Text} (h : isPlainRun fitsOpValue p = true) :
    fragment p = p ∧ Plain fitsOpValue p (fragmentLexemes p) := by
  have hp : fragment p = p := if_pos h
  obtain ⟨l, ls, hls, -, -⟩ := exists_plain h
  refine ⟨hp, ?_⟩
  rw [fragmentLexemes, hp, hls.cuts.cut_eq]
  exact hls

theorem fragment_quoted {p : Text} (h : isPlainRun fitsOpValue p = false) :
    fragment p = p.quote ∧ fragmentLexemes p = [⟨[], .quoted, p.quote⟩] := by
  have hp : fragment p = p.quote := by rw [fragment, h]; rfl
  refine ⟨hp, ?_⟩
  rw [fragmentLexemes, hp, (firm_quote p).cuts.cut_eq]

theorem cuts_fragment (p : Text) : Cuts (fragment p) (fragmentLexemes p) := by
  cases h : isPlainRun fitsOpValue p with
  | true => rw [(fragment_plain h).1]; exact (fragment_plain h).2.cuts
  | false =>
    rw [(fragment_quoted h).1, (fragment_quoted h).2]
    exact (firm_quote p).cuts

theorem fragmentLexemes_ne_nil (p : Text) : fragmentLexemes p ≠ [] := by
  cases h : isPlainRun fitsOpValue p with
  | true => exact (fragment_plain h).2.ne_nil
  | false => rw [(fragment_quoted h).2]; simp

/-- A token of a fragment that stands plainly is in one piece, and is its own value. -/
theorem solid_of_mem_fragmentTokens {p : Text} (h : isPlainRun fitsOpValue p = true) {t : Token}
    (ht : t ∈ fragmentTokens p) : Solid t.kind t.text ∧ t.value = t.text := by
  obtain ⟨l, hl, rfl⟩ := List.mem_map.1 ht
  have hplain := (fragment_plain h).2
  have hfits := fits_iff.1 (hplain.fits l hl)
  refine ⟨(hplain.cuts.shape hl).solid ?_, ?_⟩
  · obtain ⟨h1, h2, h3, h4⟩ := hfits
    show isSolidKind l.token.kind = true
    simp [isSolidKind, h1, h2, h3, h4]
  · rw [Token.value, if_neg hfits.2.2.1]

/-- The tokens of a fragment join to it without anything to trim, and stick to their neighbours as the
fragment does. -/
structure IsFragment (p : Text) (ts : List Token) : Prop where
  spread : ValueRun.spread false false ts = p
  first : ∃ t us, ts = t :: us ∧ ValueRun.sticksBefore t = gluesBefore p ∧ (t.value ≠ [] ∨ us = [])
  last : ts.getLast?.elim false ValueRun.sticksAfter = gluesAfter p

theorem isFragment_quoted {p : Text} (h : isPlainRun fitsOpValue p = false) :
    IsFragment p (fragmentTokens p) := by
  have hts : fragmentTokens p = [⟨.quoted, p.quote, .zero⟩] := by
    rw [fragmentTokens, (fragment_quoted h).2]; rfl
  rw [hts]
  refine ⟨?_, ⟨_, [], rfl, ?_, Or.inr rfl⟩, ?_⟩
  · rw [ValueRun.spread, ValueRun.spread, Token.value, if_pos rfl, Text.unquote_quote]
    simp
  · rw [gluesBefore, h]; rfl
  · rw [gluesAfter, h]; rfl

theorem isFragment_plain {p : Text} (h : isPlainRun fitsOpValue p = true) :
    IsFragment p (fragmentTokens p) := by
  have hsolid := fun t => solid_of_mem_fragmentTokens h (t := t)
  have hplain := (fragment_plain h).2
  have hne : fragmentTokens p ≠ [] := by simpa [fragmentTokens] using hplain.ne_nil
  have hvalue : ∀ t ∈ fragmentTokens p, t.value ≠ [] := fun t ht => by
    rw [(hsolid t ht).2]; exact (hsolid t ht).1.ne_nil
  obtain ⟨t, us, hfirst⟩ := List.exists_cons_of_ne_nil hne
  obtain ⟨vs, u, hlast⟩ : ∃ vs u, fragmentTokens p = vs ++ [u] :=
    ⟨_, _, (List.dropLast_concat_getLast hne).symm⟩
  have ht : t ∈ fragmentTokens p := by rw [hfirst]; simp
  have hu : u ∈ fragmentTokens p := by rw [hlast]; simp
  -- the run begins with its first token and ends with its last, so that there is nothing to trim
  have hhead : (ValueRun.spread false false (fragmentTokens p)).head? = t.text.head? := by
    rw [hfirst, ValueRun.head?_spread _ _ (hvalue t ht), (hsolid t ht).2]
  have hend : (ValueRun.spread false false (fragmentTokens p)).getLast? = u.text.getLast? := by
    rw [hlast, ValueRun.getLast?_spread _ _ _ (hvalue u hu), (hsolid u hu).2]
  have htrim : Text.Trimmed (ValueRun.spread false false (fragmentTokens p)) := by
    refine ⟨fun c hc => ?_, fun c hc => ?_⟩
    · rw [hhead] at hc; exact (hsolid t ht).1.not_blank c (List.mem_of_head? hc)
    · rw [hend] at hc; exact (hsolid u hu).1.not_blank c (List.mem_of_getLast? hc)
  have hspread : ValueRun.spread false false (fragmentTokens p) = p := by
    have hjoin := hplain.join
    rw [← htrim.trim_eq]
    exact hjoin
  rw [hspread] at hhead hend
  refine ⟨hspread, ⟨t, us, hfirst, ?_, Or.inl (hvalue t ht)⟩, ?_⟩
  · rw [sticksBefore_of_solid (hsolid t ht).1, gluesBefore, h, hhead, Bool.true_and]
  · rw [hlast, List.getLast?_concat, gluesAfter, h, hend, Bool.true_and]
    exact sticksAfter_of_solid (hsolid u hu).1

theorem isFragment (p : Text) : IsFragment p (fragmentTokens p) := by
  cases h : isPlainRun fitsOpValue p with
  | true => exact isFragment_plain h
  | false => exact isFragment_quoted h

/-! ## Fragments in a row -/

/-- The texts of fragments after others, each after a space. -/
def tailText (qs : List Text) : Text := (qs.map fun q => ' ' :: fragment q).flatten

def tailLexemes (qs : List Text) : List Lexeme :=
  (qs.map fun q => spaced (fragmentLexemes q)).flatten

theorem joinWith_cons_eq (p : Text) (ps : List Text) :
    Text.joinWith ' ' (p :: ps) = p ++ (ps.map (' ' :: ·)).flatten := by
  induction ps generalizing p with
  | nil => simp [Text.joinWith]
  | cons q qs ih => rw [Text.joinWith, ih, List.map_cons, List.flatten_cons, List.cons_append]

theorem requoted_of_pieces {s p : Text} {qs : List Text} (h : Text.pieces ' ' s = p :: qs) :
    requoted s = fragment p ++ tailText qs := by
  show Text.joinWith ' ' ((Text.pieces ' ' s).map fragment) = _
  rw [h, List.map_cons, joinWith_cons_eq, List.map_map]
  rfl

theorem eq_of_pieces {s p : Text} {qs : List Text} (h : Text.pieces ' ' s = p :: qs) :
    s = p ++ (qs.map (' ' :: ·)).flatten := by
  rw [← joinWith_cons_eq, ← h, Text.joinWith_pieces]

theorem opens_fragment {q : Text} (h : gluesBefore q = false) : Opens (fragment q) := by
  cases hp : isPlainRun fitsOpValue q with
  | false => rw [(fragment_quoted hp).1]; exact ⟨'"', _, rfl, by decide, by decide⟩
  | true =>
    obtain ⟨hfrag, hplain⟩ := fragment_plain hp
    rw [hfrag]
    have htrim : Text.Trimmed q := by rw [← hplain.join]; exact ValueRun.trimmed_join _
    cases q with
    | nil => exact absurd rfl hplain.ne_nil_text
    | cons c r =>
      refine ⟨c, r, rfl, htrim.left c rfl, ?_⟩
      intro hcolon
      subst hcolon
      rw [gluesBefore, hp] at h
      cases h

/-- The lexemes of fragments in a row are those of each, when no colon comes after a space or no field
arises. -/
theorem cut_fragments (p : Text) (qs : List Text)
    (h : (∀ q ∈ qs, gluesBefore q = false) ∨
      ∀ l ∈ (cut .root (fragment p ++ tailText qs)).lexemes, isFieldKind l.kind = false) :
    cut .root (fragment p ++ tailText qs) = ⟨fragmentLexemes p ++ tailLexemes qs, none, []⟩ := by
  induction qs generalizing p with
  | nil =>
    rw [tailText, tailLexemes, List.map_nil, List.map_nil, List.flatten_nil, List.flatten_nil,
      List.append_nil, List.append_nil]
    exact (cuts_fragment p).cut_eq
  | cons q qs ih =>
    have htext : tailText (q :: qs) = ' ' :: (fragment q ++ tailText qs) := rfl
    have hlexemes : tailLexemes (q :: qs) = spaced (fragmentLexemes q) ++ tailLexemes qs := rfl
    have hharmless : Harmless (fragment p) (' ' :: (fragment q ++ tailText qs)) := by
      refine ⟨fun c hc => (by cases hc; decide), h.imp_left fun h => ?_⟩
      exact ((opens_fragment (h q (by simp))).append _).separates.colon
    have hp := (cuts_fragment p).cut_eq
    have hcut := cut_append hharmless (by rw [hp]) (by rw [hp]; exact (cuts_fragment p).closed)
    rw [hp, Cut.indent_nil, cut_space, ← htext] at hcut
    -- no field arises among the later fragments, since none arises in the whole text
    have hrest := ih q (h.imp (fun h r hr => h r (by simp [hr])) fun h l hl => by
      obtain ⟨m, hm, hk⟩ := exists_mem_indent [' '] hl
      rw [← hk]
      exact h m (by rw [hcut]; exact List.mem_append_right _ hm))
    rw [hcut, hrest, hlexemes, indent_space (by simp [fragmentLexemes_ne_nil]),
      spaced_append (fragmentLexemes_ne_nil q)]
    rfl

/-! ## What fragments join to -/

/-- Fragments with a space before each that sticks to nothing. -/
def reglued (glued : Bool) : List Text → Text
  | [] => []
  | q :: qs =>
    (if glued || gluesBefore q then [] else [' ']) ++ q ++ reglued (gluesAfter q) qs

theorem map_token_spaced (ls : List Lexeme) :
    (spaced ls).map Lexeme.token = ls.map Lexeme.token := by
  cases ls <;> rfl

/-- A fragment and what comes after it. -/
theorem spread_fragment (glued : Bool) (q : Text) (ts : List Token) :
    ValueRun.spread true glued (fragmentTokens q ++ ts)
      = (if glued || gluesBefore q then [] else [' ']) ++ q
        ++ ValueRun.spread true (gluesAfter q) ts := by
  have hq := isFragment q
  obtain ⟨t, us, hts, hbefore, hvalue⟩ := hq.first
  have hlast : (fragmentTokens q).getLast?.elim glued ValueRun.sticksAfter = gluesAfter q := by
    rw [← hq.last, hts, List.getLast?_cons]; rfl
  rw [ValueRun.spread_append, hlast, Bool.true_or, hts, ValueRun.spread_begun _ hvalue, hbefore, ← hts,
    hq.spread]

theorem spread_tailLexemes (glued : Bool) (qs : List Text) :
    ValueRun.spread true glued ((tailLexemes qs).map Lexeme.token) = reglued glued qs := by
  induction qs generalizing glued with
  | nil => rfl
  | cons q qs ih =>
    have htokens : (tailLexemes (q :: qs)).map Lexeme.token
        = fragmentTokens q ++ (tailLexemes qs).map Lexeme.token := by
      rw [tailLexemes, List.map_cons, List.flatten_cons, List.map_append, map_token_spaced]
      rfl
    rw [htokens, spread_fragment, ih, reglued]

/-- Fragments of which the first stands plainly. -/
theorem spread_fragments {p : Text} (h : isPlainRun fitsOpValue p = true) (qs : List Text) :
    ValueRun.spread false false ((fragmentLexemes p ++ tailLexemes qs).map Lexeme.token)
      = p ++ reglued (gluesAfter p) qs := by
  have hp := isFragment p
  obtain ⟨t, us, hts, -, -⟩ := hp.first
  have hbegun : ((fragmentTokens p).any fun t => !t.value.isEmpty) = true := by
    have ht : t ∈ fragmentTokens p := by rw [hts]; simp
    obtain ⟨hsolid, hvalue⟩ := solid_of_mem_fragmentTokens h ht
    refine List.any_eq_true.2 ⟨t, ht, ?_⟩
    rw [hvalue]
    simpa using hsolid.ne_nil
  rw [List.map_append, show (fragmentLexemes p).map Lexeme.token = fragmentTokens p from rfl,
    ValueRun.spread_append, hp.spread, hp.last, hbegun, Bool.false_or, spread_tailLexemes]

/-! ## Spaces -/

/-- A space between the fragments is kept. -/
def KeepApart (p q : Text) : Prop := gluesAfter p = false ∧ gluesBefore q = false

theorem length_reglued_le (glued : Bool) (qs : List Text) :
    (reglued glued qs).length ≤ ((qs.map (' ' :: ·)).flatten).length := by
  induction qs generalizing glued with
  | nil => exact Nat.le_refl _
  | cons q qs ih =>
    have := ih (gluesAfter q)
    rw [reglued, List.map_cons, List.flatten_cons]
    simp only [List.length_append, List.length_cons]
    split <;> simp only [List.length_nil, List.length_cons] <;> omega

/-- When no space is lost, all fragments are kept apart. -/
theorem isChain_of_length_le {p : Text} {qs : List Text}
    (h : ((qs.map (' ' :: ·)).flatten).length ≤ (reglued (gluesAfter p) qs).length) :
    (p :: qs).IsChain KeepApart := by
  induction qs generalizing p with
  | nil => exact List.isChain_singleton p
  | cons q qs ih =>
    have hle := length_reglued_le (gluesAfter q) qs
    rw [reglued, List.map_cons, List.flatten_cons] at h
    simp only [List.length_append, List.length_cons] at h
    split at h
    · simp only [List.length_nil] at h; omega
    · next hglue =>
      simp only [List.length_cons, List.length_nil] at h
      rw [Bool.not_eq_true, Bool.or_eq_false_iff] at hglue
      exact List.isChain_cons_cons.2 ⟨hglue, ih (by omega)⟩

theorem reglued_of_isChain {p : Text} {qs : List Text} (h : (p :: qs).IsChain KeepApart) :
    reglued (gluesAfter p) qs = (qs.map (' ' :: ·)).flatten ∧ ∀ q ∈ qs, gluesBefore q = false := by
  induction qs generalizing p with
  | nil => exact ⟨rfl, fun _ hq => (by cases hq)⟩
  | cons q qs ih =>
    obtain ⟨⟨hafter, hbefore⟩, hrest⟩ := List.isChain_cons_cons.1 h
    obtain ⟨heq, hall⟩ := ih hrest
    refine ⟨?_, List.forall_mem_cons.2 ⟨hbefore, hall⟩⟩
    rw [reglued, hafter, hbefore, heq, List.map_cons, List.flatten_cons]
    rfl

/-! ## Values that stand bare -/

/-- Only the offending fragments of the value need quotes. -/
structure ReadsInFragments (raw : Text) : Prop where
  trimmed : Text.Trimmed raw
  start : ∀ p, (Text.pieces ' ' raw).head? = some p → isPlainRun fitsOpValue p = true
  apart : (Text.pieces ' ' raw).IsChain KeepApart

theorem fits_of_mem_fragmentLexemes {p : Text} {l : Lexeme} (h : l ∈ fragmentLexemes p) :
    l.kind = .quoted ∨ fitsOpValue l.token = true := by
  cases hp : isPlainRun fitsOpValue p with
  | true => exact Or.inr ((fragment_plain hp).2.fits l h)
  | false =>
    rw [(fragment_quoted hp).2, List.mem_singleton] at h
    rw [h]; exact Or.inl rfl

theorem fits_of_mem_tailLexemes {qs : List Text} {l : Lexeme} (h : l ∈ tailLexemes qs) :
    l.kind = .quoted ∨ fitsOpValue l.token = true := by
  obtain ⟨ls, hls, hl⟩ := List.mem_flatten.1 h
  obtain ⟨q, -, rfl⟩ := List.mem_map.1 hls
  have hmem : l.token ∈ (fragmentLexemes q).map Lexeme.token := by
    rw [← map_token_spaced]; exact List.mem_map_of_mem hl
  obtain ⟨m, hm, he⟩ := List.mem_map.1 hmem
  have hfits := fits_of_mem_fragmentLexemes hm
  rw [he, show m.kind = m.token.kind from rfl, he] at hfits
  exact hfits

/-- The lexemes start with a quotation when the first fragment does not stand plainly. -/
theorem head?_fragmentLexemes (p : Text) (ls : List Lexeme) :
    ((fragmentLexemes p ++ ls).head?.any fun l => l.kind != .quoted)
      = isPlainRun fitsOpValue p := by
  cases hp : isPlainRun fitsOpValue p with
  | false => rw [(fragment_quoted hp).2]; rfl
  | true =>
    have hplain := (fragment_plain hp).2
    obtain ⟨l, ls', hls⟩ := List.exists_cons_of_ne_nil hplain.ne_nil
    have hkind : l.kind ≠ .quoted := (fits_iff.1 (hplain.fits l (by rw [hls]; simp))).2.2.1
    rw [hls]
    simpa using hkind

/-- Nothing that reads back as a value is a field. -/
theorem isFieldKind_eq_false {l : Lexeme} (h : l.kind = .quoted ∨ fitsOpValue l.token = true) :
    isFieldKind l.kind = false := by
  rcases h with h | h
  · rw [h]; rfl
  · have hstart : l.kind.startsOp = false := (fits_iff.1 h).1
    cases hk : l.kind <;> rw [hk] at hstart <;> first | rfl | cases hstart

theorem length_trim_le (s : Text) : (Text.trim s).length ≤ s.length := by
  rw [Text.trim, Text.trimRight, Text.dropRightWhile, List.length_reverse]
  refine Nat.le_trans (List.dropWhile_sublist _).length_le ?_
  rw [List.length_reverse]
  exact (List.dropWhile_sublist _).length_le

/-- A value reads back with its offending fragments quoted just when it is trimmed, the first fragment
stands plainly and no space is lost. -/
theorem readsBackAs_requoted_iff (raw : Text) :
    readsBackAs raw (requoted raw) = true ↔ ReadsInFragments raw := by
  obtain ⟨p, qs, hpieces⟩ := List.exists_cons_of_ne_nil (Text.pieces_ne_nil ' ' raw)
  have hraw := eq_of_pieces hpieces
  rw [requoted_of_pieces hpieces, readsBackAs_iff]
  constructor
  · intro h
    obtain ⟨-, hhead, hfits, hjoin⟩ := h
    have hcut := cut_fragments p qs (Or.inr fun l hl => isFieldKind_eq_false (hfits l hl))
    rw [hcut] at hhead hjoin
    rw [head?_fragmentLexemes] at hhead
    rw [ValueRun.join, spread_fragments hhead] at hjoin
    refine ⟨by rw [← hjoin]; exact Text.trimmed_trim _, fun q hq => ?_, ?_⟩
    · rw [hpieces] at hq; cases hq; exact hhead
    · have hlen := length_trim_le (p ++ reglued (gluesAfter p) qs)
      rw [hjoin, hraw, List.length_append, List.length_append] at hlen
      rw [hpieces]
      exact isChain_of_length_le (by omega)
  · intro h
    obtain ⟨htrim, hstart, hapart⟩ := h
    rw [hpieces] at hstart hapart
    obtain ⟨hglued, hbefore⟩ := reglued_of_isChain hapart
    have hplain := hstart p rfl
    rw [cut_fragments p qs (Or.inl hbefore)]
    refine ⟨rfl, (head?_fragmentLexemes p _).trans hplain, fun l hl => ?_, ?_⟩
    · exact (List.mem_append.1 hl).elim fits_of_mem_fragmentLexemes fits_of_mem_tailLexemes
    · rw [ValueRun.join, spread_fragments hplain, hglued, ← hraw, htrim.trim_eq]

/-- A value stands bare as a plain run, or with its offending fragments quoted. -/
theorem standsBare_iff (raw : Text) :
    standsBare raw = true ↔ isPlainRun fitsOpValue raw = true ∨ ReadsInFragments raw := by
  rw [standsBare, Bool.or_eq_true, readsBackAs_requoted_iff]

end Agenda.Canonical
