import Agenda.Filter.Parser
/-!
# The grammar of filters

What a filter is, said as derivations and without a reader:

* `orExpr`: one `andExpr`, or alternatives with or between them, grouped to the left;
* `andExpr`: one `notExpr`, or terms with and between them, grouped to the left;
* `notExpr`: an `atom`, a negation of a `notExpr`, or a clearing of a field with a colon after it,
  which negates the predicate of the field;
* `atom`: an `orExpr` in parentheses, a tag, a field with a value, or a value by itself.

`Derives s ts e rest` says that the symbol `s` derives the filter `e`, spans included, from the
tokens at the head of `ts`, and that the tokens `rest` come after them. A value that is no quotation
goes up to a delimiter or to the end, so that it is as long as it can be.

That the reader computes this relation is shown in `Agenda.Proofs.Filter.Acceptance`.
-/
namespace Agenda.Filter

/-- The tokens end, or begin with one that ends a value. -/
def Stops (ts : List Token) : Prop := ∀ t, ts.head? = some t → isDelimiter t = true

/-- A value at the head of the tokens: its text, its span, and the tokens after it. -/
inductive IsValue : List Token → Text → Span → List Token → Prop where
  | quotation {t : Token} {rest : List Token} (hq : t.kind = .quoted) :
      IsValue (t :: rest) t.value t.span rest
  | run {t : Token} {ts rest : List Token} (hq : t.kind ≠ .quoted)
      (inside : ∀ u ∈ t :: ts, isDelimiter u = false) (stops : Stops rest) :
      IsValue (t :: ts ++ rest) (ValueRun.join (t :: ts)) (t.span.cover (ts.getLastD t).span) rest

/-- The predicate of the field that the token `field` names, with a value that is not blank. -/
inductive IsFieldValue (field : Token) : List Token → Filter → List Token → Prop where
  | intro {ts rest : List Token} {text : Text} {span : Span} (value : IsValue ts text span rest)
      (hb : Text.trim text ≠ []) :
      IsFieldValue field ts
        (ofKey (Field.key field.text) (Text.trim text) (field.span.cover span)) rest

/-- The token and those after it begin with something else than a value by itself. -/
def beginsOther (t : Token) (ts : List Token) : Bool :=
  t.kind == .leftParen || t.kind == .clearOp || t.kind.isMark || t.kind.isTag
    || t.kind == .setField || (t.kind == .clearField && ts.head?.any fun u => u.kind == .colon)

inductive GrammarSymbol where
  | orExpr
  | andExpr
  | notExpr
  | atom
deriving DecidableEq, Repr

open GrammarSymbol

/-- The filter that a symbol derives from tokens, and the tokens after it. -/
inductive Derives : GrammarSymbol → List Token → Filter → List Token → Prop where
  | alternative {ts rest : List Token} {e : Filter} (h : Derives andExpr ts e rest) :
      Derives orExpr ts e rest
  | or {ts mid rest : List Token} {t : Token} {l r : Filter} (hl : Derives orExpr ts l (t :: mid))
      (ht : isOr t = true) (hr : Derives andExpr mid r rest) :
      Derives orExpr ts (combine .or l r) rest
  | term {ts rest : List Token} {e : Filter} (h : Derives notExpr ts e rest) :
      Derives andExpr ts e rest
  | and {ts mid rest : List Token} {t : Token} {l r : Filter} (hl : Derives andExpr ts l (t :: mid))
      (ht : isAnd t = true) (hr : Derives notExpr mid r rest) :
      Derives andExpr ts (combine .and l r) rest
  | not {t : Token} {ts rest : List Token} {e : Filter} (ht : isNot t = true)
      (h : Derives notExpr ts e rest) :
      Derives notExpr (t :: ts) (negation e (t.span.cover e.span)) rest
  | clearing {t u : Token} {ts rest : List Token} {p : Filter} (ht : t.kind = .clearField)
      (hu : u.kind = .colon) (hp : IsFieldValue t ts p rest) :
      Derives notExpr (t :: u :: ts) (negation p (t.span.cover p.span)) rest
  | plain {ts rest : List Token} {e : Filter} (h : Derives atom ts e rest) :
      Derives notExpr ts e rest
  | group {t u : Token} {ts rest : List Token} {e : Filter} (ht : t.kind = .leftParen)
      (h : Derives orExpr ts e (u :: rest)) (hu : u.kind = .rightParen) :
      Derives atom (t :: ts) e rest
  | project {t : Token} {rest : List Token} {name : Text} (ht : t.kind = .projectTag)
      (hname : t.afterSigil? = some name) :
      Derives atom (t :: rest) (predicate .project name t.span) rest
  | context {t : Token} {rest : List Token} {name : Text} (ht : t.kind = .contextTag)
      (hname : t.afterSigil? = some name) :
      Derives atom (t :: rest) (predicate .context name t.span) rest
  | field {t : Token} {ts rest : List Token} {e : Filter} (ht : t.kind = .setField)
      (h : IsFieldValue t ts e rest) : Derives atom (t :: ts) e rest
  | text {t : Token} {ts rest : List Token} {s : Text} {span : Span}
      (value : IsValue (t :: ts) s span rest) (hb : beginsOther t ts = false) :
      Derives atom (t :: ts) (predicate .text s span) rest

/-! ## What comes after -/

section
variable {ts rest : List Token} {e : Filter}

theorem IsValue.suffix {text : Text} {span : Span} (h : IsValue ts text span rest) : rest <:+ ts := by
  cases h with
  | quotation => exact List.suffix_cons _ _
  | run => exact List.suffix_append _ _

theorem IsFieldValue.suffix {field : Token} (h : IsFieldValue field ts e rest) : rest <:+ ts := by
  cases h with
  | intro value hb => exact value.suffix

/-- What comes after a derivation ends the tokens. -/
theorem Derives.suffix {s : GrammarSymbol} (h : Derives s ts e rest) : rest <:+ ts := by
  induction h with
  | alternative _ ih | term _ ih | plain _ ih => exact ih
  | or _ _ _ ihl ihr | and _ _ _ ihl ihr => exact ihr.trans ((List.suffix_cons _ _).trans ihl)
  | not _ _ ih => exact ih.trans (List.suffix_cons _ _)
  | clearing _ _ hp => exact hp.suffix.trans ((List.suffix_cons _ _).trans (List.suffix_cons _ _))
  | group _ _ _ ih => exact (List.suffix_cons _ _).trans (ih.trans (List.suffix_cons _ _))
  | project | context => exact List.suffix_cons _ _
  | field _ hp => exact hp.suffix.trans (List.suffix_cons _ _)
  | text value _ => exact value.suffix

end

end Agenda.Filter
