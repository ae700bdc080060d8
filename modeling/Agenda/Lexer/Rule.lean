import Agenda.Field
import Agenda.Text.Letter
import Agenda.Text.Numeral
import Agenda.Token
/-!
# Lexical rules

Which token begins at a character. The rules are tried in order and the first that applies wins. A
rule sees the character `c` and the text `r` after it, and says how many characters of `r` belong to
the token as well.

Results: which rule applies to which character (`applies_of_rootRule`), and how tokens with a sigil begin
(`sigil_of_rootRule`); a closed quotation ends at its first unescaped quote (`closingQuote?_escape`).
-/
namespace Agenda.Lexer

open Text (isBlank isLetter isNumeral)

/-! ## Character classes -/

def isWordStart (c : Char) : Bool := isLetter c || isNumeral c || c == '_'

def isTagStart (c : Char) : Bool := isLetter c || c == '_'

/-- A character that may go on a word or a tag name. -/
def isWordChar (c : Char) : Bool := isWordStart c || c == '-'

/-- How many characters of `s` go on a word. -/
def wordLength (s : Text) : Nat := (s.takeWhile isWordChar).length

/-! ## Looking ahead -/

/-- How many characters there are up to the first quote without a backslash before it, the quote
included. -/
def closingQuote? : Text → Option Nat
  | [] => none
  | c :: r =>
    if c = '"' then some 1
    else if c = '\\' then
      match r with
      | [] => none
      | _ :: r' => (closingQuote? r').map (· + 2)
    else (closingQuote? r).map (· + 1)

/-- The length of a given field word, blanks, and a colon at the start of `s`. -/
def colonAfter? (word s : Text) : Option Nat := do
  let r ← word.isPrefixOf? s
  if (r.dropWhile isBlank).head? = some ':' then
    some (word.length + (r.takeWhile isBlank).length + 1)
  else none

/-- The length of a field word, blanks, and a colon at the start of `s`. -/
def fieldColon? (s : Text) : Option Nat := Field.words.findSome? fun word => colonAfter? word s

/-- The length of a given word at the start of `s` that no further word character goes on. -/
def wholeWord? (word s : Text) : Option Nat := do
  let r ← word.isPrefixOf? s
  match r with
  | [] => some word.length
  | c :: _ => if isWordChar c then none else some word.length

/-- The length of a field word at the start of `s` that no further word character goes on. -/
def fieldWord? (s : Text) : Option Nat := Field.words.findSome? fun word => wholeWord? word s

/-! ## The rules -/

/-- After `#`: digits make a number, a name makes a tag, all else leaves the sign alone. -/
def hashRule (r : Text) : TokenKind × Nat :=
  match r with
  | [] => (.projectMark, 0)
  | d :: _ =>
    if d.isDigit then (.hashNumber, (r.takeWhile Char.isDigit).length)
    else if isTagStart d then (.projectTag, wordLength r)
    else (.projectMark, 0)

/-- After `@`: a name makes a tag. -/
def atRule (r : Text) : TokenKind × Nat :=
  match r with
  | [] => (.contextMark, 0)
  | d :: _ => if isTagStart d then (.contextTag, wordLength r) else (.contextMark, 0)

/-- After a sign: a field with a colon makes a field token of kind `field`. -/
def signRule (field alone : TokenKind) (r : Text) : TokenKind × Nat :=
  match fieldColon? r with
  | some n => (field, n)
  | none => (alone, 0)

/-- After `!`: a field word makes a clearing. -/
def bangRule (r : Text) : TokenKind × Nat :=
  match fieldWord? r with
  | some n => (.clearField, n)
  | none => (.clearOp, 0)

/-- After a double quote: a closing quote makes a quotation, otherwise the quote stays open. -/
def quoteRule (r : Text) : TokenKind × Nat :=
  match closingQuote? r with
  | some n => (.quoted, n)
  | none => (.quoteStart, 0)

/-- A word that begins with `c`: a field with a colon, or a plain word. -/
def wordRule (c : Char) (r : Text) : TokenKind × Nat :=
  match fieldColon? (c :: r) with
  | some n => (.setField, n - 1)
  | none => (.ident, wordLength r)

/-- A sign that counts only when doubled. -/
def doubledRule (kind : TokenKind) (c : Char) (r : Text) : Option (TokenKind × Nat) :=
  if r.head? = some c then some (kind, 1) else none

/-- The token that begins with `c`, when `r` comes after: its kind and how many characters of `r` it
covers. No rule accepts `c` when there is none. See 4.1 and B.6 of the specification. -/
def rootRule (c : Char) (r : Text) : Option (TokenKind × Nat) :=
  if c = '"' then some (quoteRule r)
  else if c = '#' then some (hashRule r)
  else if c = '@' then some (atRule r)
  else if c = '+' then some (signRule .addField .addOp r)
  else if c = '-' then some (signRule .removeField .removeOp r)
  else if c = '!' then some (bangRule r)
  else if c = ':' then some (.colon, 0)
  else if c = ',' then some (.comma, 0)
  else if c = '(' then some (.leftParen, 0)
  else if c = ')' then some (.rightParen, 0)
  else if c = '&' then doubledRule .andOp c r
  else if c = '|' then doubledRule .orOp c r
  else if c = '*' then some (.ident, 0)
  else if isWordStart c then some (wordRule c r)
  else none

/-- A character of plain text in an open string. -/
def isPlain (c : Char) : Bool := c != '"' && c != '\\'

/-- The token that begins with `c` in an open string. See 4.1 of the specification. -/
def stringRule (c : Char) (r : Text) : TokenKind × Nat :=
  if c = '"' then (.quoteEnd, 0)
  else if c = '\\' then
    match r with
    | [] => (.stringBackslash, 0)
    | _ :: _ => (.stringEscape, 1)
  else (.stringText, (r.takeWhile isPlain).length)

/-! ## What a rule finds -/

/-- The rule for a character applies before a text and gives a kind and a length. -/
inductive Applies : Char → Text → TokenKind × Nat → Prop where
  | quote (r : Text) : Applies '"' r (quoteRule r)
  | hash (r : Text) : Applies '#' r (hashRule r)
  | context (r : Text) : Applies '@' r (atRule r)
  | plus (r : Text) : Applies '+' r (signRule .addField .addOp r)
  | minus (r : Text) : Applies '-' r (signRule .removeField .removeOp r)
  | bang (r : Text) : Applies '!' r (bangRule r)
  | colon (r : Text) : Applies ':' r (.colon, 0)
  | comma (r : Text) : Applies ',' r (.comma, 0)
  | leftParen (r : Text) : Applies '(' r (.leftParen, 0)
  | rightParen (r : Text) : Applies ')' r (.rightParen, 0)
  | star (r : Text) : Applies '*' r (.ident, 0)
  | ampersand {r : Text} {out : TokenKind × Nat} (h : doubledRule .andOp '&' r = some out) :
      Applies '&' r out
  | bar {r : Text} {out : TokenKind × Nat} (h : doubledRule .orOp '|' r = some out) :
      Applies '|' r out
  | word {c : Char} (r : Text) (hc : isWordStart c = true)
      (h : ∀ s, rootRule c s = some (wordRule c s)) : Applies c r (wordRule c r)

def signs : List Char := ['"', '#', '@', '+', '-', '!', ':', ',', '(', ')', '&', '|', '*']

theorem rootRule_of_not_sign {c : Char} (hc : c ∉ signs) (s : Text) :
    rootRule c s = if isWordStart c then some (wordRule c s) else none := by
  simp only [signs, List.mem_cons, List.not_mem_nil, or_false, not_or] at hc
  obtain ⟨h1, h2, h3, h4, h5, h6, h7, h8, h9, h10, h11, h12, h13⟩ := hc
  rw [rootRule, if_neg h1, if_neg h2, if_neg h3, if_neg h4, if_neg h5, if_neg h6, if_neg h7,
    if_neg h8, if_neg h9, if_neg h10, if_neg h11, if_neg h12, if_neg h13]

theorem applies_of_sign {c : Char} {r : Text} {out : TokenKind × Nat} (hc : c ∈ signs)
    (h : rootRule c r = some out) : Applies c r out := by
  simp only [signs, List.mem_cons, List.not_mem_nil, or_false] at hc
  rcases hc with rfl | rfl | rfl | rfl | rfl | rfl | rfl | rfl | rfl | rfl | rfl | rfl | rfl
  · cases Option.some.inj h; exact .quote r
  · cases Option.some.inj h; exact .hash r
  · cases Option.some.inj h; exact .context r
  · cases Option.some.inj h; exact .plus r
  · cases Option.some.inj h; exact .minus r
  · cases Option.some.inj h; exact .bang r
  · cases Option.some.inj h; exact .colon r
  · cases Option.some.inj h; exact .comma r
  · cases Option.some.inj h; exact .leftParen r
  · cases Option.some.inj h; exact .rightParen r
  · exact .ampersand h
  · exact .bar h
  · cases Option.some.inj h; exact .star r

/-- One of the rules gives what is found for a character. -/
theorem applies_of_rootRule {c : Char} {r : Text} {out : TokenKind × Nat}
    (h : rootRule c r = some out) : Applies c r out := by
  by_cases hc : c ∈ signs
  · exact applies_of_sign hc h
  · rw [rootRule_of_not_sign hc] at h
    split at h
    · next hw =>
      cases h
      exact .word r hw fun s => by rw [rootRule_of_not_sign hc, if_pos hw]
    · cases h

/-- A token with a sigil begins with `#` or `@`. -/
theorem sigil_of_rootRule {c : Char} {r : Text} {out : TokenKind × Nat} (h : rootRule c r = some out)
    (hk : out.1.hasSigil = true) : c = '#' ∨ c = '@' := by
  cases applies_of_rootRule h with
  | hash => exact Or.inl rfl
  | context => exact Or.inr rfl
  | quote | plus | minus | bang | word =>
    simp only [quoteRule, signRule, bangRule, wordRule] at hk
    split at hk <;> cases hk
  | ampersand hd | bar hd =>
    unfold doubledRule at hd
    split at hd
    · cases hd; cases hk
    · cases hd
  | _ => cases hk

theorem hasSigil_stringRule (c : Char) (r : Text) : (stringRule c r).1.hasSigil = false := by
  unfold stringRule
  split
  · rfl
  · split
    · split <;> rfl
    · rfl

/-! ## Quotations -/

theorem closingQuote?_cons {c : Char} (h : isPlain c = true) (r : Text) :
    closingQuote? (c :: r) = (closingQuote? r).map (· + 1) := by
  simp [isPlain] at h
  cases r <;> simp [closingQuote?, h]

theorem closingQuote?_backslash (c : Char) (r : Text) :
    closingQuote? ('\\' :: c :: r) = (closingQuote? r).map (· + 2) := rfl

theorem closingQuote?_escape (s r : Text) :
    closingQuote? (Text.escape s ++ '"' :: r) = some ((Text.escape s).length + 1) := by
  induction s with
  | nil => cases r <;> rfl
  | cons c s ih =>
    rw [Text.escape]
    split
    · rw [List.cons_append, List.cons_append, closingQuote?_backslash, ih]; rfl
    · next h =>
      rw [List.cons_append, closingQuote?_cons (by simp [isPlain, not_or.1 h]), ih]; rfl

end Agenda.Lexer
