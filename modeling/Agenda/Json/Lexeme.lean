import Agenda.Text.Number
/-!
# The words of JSON

A JSON text is a row of marks, names, numbers and strings. Of numbers only the natural ones matter;
the others are told apart from them and nothing more. A string may name half of a surrogate pair by
an escape: it is well formed and yet no text.

Results: a lexeme takes at least one character (`length_lt_of_read`).
-/
namespace Agenda.Json

inductive Lexeme where
  | openBrace
  | closeBrace
  | openBracket
  | closeBracket
  | colon
  | comma
  | null
  | bool (b : Bool)
  /-- Digits and nothing else. -/
  | natural (n : Nat)
  | otherNumber
  /-- A string, unless its escapes leave half of a surrogate pair alone. -/
  | string (s : Option Text)
deriving DecidableEq, Repr

def isSpace (c : Char) : Bool := c == ' ' || c == '\t' || c == '\n' || c == '\r'

/-! ## Strings -/

/-- A part of a string: a character, or a unit of sixteen bits in hexadecimal. -/
inductive StringPart where
  | char (c : Char)
  | unit (n : Nat)
deriving DecidableEq, Repr

def simpleEscape? (c : Char) : Option Char :=
  if c = '"' ∨ c = '\\' ∨ c = '/' then some c
  else if c = 'n' then some '\n'
  else if c = 'r' then some '\r'
  else if c = 't' then some '\t'
  else if c = 'b' then some '\x08'
  else if c = 'f' then some '\x0c'
  else none

def hexValue? (c : Char) : Option Nat :=
  if c.isDigit then some (Text.digitValue c)
  else if 'a' ≤ c ∧ c ≤ 'f' then some (c.toNat - 'a'.toNat + 10)
  else if 'A' ≤ c ∧ c ≤ 'F' then some (c.toNat - 'A'.toNat + 10)
  else none

/-- The unit that four hexadecimal digits stand for. -/
def unit? (a b c d : Char) : Option StringPart := do
  return .unit (((← hexValue? a) * 16 + (← hexValue? b)) * 256 + (← hexValue? c) * 16
    + (← hexValue? d))

/-- The parts of a string up to the closing quote, and what comes after it. -/
def readParts : Text → Option (List StringPart × Text)
  | [] => none
  | '"' :: r => some ([], r)
  | '\\' :: 'u' :: a :: b :: c :: d :: r => do
    let part ← unit? a b c d
    let (parts, rest) ← readParts r
    return (part :: parts, rest)
  | '\\' :: e :: r => do
    let c ← simpleEscape? e
    let (parts, rest) ← readParts r
    return (.char c :: parts, rest)
  | c :: r =>
    if c.toNat < 32 then none
    else do
      let (parts, rest) ← readParts r
      return (.char c :: parts, rest)

/-- The first half of a surrogate pair. -/
def isHighSurrogate (n : Nat) : Bool := 0xd800 ≤ n && n < 0xdc00

/-- The second half of a surrogate pair. -/
def isLowSurrogate (n : Nat) : Bool := 0xdc00 ≤ n && n < 0xe000

/-- The text that the parts make. Two units that are a surrogate pair make one character. -/
def textOf? : List StringPart → Option Text
  | [] => some []
  | .char c :: r => (textOf? r).map (c :: ·)
  | .unit n :: r =>
    if isHighSurrogate n then
      match r with
      | .unit m :: r' =>
        if isLowSurrogate m then
          (textOf? r').map (Char.ofNat (0x10000 + (n - 0xd800) * 0x400 + (m - 0xdc00)) :: ·)
        else none
      | _ => none
    else if isLowSurrogate n then none
    else (textOf? r).map (Char.ofNat n :: ·)

theorem length_lt_of_readParts {s r : Text} {ps : List StringPart}
    (h : readParts s = some (ps, r)) : r.length < s.length := by
  fun_induction readParts s generalizing ps r with
  | case1 => cases h
  | case2 => cases h; simp
  | case3 a b c d r' ih =>
    simp only [Option.bind_eq_bind, Option.bind_eq_some_iff] at h
    obtain ⟨part, -, ⟨parts, rest⟩, h1, h2⟩ := h
    cases h2
    have := ih h1
    simp only [List.length_cons]
    omega
  | case4 e r' hne ih =>
    simp only [Option.bind_eq_bind, Option.bind_eq_some_iff] at h
    obtain ⟨c, -, ⟨parts, rest⟩, h1, h2⟩ := h
    cases h2
    have := ih h1
    simp only [List.length_cons]
    omega
  | case5 => cases h
  | case6 c r' h1 h2 h3 h4 ih =>
    simp only [Option.bind_eq_bind, Option.bind_eq_some_iff] at h
    obtain ⟨⟨parts, rest⟩, h1, h2⟩ := h
    cases h2
    have := ih h1
    simp only [List.length_cons]
    omega

/-! ## Numbers -/

/-- A run of digits, which must not be empty, and the rest. -/
def readDigits (s : Text) : Option (Text × Text) :=
  if s.takeWhile Char.isDigit = [] then none
  else some (s.takeWhile Char.isDigit, s.dropWhile Char.isDigit)

/-- The digits before the point: a zero stands alone. -/
def readWhole (s : Text) : Option (Text × Text) :=
  match s with
  | '0' :: r => if (r.head?.any Char.isDigit) then none else some (['0'], r)
  | _ => readDigits s

/-- The rest after a fraction, and whether there was one. -/
def skipFraction (s : Text) : Option (Bool × Text) :=
  match s with
  | '.' :: r => (readDigits r).map fun (_, r') => (true, r')
  | _ => some (false, s)

def skipSign (s : Text) : Text :=
  match s with
  | '+' :: r => r
  | '-' :: r => r
  | _ => s

/-- The rest after an exponent, and whether there was one. -/
def skipExponent (s : Text) : Option (Bool × Text) :=
  match s with
  | [] => some (false, [])
  | c :: r =>
    if c = 'e' ∨ c = 'E' then (readDigits (skipSign r)).map fun (_, r') => (true, r')
    else some (false, c :: r)

def readUnsigned (s : Text) : Option (Lexeme × Text) := do
  let (digits, r) ← readWhole s
  let (fraction, r) ← skipFraction r
  let (exponent, r) ← skipExponent r
  return (if fraction || exponent then .otherNumber else .natural (Text.valueFrom 0 digits), r)

theorem length_lt_of_readDigits {s d r : Text} (h : readDigits s = some (d, r)) :
    r.length < s.length := by
  unfold readDigits at h
  split at h
  · cases h
  · next hd =>
    cases h
    have := congrArg List.length (List.takeWhile_append_dropWhile (p := Char.isDigit) (l := s))
    have := List.length_pos_iff.2 hd
    simp only [List.length_append] at *
    omega

theorem length_lt_of_readWhole {s d r : Text} (h : readWhole s = some (d, r)) :
    r.length < s.length := by
  unfold readWhole at h
  split at h
  · split at h
    · cases h
    · cases h; simp
  · exact length_lt_of_readDigits h

theorem length_le_of_skipFraction {s r : Text} {b : Bool} (h : skipFraction s = some (b, r)) :
    r.length ≤ s.length := by
  unfold skipFraction at h
  split at h
  · obtain ⟨⟨d, r'⟩, hr, he⟩ := Option.map_eq_some_iff.1 h
    cases he
    have := length_lt_of_readDigits hr
    simp only [List.length_cons]
    omega
  · cases h; exact Nat.le_refl _

theorem length_skipSign_le (s : Text) : (skipSign s).length ≤ s.length := by
  unfold skipSign
  split <;> simp

theorem length_le_of_skipExponent {s r : Text} {b : Bool} (h : skipExponent s = some (b, r)) :
    r.length ≤ s.length := by
  unfold skipExponent at h
  split at h
  · cases h; exact Nat.le_refl _
  · next c t =>
    split at h
    · obtain ⟨⟨d, r'⟩, hr, he⟩ := Option.map_eq_some_iff.1 h
      cases he
      have := length_lt_of_readDigits hr
      have := length_skipSign_le t
      simp only [List.length_cons]
      omega
    · cases h; exact Nat.le_refl _

theorem length_lt_of_readUnsigned {s r : Text} {x : Lexeme} (h : readUnsigned s = some (x, r)) :
    r.length < s.length := by
  simp only [readUnsigned, Option.bind_eq_bind, Option.bind_eq_some_iff] at h
  obtain ⟨⟨d, r1⟩, h1, ⟨b2, r2⟩, h2, ⟨b3, r3⟩, h3, h4⟩ := h
  cases h4
  simp only at h2 h3
  have := length_lt_of_readWhole h1
  have := length_le_of_skipFraction h2
  have := length_le_of_skipExponent h3
  show r3.length < s.length
  omega

/-! ## Lexemes -/

/-- The lexeme at the head of a text that does not begin with a blank, and the rest. -/
def readLexeme : Text → Option (Lexeme × Text)
  | [] => none
  | '\x7b' :: r => some (.openBrace, r)
  | '\x7d' :: r => some (.closeBrace, r)
  | '[' :: r => some (.openBracket, r)
  | ']' :: r => some (.closeBracket, r)
  | ':' :: r => some (.colon, r)
  | ',' :: r => some (.comma, r)
  | '"' :: r => (readParts r).map fun (parts, rest) => (.string (textOf? parts), rest)
  | 'n' :: 'u' :: 'l' :: 'l' :: r => some (.null, r)
  | 't' :: 'r' :: 'u' :: 'e' :: r => some (.bool true, r)
  | 'f' :: 'a' :: 'l' :: 's' :: 'e' :: r => some (.bool false, r)
  | '-' :: r => (readUnsigned r).map fun (_, rest) => (.otherNumber, rest)
  | s => readUnsigned s

theorem length_lt_of_readLexeme {s r : Text} {x : Lexeme} (h : readLexeme s = some (x, r)) :
    r.length < s.length := by
  unfold readLexeme at h
  split at h
  case h_1 => cases h
  case h_8 =>
    obtain ⟨⟨ps, r'⟩, hr, he⟩ := Option.map_eq_some_iff.1 h
    cases he
    have := length_lt_of_readParts hr
    simp only [List.length_cons]
    omega
  case h_12 =>
    obtain ⟨⟨y, r'⟩, hr, he⟩ := Option.map_eq_some_iff.1 h
    cases he
    have := length_lt_of_readUnsigned hr
    simp only [List.length_cons]
    omega
  case h_13 => exact length_lt_of_readUnsigned h
  all_goals cases h; simp only [List.length_cons]; omega

/-- The lexemes of a text, unless something in it is none. -/
def lexemes (s : Text) : Option (List Lexeme) :=
  match _hs : s.dropWhile isSpace with
  | [] => some []
  | c :: r =>
    match _h : readLexeme (c :: r) with
    | none => none
    | some (x, rest) => (lexemes rest).map (x :: ·)
termination_by s.length
decreasing_by
  have := length_lt_of_readLexeme _h
  have := List.Sublist.length_le (List.dropWhile_sublist isSpace (l := s))
  rw [_hs] at this
  omega

end Agenda.Json
