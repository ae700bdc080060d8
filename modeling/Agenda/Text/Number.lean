import Agenda.Text.Basic
/-!
# Numbers in texts

Decimal digits of a natural number, and two readers: of plain digits, and of a word that fits
sixty-four bits.
-/
namespace Agenda.Text

def ofNat (n : Nat) : Text := Nat.toDigits 10 n

def digitValue (c : Char) : Nat := c.toNat - '0'.toNat

/-- The number that a run of digits spells, read after `acc`. -/
def valueFrom (acc : Nat) (s : Text) : Nat := s.foldl (fun n c => 10 * n + digitValue c) acc

/-- Reads a non-empty run of ASCII digits. -/
def readNat? (s : Text) : Option Nat :=
  if s ≠ [] ∧ s.all Char.isDigit then some (valueFrom 0 s) else none

/-- Numbers below this bound fit a word of sixty-four bits. -/
def wordBound : Nat := UInt64.size

/-- Reads digits, after a plus sign or not, that spell a number of at most sixty-four bits. -/
def readWord? (s : Text) : Option Nat :=
  let digits := match s with
    | '+' :: r => r
    | _ => s
  (readNat? digits).filter (· < wordBound)

/-- Reads a number with any run of hashes in front of it. -/
def readHashed? (s : Text) : Option Nat := readWord? (s.dropWhile (· == '#'))

/-- `n` in decimal with zeros in front up to `width` digits. -/
def padded (width n : Nat) : Text :=
  let digits := ofNat n
  List.replicate (width - digits.length) '0' ++ digits

theorem lt_wordBound_of_readWord? {s : Text} {n : Nat} (h : readWord? s = some n) :
    n < wordBound := by
  have := Option.mem_filter_iff.1 h
  simpa using this.2

end Agenda.Text
