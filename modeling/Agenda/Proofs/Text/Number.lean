import Agenda.Text.Number
import Mathlib.Algebra.Group.Nat.Defs
import Mathlib.Data.List.Induction
/-!
# Numbers in decimal

Decimal digits are read back as the number they were written for, with zeros in front of them or not,
and by every reader of numbers. Digits that were read are written again without the zeros in front.

Results: `readNat?_ofNat`; `readWord?_ofNat` and `readHashed?_ofNat` for numbers of sixty-four bits;
`ofNat_valueFrom_zero`; `valueFrom_padded`, `length_padded` and `padded_valueFrom` for a fixed width.
-/
namespace Agenda.Text

/-! ## Digits of a number -/

theorem isDigit_of_mem_ofNat {n : Nat} {c : Char} (h : c ∈ ofNat n) : c.isDigit = true :=
  Nat.isDigit_of_mem_toDigits (by decide) (by decide) h

theorem ofNat_ne_nil (n : Nat) : ofNat n ≠ [] := Nat.toDigits_ne_nil

theorem valueFrom_ofNat (n : Nat) : valueFrom 0 (ofNat n) = n := Nat.ofDigitChars_ten_toDigits

theorem ofNat_injective {m n : Nat} (h : ofNat m = ofNat n) : m = n := by
  rw [← valueFrom_ofNat m, h, valueFrom_ofNat]

/-- What is not a digit does not begin the digits of a number. -/
theorem ofNat_ne_cons {n : Nat} {c : Char} (hc : c.isDigit = false) (r : Text) : ofNat n ≠ c :: r := by
  intro h
  have hdigit : c.isDigit = true := isDigit_of_mem_ofNat (n := n) (by rw [h]; simp)
  rw [hc] at hdigit
  cases hdigit

theorem toNat_of_isDigit {c : Char} (h : c.isDigit = true) : 48 ≤ c.toNat ∧ c.toNat ≤ 57 := by
  simpa [Char.isDigit, UInt32.le_iff_toNat_le] using h

theorem digitValue_le {c : Char} (h : c.isDigit = true) : digitValue c ≤ 9 := by
  have hc : c.toNat ≤ 57 := (toNat_of_isDigit h).2
  have hzero : '0'.toNat = 48 := rfl
  unfold digitValue
  omega

/-! ## Digits written again -/

theorem digitValue_injective {c d : Char} (hc : c.isDigit = true) (hd : d.isDigit = true)
    (h : digitValue c = digitValue d) : c = d := by
  have hcbounds := toNat_of_isDigit hc
  have hdbounds := toNat_of_isDigit hd
  have hzero : '0'.toNat = 48 := rfl
  unfold digitValue at h
  exact Char.toNat_inj.1 (by omega)

/-- The value of a digit is written as that digit. -/
theorem ofNat_digitValue {c : Char} (h : c.isDigit = true) : ofNat (digitValue c) = [c] := by
  have hsingle : ofNat (digitValue c) = [(digitValue c).digitChar] :=
    Nat.toDigits_of_lt_base (Nat.lt_succ_of_le (digitValue_le h))
  have hdigit : (digitValue c).digitChar.isDigit = true :=
    isDigit_of_mem_ofNat (n := digitValue c) (by rw [hsingle]; simp)
  have hvalue : valueFrom 0 [(digitValue c).digitChar] = digitValue c := by
    rw [← hsingle, valueFrom_ofNat]
  rw [hsingle, digitValue_injective hdigit h]
  simpa [valueFrom] using hvalue

/-- Digits after a number that is not zero stand as they are. -/
theorem ofNat_valueFrom {v : Nat} (hv : 0 < v) {s : Text} (hs : ∀ c ∈ s, c.isDigit = true) :
    ofNat (valueFrom v s) = ofNat v ++ s := by
  induction s generalizing v with
  | nil => exact (List.append_nil _).symm
  | cons c r ih =>
    have hc : c.isDigit = true := hs c (List.mem_cons_self ..)
    have hjoin : ofNat v ++ ofNat (digitValue c) = ofNat (10 * v + digitValue c) :=
      Nat.toDigits_append_toDigits (by decide) hv (Nat.lt_succ_of_le (digitValue_le hc))
    have hcons : valueFrom v (c :: r) = valueFrom (10 * v + digitValue c) r := rfl
    rw [hcons, ih (by omega) fun d hd => hs d (List.mem_cons_of_mem _ hd), ← hjoin,
      ofNat_digitValue hc, List.append_assoc, List.singleton_append]

/-- The number that digits spell is written without the zeros in front. -/
theorem ofNat_valueFrom_zero {s : Text} (hs : ∀ c ∈ s, c.isDigit = true)
    (hpos : 0 < valueFrom 0 s) : ofNat (valueFrom 0 s) = s.dropWhile (· == '0') := by
  induction s with
  | nil => exact absurd hpos (Nat.lt_irrefl 0)
  | cons c r ih =>
    have hc : c.isDigit = true := hs c (List.mem_cons_self ..)
    have hr : ∀ d ∈ r, d.isDigit = true := fun d hd => hs d (List.mem_cons_of_mem _ hd)
    have hcons : valueFrom 0 (c :: r) = valueFrom (digitValue c) r := by simp [valueFrom]
    rw [hcons] at hpos ⊢
    by_cases hzero : c = '0'
    · subst hzero
      exact ih hr hpos
    · have hvalue : 0 < digitValue c := by
        rw [Nat.pos_iff_ne_zero]
        exact fun h => hzero (digitValue_injective hc (by decide) h)
      rw [ofNat_valueFrom hvalue hr, ofNat_digitValue hc, List.dropWhile_cons,
        beq_false_of_ne hzero]
      rfl

/-! ## Readers -/

theorem readNat?_eq_some_iff {s : Text} {n : Nat} :
    readNat? s = some n ↔ (s ≠ [] ∧ s.all Char.isDigit = true) ∧ valueFrom 0 s = n := by
  rw [readNat?]
  split
  · next h => rw [Option.some_inj, and_iff_right h]
  · next h => exact iff_of_false (Option.some_ne_none n).symm fun hs => h hs.1

/-- Without a sign a word is read as digits. -/
theorem readWord?_eq_some_iff {s : Text} {n : Nat} (hs : s.all Char.isDigit = true) :
    readWord? s = some n ↔ readNat? s = some n ∧ n < wordBound := by
  have hread : readWord? s = (readNat? s).filter (· < wordBound) := by
    unfold readWord?
    split
    · cases hs
    · rfl
  rw [hread, Option.filter_eq_some_iff, decide_eq_true_iff]

theorem readNat?_ofNat (n : Nat) : readNat? (ofNat n) = some n := by
  have hdigits : (ofNat n).all Char.isDigit = true :=
    List.all_eq_true.2 fun _ hc => isDigit_of_mem_ofNat hc
  rw [readNat?, if_pos ⟨ofNat_ne_nil n, hdigits⟩, valueFrom_ofNat]

theorem readWord?_ofNat {n : Nat} (h : n < wordBound) : readWord? (ofNat n) = some n := by
  rw [readWord?, readNat?_ofNat, Option.filter_some, if_pos (by simpa using h)]
  exact fun r hr => ofNat_ne_cons (by decide) r hr

theorem readHashed?_ofNat {n : Nat} (h : n < wordBound) : readHashed? (ofNat n) = some n := by
  have hhash : (ofNat n).dropWhile (· == '#') = ofNat n := by
    cases hn : ofNat n with
    | nil => rfl
    | cons c r =>
      have hc : (c == '#') = false := beq_false_of_ne fun h => ofNat_ne_cons (by decide) r (h ▸ hn)
      rw [List.dropWhile_cons, hc]; rfl
  rw [readHashed?, hhash, readWord?_ofNat h]

/-! ## A fixed width -/

theorem isDigit_of_mem_padded {width n : Nat} {c : Char} (h : c ∈ padded width n) :
    c.isDigit = true := by
  rcases List.mem_append.1 h with h | h
  · rw [List.eq_of_mem_replicate h]; decide
  · exact isDigit_of_mem_ofNat h

theorem valueFrom_padded (width n : Nat) : valueFrom 0 (padded width n) = n := by
  have hzeros (k : Nat) : valueFrom 0 (List.replicate k '0') = 0 := by
    induction k with
    | zero => rfl
    | succ k ih => exact ih
  have happend (s t : Text) : valueFrom 0 (s ++ t) = valueFrom (valueFrom 0 s) t := List.foldl_append
  rw [padded, happend, hzeros, valueFrom_ofNat]

/-- Digits that fit are filled up to the width. -/
theorem length_padded {width n : Nat} (h : (ofNat n).length ≤ width) :
    (padded width n).length = width := by
  rw [padded, List.length_append, List.length_replicate]
  omega

theorem valueFrom_concat (s : Text) (c : Char) :
    valueFrom 0 (s ++ [c]) = 10 * valueFrom 0 s + digitValue c := by
  unfold valueFrom
  rw [List.foldl_append]
  rfl

theorem valueFrom_lt {s : Text} (hs : ∀ c ∈ s, c.isDigit = true) : valueFrom 0 s < 10 ^ s.length := by
  induction s using List.reverseRecOn with
  | nil => decide
  | append_singleton s c ih =>
    have hc : digitValue c ≤ 9 := digitValue_le (hs c (by simp))
    have hlt : valueFrom 0 s < 10 ^ s.length := ih fun d hd => hs d (by simp [hd])
    rw [valueFrom_concat, List.length_append, List.length_singleton, Nat.pow_succ]
    omega

/-- As many digits spell another number when one of them is another. -/
theorem valueFrom_injective {s t : Text} (hs : ∀ c ∈ s, c.isDigit = true)
    (ht : ∀ c ∈ t, c.isDigit = true) (hlength : s.length = t.length)
    (h : valueFrom 0 s = valueFrom 0 t) : s = t := by
  induction s using List.reverseRecOn generalizing t with
  | nil => exact (List.length_eq_zero_iff.1 hlength.symm).symm
  | append_singleton s c ih =>
    obtain rfl | ⟨t, d, rfl⟩ := List.eq_nil_or_concat t
    · simp at hlength
    · rw [List.concat_eq_append] at hlength ht ⊢
      have hc : c.isDigit = true := hs c (by simp)
      have hd : d.isDigit = true := ht d (by simp)
      have hcvalue := digitValue_le hc
      have hdvalue := digitValue_le hd
      rw [valueFrom_concat, List.concat_eq_append, valueFrom_concat] at h
      have hvalue : valueFrom 0 s = valueFrom 0 t := by omega
      have hlast : c = d := digitValue_injective hc hd (by omega)
      have hfront : s = t := ih (fun e he => hs e (by simp [he])) (fun e he => ht e (by simp [he]))
        (by simpa using hlength) hvalue
      rw [hfront, hlast]

/-- The number that digits spell is written in that many digits as it was. -/
theorem padded_valueFrom {s : Text} (hs : ∀ c ∈ s, c.isDigit = true) (hpos : 0 < s.length) :
    padded s.length (valueFrom 0 s) = s := by
  have hshort : (ofNat (valueFrom 0 s)).length ≤ s.length :=
    (Nat.length_toDigits_le_iff (by decide) hpos).2 (valueFrom_lt hs)
  exact valueFrom_injective (fun _ => isDigit_of_mem_padded) hs (length_padded hshort)
    (valueFrom_padded _ _)

end Agenda.Text
