import Agenda.Proofs.Calendar.Phrase
import Agenda.Proofs.Calendar.Succession
/-!
# Phrases that count from today

A phrase is known by its words alone. A number of days or weeks, a keyword and a weekday each stand for
some number of days, and mean the day that is reached by counting them one by one from today; they mean
no day when that day lies past the last one, or when the number does not fit sixty-four bits.

Results: `ofPhrase?_of_saysCount`; `ofPhrase?_of_keyword`; `ofPhrase?_of_weekday` and
`ofPhrase?_of_next_weekday`; `relative_phrases_count_days`.
-/
namespace Agenda

open Text (wordBound)

namespace DayPhrase

/-- The words of the text, trimmed and in lower case, are these. -/
def Says (s : Text) (ws : List Text) : Prop := Text.words (Text.lower (Text.trim s)) = ws

instance (s : Text) (ws : List Text) : Decidable (Says s ws) := inferInstanceAs (Decidable (_ = _))

/-- The text says `in` and so many of a unit, the number in decimal. -/
def SaysCount (one many : Text) (s : Text) (n : Nat) : Prop :=
  ∃ digits unit, Says s ["in".toList, digits, unit] ∧ Text.readNat? digits = some n ∧
    (unit = one ∨ unit = many)

def SaysDays (s : Text) (n : Nat) : Prop := SaysCount "day".toList "days".toList s n

def SaysWeeks (s : Text) (n : Nat) : Prop := SaysCount "week".toList "weeks".toList s n

/-- The words that stand for a number of days without naming it. -/
inductive Keyword : List Text → Nat → Prop
  | today : Keyword ["today".toList] 0
  | tomorrow : Keyword ["tomorrow".toList] 1
  | nextWeek : Keyword ["next-week".toList] 7
  | nextWeekApart : Keyword ["next".toList, "week".toList] 7

/-- The name of a weekday, whole or short. -/
def Names (name : Text) (w : Weekday) : Prop := name = w.name ∨ name = w.shortName

/-! ## Words as they are written -/

theorem isPlainWord_of_digits {w : Text} (hne : w ≠ []) (h : ∀ c ∈ w, c.isDigit = true) :
    Text.IsPlainWord w := by
  have hfigure : ∀ c ∈ w, Date.isFigure c = true := fun c hc => by
    rw [Date.isFigure, h c hc]
    rfl
  exact ⟨hne, fun c hc => Date.isBlank_of_isFigure (hfigure c hc),
    fun c hc => Date.toLower_of_isFigure (hfigure c hc)⟩

/-- The number in decimal between plain words. -/
theorem saysCount_joinWith {one many unit : Text} (hunit : unit = one ∨ unit = many)
    (hplain : Text.IsPlainWord unit) (n : Nat) :
    SaysCount one many (Text.joinWith ' ' ["in".toList, Text.ofNat n, unit]) n := by
  refine ⟨Text.ofNat n, unit, Text.words_lower_trim_joinWith ?_, Text.readNat?_ofNat n, hunit⟩
  intro w hw
  simp only [List.mem_cons, List.not_mem_nil, or_false] at hw
  rcases hw with rfl | rfl | rfl
  · exact Text.isPlainWord_of_all (by decide) (by decide)
  · exact isPlainWord_of_digits (Text.ofNat_ne_nil n) fun _ => Text.isDigit_of_mem_ofNat
  · exact hplain

/-! ## What the words are read as -/

/-- The days must fit sixty-four bits; then the number of units does. -/
theorem ofCount?_eq {digits unit : Text} {n days : Nat} (hn : Text.readNat? digits = some n)
    (hunit : unitDays? unit = some days) (hdays : 0 < days) :
    ofCount? digits unit = if n * days < wordBound then some (later (n * days)) else none := by
  have hdigits : digits.all Char.isDigit = true := (Text.readNat?_eq_some_iff.1 hn).1.2
  have hmul : n ≤ n * days := Nat.le_mul_of_pos_right n hdays
  unfold ofCount?
  by_cases hfits : n < wordBound
  · rw [(Text.readWord?_eq_some_iff hdigits).2 ⟨hn, hfits⟩, hunit]
    rfl
  · have hnone : Text.readWord? digits = none := by
      rw [Option.eq_none_iff_forall_ne_some]
      intro m hm
      have hread := (Text.readWord?_eq_some_iff hdigits).1 hm
      rw [hn] at hread
      have : n = m := Option.some.inj hread.1
      omega
    rw [hnone, if_neg (by omega)]
    rfl

/-- A weekday is none of the words that stand alone, nor a date in figures. -/
theorem ofWord?_of_names {name : Text} {w : Weekday} (h : Names name w) :
    ofWord? name = some (weekday w false) := by
  rcases h with rfl | rfl <;> cases w <;> decide

theorem ofNext?_of_names {name : Text} {w : Weekday} (h : Names name w) :
    ofNext? name = some (weekday w true) := by
  rcases h with rfl | rfl <;> cases w <;> decide

theorem ofWords?_of_keyword {ws : List Text} {n : Nat} (h : Keyword ws n) :
    ofWords? ws = some (later n) := by
  cases h <;> decide

end DayPhrase

namespace Date

open DayPhrase

theorem ofPhrase?_of_words {s : Text} {ws : List Text} (h : Says s ws) (today : Date) :
    today.ofPhrase? s = (ofWords? ws).bind (resolve? today) := by
  unfold ofPhrase? DayPhrase.read?
  rw [show Text.words (Text.lower (Text.trim s)) = ws from h]

/-- A number of units means the day after so many times the days of the unit. -/
theorem ofPhrase?_of_saysCount {one many s : Text} {n days : Nat} (h : SaysCount one many s n)
    (hone : unitDays? one = some days) (hmany : unitDays? many = some days) (hdays : 0 < days)
    (today : Date) :
    today.ofPhrase? s = if n * days < wordBound then today.addDays? (n * days) else none := by
  obtain ⟨digits, unit, hsaid, hread, hunit⟩ := h
  have hunit : unitDays? unit = some days := by
    rcases hunit with rfl | rfl
    · exact hone
    · exact hmany
  rw [ofPhrase?_of_words hsaid, ofWords?, if_pos rfl, ofCount?_eq hread hunit hdays]
  split
  · rfl
  · rfl

theorem ofPhrase?_of_saysDays {s : Text} {n : Nat} (h : SaysDays s n) (today : Date) :
    today.ofPhrase? s = if n < wordBound then today.addDays? n else none := by
  have hone : today.ofPhrase? s = if n * 1 < wordBound then today.addDays? (n * 1) else none :=
    ofPhrase?_of_saysCount h rfl rfl (by omega) today
  rw [Nat.mul_one] at hone
  exact hone

theorem ofPhrase?_of_saysWeeks {s : Text} {n : Nat} (h : SaysWeeks s n) (today : Date) :
    today.ofPhrase? s = if 7 * n < wordBound then today.addDays? (7 * n) else none := by
  have hseven : today.ofPhrase? s = if n * 7 < wordBound then today.addDays? (n * 7) else none :=
    ofPhrase?_of_saysCount h rfl rfl (by omega) today
  rw [Nat.mul_comm] at hseven
  exact hseven

theorem ofPhrase?_of_keyword {s : Text} {ws : List Text} {n : Nat} (hword : Keyword ws n)
    (hsaid : Says s ws) (today : Date) : today.ofPhrase? s = today.addDays? n := by
  rw [ofPhrase?_of_words hsaid, ofWords?_of_keyword hword]
  rfl

/-- The weekday alone means a day of the week that begins today. -/
theorem ofPhrase?_of_weekday {s name : Text} {w : Weekday} (hname : Names name w) (hsaid : Says s [name])
    (today : Date) : today.ofPhrase? s = today.addDays? (weekdayDistance today w false) := by
  rw [ofPhrase?_of_words hsaid, ofWords?, ofWord?_of_names hname]
  rfl

/-- After `next` it means a day of the week that begins tomorrow. -/
theorem ofPhrase?_of_next_weekday {s name : Text} {w : Weekday} (hname : Names name w)
    (hsaid : Says s ["next".toList, name]) (today : Date) :
    today.ofPhrase? s = today.addDays? (weekdayDistance today w true) := by
  rw [ofPhrase?_of_words hsaid, ofWords?, if_pos rfl, ofNext?_of_names hname]
  rfl

/-- What the phrases that count from today mean when they are said on `today`. -/
structure CountsFrom (today : Date) : Prop where
  /-- Plain words with a space between them are a way to say them. -/
  spelled : ∀ ws : List Text, (∀ w ∈ ws, Text.IsPlainWord w) → Says (Text.joinWith ' ' ws) ws
  spelled_days : ∀ n, SaysDays (Text.joinWith ' ' ["in".toList, Text.ofNat n, "days".toList]) n
  spelled_weeks : ∀ n, SaysWeeks (Text.joinWith ' ' ["in".toList, Text.ofNat n, "weeks".toList]) n
  days : ∀ s n, SaysDays s n → today.ofPhrase? s
    = if n < 2 ^ 64 ∧ today.later n ≤ last then some (today.later n) else none
  /-- A week is seven days, also when these are too many. -/
  weeks : ∀ s t n, SaysWeeks s n → SaysDays t (7 * n) → today.ofPhrase? s = today.ofPhrase? t
  keyword : ∀ ws s t n, Keyword ws n → Says s ws → SaysDays t n → today.ofPhrase? s = today.ofPhrase? t
  weekday : ∀ name w s, Names name w → Says s [name] → ∃ k, today.IsOnlyOn w 0 6 k ∧
    today.ofPhrase? s = if today.later k ≤ last then some (today.later k) else none
  next : ∀ name w s, Names name w → Says s ["next".toList, name] → ∃ k, today.IsOnlyOn w 1 7 k ∧
    today.ofPhrase? s = if today.later k ≤ last then some (today.later k) else none

/-- On every day the phrases that count from it mean the days that counting one by one reaches, up to the
last day, and a weekday the only such day among the next seven. -/
theorem relative_phrases_count_days (today : Date) : CountsFrom today where
  spelled ws hws := Text.words_lower_trim_joinWith hws
  spelled_days := saysCount_joinWith (Or.inr rfl) (Text.isPlainWord_of_all (by decide) (by decide))
  spelled_weeks := saysCount_joinWith (Or.inr rfl) (Text.isPlainWord_of_all (by decide) (by decide))
  days s n hs := by
    have hbound : wordBound = 2 ^ 64 := rfl
    rw [ofPhrase?_of_saysDays hs, addDays?_eq, hbound, ite_and]
  weeks s t n hs ht := by
    rw [ofPhrase?_of_saysWeeks hs, ofPhrase?_of_saysDays ht]
  keyword ws s t n hword hs ht := by
    have hsmall : n < wordBound := by
      cases hword <;> decide
    rw [ofPhrase?_of_keyword hword hs, ofPhrase?_of_saysDays ht, if_pos hsmall]
  weekday name w s hname hs :=
    ⟨weekdayDistance today w false, isOnlyOn_weekdayDistance today w false, by
      rw [ofPhrase?_of_weekday hname hs, addDays?_eq]⟩
  next name w s hname hs :=
    ⟨weekdayDistance today w true, isOnlyOn_weekdayDistance today w true, by
      rw [ofPhrase?_of_next_weekday hname hs, addDays?_eq]⟩

/-- On a Sunday, the next Sunday and a day in the next month. -/
example :
    let today : Date := ⟨2026, 2, 8, by decide, by decide, by decide, by decide⟩
    (today.ofPhrase? "Next sun".toList).map Date.day = some 15 ∧
      (today.ofPhrase? "in 3 weeks".toList).map Date.month = some 3 := by decide

end Date

end Agenda
