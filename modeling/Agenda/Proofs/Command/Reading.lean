import Agenda.Command.Stop
/-!
# What the readers of commands accept

`Items` says which of the tokens are words and which operations the others make. The readers of create
and update commands compute it, the one with words and the other without.

Results: `readItems_iff` and `readOps_iff`; once a line has no open string and its intent is known,
reading it is reading what the intent asks for (`read_ok_iff_of_dispatch`).
-/
namespace Agenda.Command

/-! ## Words and operations -/

/-- The tokens are words and operations up to the end. -/
inductive Items (eof : Position) : List Token → List Token → List Op → Prop where
  | nil : Items eof [] [] []
  | op {ts rest words : List Token} {op : Op} {ops : List Op}
      (head : Op.read eof ts = .ok (some (op, rest))) (tail : Items eof rest words ops) :
      Items eof ts words (op :: ops)
  | word {t : Token} {ts words : List Token} {ops : List Op}
      (head : Op.read eof (t :: ts) = .ok none) (tail : Items eof ts words ops) :
      Items eof (t :: ts) (t :: words) ops

theorem items_of_readItems {eof : Position} {ts words : List Token} {ops : List Op}
    (h : readItems eof ts = .ok (words, ops)) : Items eof ts words ops := by
  induction ts using readItems.induct eof generalizing words ops with
  | case1 => rw [readItems] at h; cases h; exact .nil
  | case2 t ts e he => rw [readItems_error he] at h; cases h
  | case3 t ts op rest hop ih =>
    rw [readItems_op hop] at h
    cases hrest : readItems eof rest with
    | error e => rw [hrest] at h; cases h
    | ok r => rw [hrest] at h; cases h; exact .op hop (ih hrest)
  | case4 t ts hop ih =>
    rw [readItems_word hop] at h
    cases hrest : readItems eof ts with
    | error e => rw [hrest] at h; cases h
    | ok r => rw [hrest] at h; cases h; exact .word hop (ih hrest)

/-- The reader of create commands finds the words and the operations. -/
theorem readItems_iff {eof : Position} {ts words : List Token} {ops : List Op} :
    readItems eof ts = .ok (words, ops) ↔ Items eof ts words ops := by
  refine ⟨items_of_readItems, fun h => ?_⟩
  induction h with
  | nil => rw [readItems]
  | op head _ ih => rw [readItems_op head, ih]; rfl
  | word head _ ih => rw [readItems_word head, ih]; rfl

theorem items_of_readOps {eof : Position} {ts : List Token} {ops : List Op}
    (h : readOps eof ts = .ok ops) : Items eof ts [] ops := by
  induction ts using readOps.induct eof generalizing ops with
  | case1 => rw [readOps] at h; cases h; exact .nil
  | case2 t ts e he => rw [readOps_error he] at h; cases h
  | case3 t ts op rest hop ih =>
    rw [readOps_op hop] at h
    cases hrest : readOps eof rest with
    | error e => rw [hrest] at h; cases h
    | ok r => rw [hrest] at h; cases h; exact .op hop (ih hrest)
  | case4 t ts hop => rw [readOps_none hop] at h; cases h

/-- The reader of update commands finds the operations, and allows no words. -/
theorem readOps_iff {eof : Position} {ts : List Token} {ops : List Op} :
    readOps eof ts = .ok ops ↔ Items eof ts [] ops := by
  refine ⟨items_of_readOps, fun h => ?_⟩
  generalize hw : ([] : List Token) = words at h
  induction h with
  | nil => rw [readOps]
  | op head _ ih => rw [readOps_op head, ih hw]; rfl
  | word => cases hw

/-! ## Lines -/

/-- Once the tokens have no open string, reading a line is reading what its intent asks for, up to the
last token. -/
theorem read_ok_iff_of_dispatch {mode : Mode} {line after : List Token} {i : Intent}
    (hopen : ∀ t ∈ line, t.kind.isOpenString = false)
    (hd : dispatch mode (Token.endOf line) line = .ok (i, after)) (c : Command) :
    Command.read mode line line = .ok c ↔ readAs i (Token.endOf line) line after = .ok (c, []) := by
  rw [read_eq_ok_iff, readFrom_eq_ok_iff]
  constructor
  · intro h
    obtain ⟨-, -, j, after', hd', hread⟩ := h
    cases hd.symm.trans hd'
    exact hread
  · intro hread
    exact ⟨hopen, rfl, i, after, hd, hread⟩

end Agenda.Command
