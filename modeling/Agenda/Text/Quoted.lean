import Agenda.Text.Basic
/-!
# Quoted texts

A text in double quotes, with a backslash before every quote and backslash inside it. Reading drops
the quotes and takes the character after a backslash as it is.

Results: reading a quoted text gives the text back (`unquote_quote`).
-/
namespace Agenda.Text

/-- A backslash goes before every quote and every backslash. -/
def escape : Text → Text
  | [] => []
  | c :: r => if c = '"' ∨ c = '\\' then '\\' :: c :: escape r else c :: escape r

def quote (s : Text) : Text := '"' :: (escape s ++ ['"'])

/-- A backslash stands for the character after it, and at the end for nothing. -/
def unescape : Text → Text
  | [] => []
  | c :: r =>
    if c = '\\' then
      match r with
      | [] => []
      | d :: r' => d :: unescape r'
    else c :: unescape r

/-- The text between two double quotes; a text that is not in quotes stays whole. -/
def inner : Text → Text
  | [] => []
  | c :: r => if c = '"' ∧ r.getLast? = some '"' then r.dropLast else c :: r

def unquote (s : Text) : Text := unescape (inner s)

theorem unescape_backslash (c : Char) (r : Text) :
    unescape ('\\' :: c :: r) = c :: unescape r := rfl

theorem unescape_cons {c : Char} (h : c ≠ '\\') (r : Text) :
    unescape (c :: r) = c :: unescape r := by
  cases r <;> simp [unescape, h]

theorem unescape_escape (s : Text) : unescape (escape s) = s := by
  induction s with
  | nil => rfl
  | cons c r ih =>
    rw [escape]
    split
    · rw [unescape_backslash, ih]
    · next h => rw [unescape_cons (fun hc => h (Or.inr hc)), ih]

theorem inner_quote (s : Text) : inner (quote s) = escape s := by
  simp [quote, inner]

theorem unquote_quote (s : Text) : unquote (quote s) = s := by
  rw [unquote, inner_quote, unescape_escape]

end Agenda.Text
