import Agenda.Sql.Render
import Mathlib.Data.List.Infix
/-!
# What queries select

The meaning of conditions over a database, in the three-valued logic of SQL: a comparison with nothing
is neither true nor false, and a query selects the rows of which its condition is true.

A database is the rows of each table by its name, a row what it holds in each column by its name, so
that a configuration decides which tables a condition speaks of. Inside a subquery the name of a table
means the innermost one: where tasks and links share a table, a link is compared with itself.

Results: `any_append`; `hasLink_any`, by which one link to some of the names is a link to one of them.
-/
namespace Agenda.Sql

inductive Truth where
  | no
  | unknown
  | yes
deriving DecidableEq, Repr

namespace Truth

def ofBool (b : Bool) : Truth := if b then yes else no

def and : Truth → Truth → Truth
  | no, _ | _, no => no
  | yes, yes => yes
  | _, _ => unknown

def or : Truth → Truth → Truth
  | yes, _ | _, yes => yes
  | no, no => no
  | _, _ => unknown

def not : Truth → Truth
  | no => yes
  | unknown => unknown
  | yes => no

def any (ts : List Truth) : Truth := ts.foldr or no

theorem or_assoc (a b c : Truth) : (a.or b).or c = a.or (b.or c) := by
  cases a <;> cases b <;> cases c <;> rfl

theorem or_no (a : Truth) : a.or no = a := by cases a <;> rfl

theorem no_or (a : Truth) : no.or a = a := by cases a <;> rfl

theorem any_append (ts us : List Truth) : any (ts ++ us) = (any ts).or (any us) := by
  induction ts with
  | nil => exact (no_or _).symm
  | cons t ts ih => rw [List.cons_append, any, List.foldr_cons, ← any, ih, ← or_assoc]; rfl

theorem or_eq_yes_iff {a b : Truth} : a.or b = yes ↔ a = yes ∨ b = yes := by
  cases a <;> cases b <;> decide

theorem and_eq_yes_iff {a b : Truth} : a.and b = yes ↔ a = yes ∧ b = yes := by
  cases a <;> cases b <;> decide

theorem any_eq_yes_iff {ts : List Truth} : any ts = yes ↔ yes ∈ ts := by
  induction ts with
  | nil => simp [any]
  | cons t ts ih => rw [any, List.foldr_cons, ← any, or_eq_yes_iff, ih, List.mem_cons, eq_comm]

/-- One of several is true when it is so of some, if every one of them is known. -/
theorem any_map_ofBool {α : Type} (f : α → Bool) (as : List α) :
    any (as.map fun a => ofBool (f a)) = ofBool (as.any f) := by
  induction as with
  | nil => rfl
  | cons a as ih =>
    rw [List.map_cons, any, List.foldr_cons, ← any, ih, List.any_cons]
    cases f a <;> cases as.any f <;> rfl

end Truth

/-! ## Rows -/

inductive Datum where
  | null
  | text (s : Text)
  | number (n : Int)
deriving DecidableEq, Repr

/-- What a row holds in each column, by the name of the column. -/
abbrev Row := Text → Datum

/-- The rows of each table, by the name of the table. -/
abbrev Database := Text → List Row

def Literal.datum : Literal → Datum
  | text s => .text s
  | number n => .number n

/-- Nothing is known of a comparison with null. -/
def Datum.equals (a b : Datum) : Truth :=
  if a = .null ∨ b = .null then .unknown else .ofBool (decide (a = b))

/-- Whether two characters are the same to a pattern: SQLite does not tell the ASCII letters of either
case apart. -/
def Dialect.sameChar : Dialect → Char → Char → Bool
  | postgres, c, d => c == d
  | sqlite, c, d => c.toLower == d.toLower

/-- Whether a text matches a pattern, in which a percent sign stands for any text, an underscore for any
character, and a backslash takes the character after it literally. -/
def matchesPattern (same : Char → Char → Bool) : Text → Text → Bool
  | [], s => s.isEmpty
  | c :: p, s =>
    if c = '%' then s.tails.any fun t => matchesPattern same p t
    else if c = '\\' then
      match p, s with
      | e :: q, d :: t => same e d && matchesPattern same q t
      | _, _ => false
    else match s with
      | [] => false
      | d :: t => (c == '_' || same c d) && matchesPattern same p t

/-- A number matches no pattern. -/
def Datum.like (dialect : Dialect) (pattern : Text) : Datum → Truth
  | null => .unknown
  | text s => .ofBool (matchesPattern dialect.sameChar pattern s)
  | number _ => .no

/-! ## Conditions -/

/-- A row of the link table of the kind belongs to the task and passes a test. -/
def hasLink (config : Config) (db : Database) (row : Row) (kind : TagKind) (test : Row → Truth) :
    Truth :=
  let table := config.linkTable kind
  .ofBool ((db table).any fun link =>
    let task := if table = config.table then link else row
    decide (((link "task_id".toList).equals (task Column.id.name)).and (test link) = .yes))

def isNamed (names : List Text) (link : Row) : Truth :=
  .any (names.map fun n => (link "name".toList).equals (.text n))

def Condition.truth (config : Config) (db : Database) (row : Row) : Condition → Truth
  | equal c v => (row c.name).equals v.datum
  | among c vs => .any (vs.map fun v => (row c.name).equals v.datum)
  | present c => .ofBool (decide (row c.name ≠ .null))
  | like c pattern => (row c.name).like config.dialect pattern
  | tagged kind .any => hasLink config db row kind fun _ => .yes
  | tagged kind (.named n) => hasLink config db row kind fun link =>
      (link "name".toList).equals (.text n)
  | taggedAmong kind names => hasLink config db row kind (isNamed names)
  | both l r => (l.truth config db row).and (r.truth config db row)
  | either l r => (l.truth config db row).or (r.truth config db row)
  | not e => (e.truth config db row).not

/-- A link to one of several names is, for one of them, a link to it. -/
theorem hasLink_any (config : Config) (db : Database) (row : Row) (kind : TagKind)
    (names : List Text) :
    hasLink config db row kind (isNamed names)
      = .any (names.map fun n => (Condition.tagged kind (.named n)).truth config db row) := by
  simp only [Condition.truth, hasLink]
  rw [Truth.any_map_ofBool]
  congr 1
  rw [Bool.eq_iff_iff]
  simp only [List.any_eq_true, decide_eq_true_eq, Truth.and_eq_yes_iff, isNamed,
    Truth.any_eq_yes_iff, List.mem_map]
  constructor
  · rintro ⟨link, hlink, htask, n, hn, hname⟩
    exact ⟨n, hn, link, hlink, htask, hname⟩
  · rintro ⟨n, hn, link, hlink, htask, hname⟩
    exact ⟨link, hlink, htask, n, hn, hname⟩

/-! ## Queries -/

def Query.selects (config : Config) (db : Database) (q : Query) (row : Row) : Bool :=
  q.condition.all fun c => decide (c.truth config db row = .yes)

def Query.rows (config : Config) (db : Database) (q : Query) : List Row :=
  (db config.table).filter (q.selects config db)

end Agenda.Sql
