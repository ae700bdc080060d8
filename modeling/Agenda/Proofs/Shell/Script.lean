import Agenda.Shell
import Mathlib.Data.Bool.Basic
import Mathlib.Tactic.SplitIfs
/-!
# Scripts

A script is the lines that a shell takes, each at its time; running it shows something after each line and
leaves the shell for the next. Most lines are commands, which begin with no colon, and an instruction that
the shell does not know or cannot follow is rejected. Neither changes the shell, so a script may as well be
run without them: what the other lines show stays the same. What does change the shell can be read off the
first words of the lines.

The lines are described by their words (`isCommand`, `isRejected`, `selects`), apart from the instructions
that the shell makes of them; `Asks` has one constructor for each instruction and brings the two together.

Results: a run without some of the idle lines (`run_filter`); a flag that a word toggles (`flag_run`); when
the number 0 is selected (`selected_run_eq_zero_iff`); `script_runs_by_instructions`.
-/
namespace Agenda.Shell

structure Input where
  now : Timestamp
  line : Text
deriving DecidableEq, Repr

/-- Takes the lines of a script: what each shows, and the shell after the last. -/
def run (sh : Shell) : List Input → List (Input × Option Text) × Shell
  | [] => ([], sh)
  | i :: script =>
    let (shown, sh') := sh.execute i.now i.line
    let (others, last) := sh'.run script
    ((i, shown) :: others, last)

theorem run_cons (sh : Shell) (i : Input) (script : List Input) :
    sh.run (i :: script)
      = ((i, sh.output i.now i.line) :: ((sh.next i.line).run script).1,
          ((sh.next i.line).run script).2) := rfl

/-! ## Lines by their words -/

def firstWord? (line : Text) : Option Text := (Text.words line).head?

def argument? (line : Text) : Option Text := (Text.words line).tail.head?

def instructionWords : List Text :=
  [":quit".toList, ":q".toList, ":exit".toList, ":help".toList, ":mode".toList, ":select".toList,
   ":tokens".toList, ":sql".toList]

/-- No colon begins the first word of the line, if it has one. -/
def isCommand (line : Text) : Bool := (firstWord? line).all fun word => word.head? != some ':'

/-- The line is an instruction that is not known, that asks for a mode that is not known, or that selects
what is no number from one up. -/
def isRejected (line : Text) : Bool :=
  (firstWord? line).any fun word =>
    if word = ":mode".toList then (argument? line).any fun a => !(Mode.read a).isOk
    else if word = ":select".toList then
      (argument? line).any fun a => !(Text.readHashed? a).any fun n => 0 < n
    else word.head? == some ':' && !instructionWords.contains word

/-- The line is for nothing but what it shows. -/
def isIdle (line : Text) : Bool := isCommand line || isRejected line

def beginsWith (word line : Text) : Bool := firstWord? line == some word

/-- The line selects a task, or none. -/
def selects (line : Text) : Bool := beginsWith ":select".toList line && !isRejected line

/-! ## Lines as instructions -/

/-- What the first word of a line and the word after it ask of the shell. -/
inductive Asks (word : Text) (arg : Option Text) : Instruction → Prop where
  | quit (h : word = ":quit".toList ∨ word = ":q".toList ∨ word = ":exit".toList) : Asks word arg .quit
  | help (h : word = ":help".toList) : Asks word arg .help
  | showMode (h : word = ":mode".toList) (ha : arg = none) : Asks word arg .showMode
  | setMode {a : Text} {m : Mode} (h : word = ":mode".toList) (ha : arg = some a)
      (hm : Mode.read a = .ok m) : Asks word arg (.setMode m)
  | unknownMode {a : Text} {e : UnknownMode} (h : word = ":mode".toList) (ha : arg = some a)
      (he : Mode.read a = .error e) : Asks word arg (.unknownMode e)
  | deselect (h : word = ":select".toList) (ha : arg = none) : Asks word arg .deselect
  | select {a : Text} {n : Nat} (h : word = ":select".toList) (ha : arg = some a)
      (hn : Text.readHashed? a = some n) (hpos : 0 < n) : Asks word arg (.select n)
  | invalidId {a : Text} (h : word = ":select".toList) (ha : arg = some a)
      (hn : ∀ n, Text.readHashed? a = some n → n = 0) : Asks word arg (.invalidId a)
  | toggleTokens (h : word = ":tokens".toList) : Asks word arg .toggleTokens
  | toggleSql (h : word = ":sql".toList) : Asks word arg .toggleSql
  | unknown (hcolon : word.head? = some ':') (hword : word ∉ instructionWords) :
      Asks word arg (.unknown word)
  | run (hcolon : word.head? ≠ some ':') : Asks word arg .run

theorem asks_ofMode {word a : Text} (h : word = ":mode".toList) :
    Asks word (some a) (.ofMode a) := by
  unfold Instruction.ofMode
  split
  · next m hm => exact .setMode h rfl hm
  · next e he => exact .unknownMode h rfl he

theorem asks_ofId {word a : Text} (h : word = ":select".toList) : Asks word (some a) (.ofId a) := by
  unfold Instruction.ofId
  split
  · next n hn =>
    split
    · next hzero => exact .invalidId h rfl fun m hm => by rw [hn] at hm; cases hm; exact hzero
    · next hne => exact .select h rfl hn (Nat.pos_of_ne_zero hne)
  · next hn => exact .invalidId h rfl fun m hm => by rw [hn] at hm; cases hm

theorem asks_ofWords (word : Text) (arg : Option Text) : Asks word arg (.ofWords word arg) := by
  unfold Instruction.ofWords
  split_ifs with hquit hhelp hmode hselect htokens hsql hcolon
  · exact .quit hquit
  · exact .help hhelp
  · cases arg with
    | none => exact .showMode hmode rfl
    | some a => exact asks_ofMode hmode
  · cases arg with
    | none => exact .deselect hselect rfl
    | some a => exact asks_ofId hselect
  · exact .toggleTokens htokens
  · exact .toggleSql hsql
  · refine .unknown hcolon fun hmem => ?_
    simp only [instructionWords, List.mem_cons, List.not_mem_nil, or_false] at hmem
    rcases hmem with h | h | h | h | h | h | h | h
    · exact hquit (Or.inl h)
    · exact hquit (Or.inr (Or.inl h))
    · exact hquit (Or.inr (Or.inr h))
    · exact hhelp h
    · exact hmode h
    · exact hselect h
    · exact htokens h
    · exact hsql h
  · exact .run hcolon

/-- A line without words is a command, and any other asks what its first two words ask. -/
theorem ofLine_cases (line : Text) :
    (firstWord? line = none ∧ Instruction.ofLine line = .run) ∨
      ∃ word, firstWord? line = some word ∧ Asks word (argument? line) (.ofLine line) := by
  rw [firstWord?, argument?, Instruction.ofLine]
  cases Text.words line with
  | nil => exact Or.inl ⟨rfl, rfl⟩
  | cons word rest => exact Or.inr ⟨word, rfl, asks_ofWords word rest.head?⟩

theorem isCommand_iff {line : Text} : isCommand line = true ↔ Instruction.ofLine line = .run := by
  rcases ofLine_cases line with ⟨hw, hi⟩ | ⟨word, hw, hasks⟩
  · simp [isCommand, hw, hi]
  · rw [isCommand, hw, Option.all_some]
    generalize Instruction.ofLine line = i at hasks
    cases hasks with
    | run hcolon => simpa using hcolon
    | unknown hcolon hword => simp [hcolon]
    | quit h => rcases h with rfl | rfl | rfl <;> decide
    | help h | showMode h | deselect h | toggleTokens h | toggleSql h | setMode h | unknownMode h
    | select h | invalidId h => subst h; simp

theorem isRejected_eq (line : Text) : isRejected line = (Instruction.ofLine line).isRefused := by
  rcases ofLine_cases line with ⟨hw, hi⟩ | ⟨word, hw, hasks⟩
  · rw [isRejected, hw, hi]; rfl
  · rw [isRejected, hw, Option.any_some]
    generalize Instruction.ofLine line = i at hasks
    generalize argument? line = arg at hasks
    cases hasks with
    | quit h => rcases h with rfl | rfl | rfl <;> rfl
    | help h | toggleTokens h | toggleSql h => subst h; rfl
    | showMode h ha | deselect h ha => subst h ha; rfl
    | setMode h ha hm => subst h ha; simp [hm, Except.isOk, Except.toBool, Instruction.isRefused]
    | unknownMode h ha he => subst h ha; simp [he, Except.isOk, Except.toBool, Instruction.isRefused]
    | select h ha hn hpos => subst h ha; simp [hn, hpos, Instruction.isRefused]
    | @invalidId a h ha hn =>
      subst h ha
      cases hr : Text.readHashed? a with
      | none => simp [hr, Instruction.isRefused]
      | some n => simp [hr, hn n hr, Instruction.isRefused]
    | unknown hcolon hword =>
      have hmode : word ≠ ":mode".toList := by rintro rfl; exact hword (by decide)
      have hselect : word ≠ ":select".toList := by rintro rfl; exact hword (by decide)
      rw [if_neg hmode, if_neg hselect, hcolon, List.contains_eq_mem, decide_eq_false hword]
      rfl
    | run hcolon =>
      have hmode : word ≠ ":mode".toList := by rintro rfl; exact hcolon rfl
      have hselect : word ≠ ":select".toList := by rintro rfl; exact hcolon rfl
      rw [if_neg hmode, if_neg hselect, beq_eq_false_iff_ne.mpr hcolon]
      rfl

/-! ## One line -/

/-- A command and a rejected instruction leave the shell as it is. -/
theorem next_of_isIdle (sh : Shell) {line : Text} (h : isIdle line = true) : sh.next line = sh := by
  rw [isIdle, Bool.or_eq_true, isCommand_iff, isRejected_eq] at h
  exact next_eq_self sh h

theorem Asks.toggles_iff {word : Text} {arg : Option Text} {i : Instruction} (h : Asks word arg i) :
    (i = .toggleTokens ↔ word = ":tokens".toList) ∧ (i = .toggleSql ↔ word = ":sql".toList) := by
  cases h with
  | quit h => rcases h with rfl | rfl | rfl <;> decide
  | help h | showMode h | deselect h | toggleSql h | toggleTokens h | setMode h | unknownMode h
  | select h | invalidId h => subst h; simp
  | unknown hcolon hword =>
    refine ⟨iff_of_false Instruction.noConfusion ?_, iff_of_false Instruction.noConfusion ?_⟩
    all_goals rintro rfl; exact hword (by decide)
  | run hcolon =>
    refine ⟨iff_of_false Instruction.noConfusion ?_, iff_of_false Instruction.noConfusion ?_⟩
    all_goals rintro rfl; exact hcolon rfl

theorem apply_flags (sh : Shell) (i : Instruction) :
    (sh.apply i).showTokens = (sh.showTokens ^^ decide (i = .toggleTokens)) ∧
      (sh.apply i).showSql = (sh.showSql ^^ decide (i = .toggleSql)) := by
  cases i <;> simp [apply]

/-- The two flags of a shell, each changed by its own word only. -/
theorem flags_next (sh : Shell) (line : Text) :
    (sh.next line).showTokens = (sh.showTokens ^^ beginsWith ":tokens".toList line) ∧
      (sh.next line).showSql = (sh.showSql ^^ beginsWith ":sql".toList line) := by
  rcases ofLine_cases line with ⟨hw, hi⟩ | ⟨word, hw, hasks⟩
  · simp [next, beginsWith, hw, hi, apply]
  · obtain ⟨htokens, hsql⟩ := hasks.toggles_iff
    have hb (w : Text) : beginsWith w line = decide (word = w) := by
      rw [beginsWith, hw, Option.some_beq_some, beq_eq_decide]
    rw [hb, hb, decide_eq_decide.mpr htokens.symm, decide_eq_decide.mpr hsql.symm]
    exact sh.apply_flags (.ofLine line)

theorem Asks.selects {word : Text} {arg : Option Text} {i : Instruction} (h : Asks word arg i)
    (sh : Shell) :
    if word = ":select".toList ∧ i.isRefused = false then (sh.apply i).selected ≠ some 0
    else (sh.apply i).selected = sh.selected := by
  cases h with
  | quit h => rcases h with rfl | rfl | rfl <;> simp [apply]
  | help h | showMode h | toggleTokens h | toggleSql h | setMode h | unknownMode h =>
    subst h; simp [apply]
  | deselect h => simp [h, apply, Instruction.isRefused]
  | select h ha hn hpos => simp [h, apply, Instruction.isRefused, Nat.pos_iff_ne_zero.mp hpos]
  | invalidId h => simp [apply, Instruction.isRefused]
  | unknown hcolon hword => simp [apply, Instruction.isRefused]
  | run hcolon =>
    have hselect : word ≠ ":select".toList := by rintro rfl; exact hcolon rfl
    rw [if_neg fun hs => hselect hs.1, apply]

/-- Only a line that selects changes what is selected, and it never selects the number 0. -/
theorem selected_next_eq_zero_iff (sh : Shell) (line : Text) :
    (sh.next line).selected = some 0 ↔ sh.selected = some 0 ∧ selects line = false := by
  rcases ofLine_cases line with ⟨hw, hi⟩ | ⟨word, hw, hasks⟩
  · simp [next, selects, beginsWith, hw, hi, apply]
  · have hselected := hasks.selects sh
    have hselects : selects line = true ↔
        word = ":select".toList ∧ (Instruction.ofLine line).isRefused = false := by
      rw [selects, isRejected_eq, beginsWith, hw, Bool.and_eq_true, Option.some_beq_some, beq_iff_eq,
        Bool.not_eq_true']
    by_cases hs : word = ":select".toList ∧ (Instruction.ofLine line).isRefused = false
    · rw [if_pos hs] at hselected
      exact iff_of_false hselected fun hzero => by rw [hselects.2 hs] at hzero; cases hzero.2
    · rw [if_neg hs] at hselected
      have hnot : selects line = false := Bool.eq_false_iff.2 fun h => hs (hselects.1 h)
      rw [next, hselected]
      exact (and_iff_left hnot).symm

/-! ## A script -/

/-- Lines that are for nothing but what they show may be left out. -/
theorem run_filter {keeps : Input → Bool} (hkeeps : ∀ i, keeps i = false → isIdle i.line = true)
    (script : List Input) (sh : Shell) :
    sh.run (script.filter keeps)
      = ((sh.run script).1.filter (fun o => keeps o.1), (sh.run script).2) := by
  induction script generalizing sh with
  | nil => rfl
  | cons i script ih =>
    cases hk : keeps i with
    | true => simp [run_cons, ih, hk]
    | false =>
      have hsame : sh.next i.line = sh := next_of_isIdle sh (hkeeps i hk)
      simp [run_cons, ih, hk, hsame]

/-- A flag that changes with the lines of one word says whether they were odd in number. -/
theorem flag_run {flag : Shell → Bool} {word : Text}
    (hstep : ∀ sh line, flag (sh.next line) = (flag sh ^^ beginsWith word line))
    (script : List Input) (sh : Shell) :
    flag (sh.run script).2
      = (flag sh ^^ decide (script.countP (fun i => beginsWith word i.line) % 2 = 1)) := by
  induction script generalizing sh with
  | nil => simp [run]
  | cons i script ih =>
    rw [run_cons, ih, hstep, Bool.xor_assoc, List.countP_cons]
    congr 1
    cases beginsWith word i.line with
    | false => simp
    | true =>
      rcases Nat.mod_two_eq_zero_or_one (script.countP fun i => beginsWith word i.line) with h | h
        <;> simp [Nat.add_mod, h]

theorem selected_run_eq_zero_iff (script : List Input) (sh : Shell) :
    (sh.run script).2.selected = some 0
      ↔ sh.selected = some 0 ∧ ∀ i ∈ script, selects i.line = false := by
  induction script generalizing sh with
  | nil => simp [run]
  | cons i script ih =>
    rw [run_cons, ih, selected_next_eq_zero_iff, List.forall_mem_cons, and_assoc]

/-- What a shell is left with by the lines of a script is the work of the instructions that it follows. -/
structure RunsByInstructions (config : Config) (script : List Input) : Prop where
  /-- A command and a rejected instruction change nothing, in whatever shell they are taken. -/
  idle : ∀ (sh : Shell) (now : Timestamp) (line : Text),
    isCommand line = true ∨ isRejected line = true → (sh.execute now line).2 = sh
  /-- Without them the other lines show the same, and leave the same shell. -/
  filter : (start config).run (script.filter fun i => !isIdle i.line)
    = (((start config).run script).1.filter (fun o => !isIdle o.1.line), ((start config).run script).2)
  tokens : ((start config).run script).2.showTokens
    = decide (script.countP (fun i => beginsWith ":tokens".toList i.line) % 2 = 1)
  sql : ((start config).run script).2.showSql
    = decide (script.countP (fun i => beginsWith ":sql".toList i.line) % 2 = 1)
  selected : ((start config).run script).2.selected = some 0
    ↔ config.selected = some 0 ∧ ∀ i ∈ script, selects i.line = false

theorem script_runs_by_instructions (config : Config) (script : List Input) :
    RunsByInstructions config script where
  idle sh _ line h := by
    have hidle : isIdle line = true := by rwa [isIdle, Bool.or_eq_true]
    exact next_of_isIdle sh hidle
  filter := run_filter (fun _ h => by simpa using h) script (start config)
  tokens := by
    rw [flag_run (fun sh line => (flags_next sh line).1) script (start config)]
    exact Bool.false_xor _
  sql := by
    rw [flag_run (fun sh line => (flags_next sh line).2) script (start config)]
    exact Bool.false_xor _
  selected := selected_run_eq_zero_iff script (start config)

end Agenda.Shell
