import Agenda.Field
import Agenda.Intent
import Agenda.Position
/-!
# Completion

The words that begin with what stands before the cursor. Places in a line are counted in bytes.
-/
namespace Agenda

/-- The words to choose from, and the byte at which the word that they replace starts. -/
structure Completion where
  start : Nat
  candidates : List Text
deriving DecidableEq, Repr

namespace Completion

def instructions : List Text :=
  [":mode".toList, ":select".toList, ":tokens".toList, ":sql".toList, ":help".toList,
   ":quit".toList]

def vocabulary : List Text :=
  Intent.all.flatMap Intent.verbs ++ instructions ++ Field.words.map (· ++ [':'])

/-- The byte after the first byte of the last blank, or the beginning. -/
def wordStart (before : Text) : Nat :=
  let ahead := Text.dropRightWhile (fun c => !Text.isBlank c) before
  if ahead = [] then 0 else Text.byteSize ahead.dropLast + 1

/-- The completion of the word before the byte `cursor`. There is none where the cursor, or the
start of the word, falls inside a character. -/
def ofCursor? (line : Text) (cursor : Nat) : Option Completion := do
  let (before, _) ← Text.splitAtByte? cursor line
  let start := wordStart before
  let (_, word) ← Text.splitAtByte? start before
  return ⟨start, if word = [] then [] else vocabulary.filter word.isPrefixOf⟩

end Completion

end Agenda
