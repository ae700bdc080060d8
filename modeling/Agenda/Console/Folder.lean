import Agenda.Config
import Agenda.Text.Byte
/-!
# A folder of files

The folder in which the program runs, when there is nothing in it but files. A relative path leads
to a file if all its parts before the last stay in the folder. Files can be written here and in the
folders above. Of all absolute paths only that of the null device leads anywhere, and a path that
is too long leads nowhere.
-/
namespace Agenda.Console

structure Folder where
  files : List (Text × ByteArray)

namespace Folder

/-- A part of a path that leads nowhere else. -/
def isStay (part : Text) : Bool := part == [] || part == ['.']

/-- A part of a path that leads to a folder. -/
def isFolder (part : Text) : Bool := isStay part || part == ['.', '.']

/-- The path of the file that is always empty. -/
def nullDevice : Text := "/dev/null".toList

/-- The longest name of a file, in bytes. -/
def maxNameSize : Nat := 255

/-- The longest path, in bytes. -/
def maxPathSize : Nat := 4095

/-- The name at the end of a relative path whose parts before it satisfy `passes`. -/
def lastName? (passes : Text → Bool) (path : Text) : Option Text :=
  let parts := Text.pieces '/' path
  if path.head? = some '/' ∨ path.contains '\x00' ∨ ¬ parts.dropLast.all passes then none
  else parts.getLast?.filter fun name => !isFolder name

/-- The name of the file to which a path leads in a folder without folders. -/
def fileName? (path : Text) : Option Text := lastName? isStay path

/-- A file can be written where a path leads to a name in this folder or in one above. -/
def canWrite (path : Text) : Bool :=
  path == nullDevice ||
    (Text.byteSize path ≤ maxPathSize &&
      (lastName? isFolder path).any fun name => Text.byteSize name ≤ maxNameSize)

def read (folder : Folder) (path : Text) : FileState :=
  if Text.byteSize path > maxPathSize then .missing
  else if path = nullDevice then .bytes .empty
  else match fileName? path with
    | some name => ((folder.files.lookup name).map .bytes).getD .missing
    | none =>
      if path ≠ [] ∧ (Text.pieces '/' path).all isFolder then .unreadable else .missing

end Folder

end Agenda.Console
