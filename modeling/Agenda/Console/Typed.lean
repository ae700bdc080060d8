import Agenda.Text.Byte
import Agenda.Text.Cluster
/-!
# Typed lines

What is left of a line when each backspace has taken back the cluster before it. The size of a
cluster is remembered in one byte: of a cluster of 256 bytes or more only the remainder is taken
back, and if that ends inside a character the line cannot be read.
-/
namespace Agenda.Console

def backspace : Char := '\x08'

structure Draft where
  /-- What is left of it, backwards. -/
  text : Text
  /-- The sizes of its clusters in bytes, latest first. -/
  sizes : List UInt8
deriving DecidableEq, Repr

namespace Draft

def empty : Draft := ⟨[], []⟩

def add (d : Draft) (cluster : Text) : Draft :=
  ⟨cluster.reverse ++ d.text, UInt8.ofNat cluster.byteSize :: d.sizes⟩

/-- Takes back as many bytes as the latest cluster has by its size. Where nothing is left there is
nothing to take back. -/
def takeBack? (d : Draft) : Option Draft :=
  match d.sizes with
  | [] => some d
  | n :: sizes => (Text.splitAtByte? n.toNat d.text).map fun (_, text) => ⟨text, sizes⟩

def type? (d : Draft) (cluster : Text) : Option Draft :=
  if cluster = [backspace] then d.takeBack? else some (d.add cluster)

end Draft

def typed? (line : Text) : Option Text :=
  ((Text.clusters line).foldlM Draft.type? .empty).map fun d => d.text.reverse

end Agenda.Console
