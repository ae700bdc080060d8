import Agenda.Text.ClusterClass
/-!
# Clusters

A cluster is what a reader takes for one character: a letter with its marks, a syllable, a flag, a
picture put together of pictures. These are the extended grapheme clusters of Unicode.
-/
namespace Agenda.Text

open ClusterClass (ofChar)

/-- Neighbours in a Hangul syllable: leading consonants, then vowels, then trailing consonants. -/
def inSyllable : ClusterClass → ClusterClass → Bool
  | .leadingJamo, .leadingJamo => true
  | .leadingJamo, .vowelJamo => true
  | .leadingJamo, .openSyllable => true
  | .leadingJamo, .closedSyllable => true
  | .openSyllable, .vowelJamo => true
  | .openSyllable, .trailingJamo => true
  | .vowelJamo, .vowelJamo => true
  | .vowelJamo, .trailingJamo => true
  | .closedSyllable, .trailingJamo => true
  | .trailingJamo, .trailingJamo => true
  | _, _ => false

/-- A sign that may stand between the consonants of a conjunct: any mark but the zero-width
non-joiner, and the joiner. -/
def isConjunctSign (c : Char) : Bool :=
  (ofChar c == .extend && c != '\u200c') || ofChar c == .joiner

/-- A text, read backwards, ends in a consonant that a sign links to the next one. -/
def endsInLinked (s : Text) : Bool :=
  (s.takeWhile isConjunctSign).any (fun c => inRanges linkerRanges c.toNat) &&
    (s.dropWhile isConjunctSign).head?.map ofChar == some .consonant

/-- A text, read backwards, ends in a pictograph and its marks. -/
def endsInPictograph (s : Text) : Bool :=
  (s.dropWhile (ofChar · == .extend)).head?.map ofChar == some .pictograph

/-- A text, read backwards, ends in half of a flag. -/
def endsInHalfFlag (s : Text) : Bool :=
  (s.takeWhile (ofChar · == .regionalIndicator)).length % 2 == 1

/-- Whether the character `c` goes on with the cluster of which `cluster`, backwards, has been
read. -/
def joins (cluster : Text) (c : Char) : Bool :=
  match cluster with
  | [] => false
  | p :: earlier =>
    match ofChar p, ofChar c with
    | .carriageReturn, k => k == .lineFeed
    | .lineFeed, _ => false
    | .control, _ => false
    | _, .carriageReturn => false
    | _, .lineFeed => false
    | _, .control => false
    | _, .extend => true
    | _, .joiner => true
    | _, .spacingMark => true
    | .prepend, _ => true
    | _, .consonant => endsInLinked cluster
    | .joiner, .pictograph => endsInPictograph earlier
    | .regionalIndicator, .regionalIndicator => endsInHalfFlag cluster
    | k, l => inSyllable k l

/-- Cuts a text, of whose first cluster `cluster` (backwards) has been read already. -/
def clustersFrom (cluster : Text) : Text → List Text
  | [] => if cluster = [] then [] else [cluster.reverse]
  | c :: r =>
    if cluster = [] ∨ joins cluster c then clustersFrom (c :: cluster) r
    else cluster.reverse :: clustersFrom [c] r

def clusters (s : Text) : List Text := clustersFrom [] s

end Agenda.Text
