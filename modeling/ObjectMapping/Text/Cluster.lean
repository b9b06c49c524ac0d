import ObjectMapping.Text.ClusterClass

/-!
# Character clusters

A reader takes a letter and the marks on it for one character.  `clusters` cuts a text into
the extended grapheme clusters of Unicode: line ends and controls stand alone, Hangul letters
form syllables, marks join what precedes them, prepended marks join what follows, a linker
joins two consonants to a conjunct, a joiner ties pictographs together, and regional
indicators make flags two by two.  Every rule looks back no further than the cluster that is
still open.
-/

namespace ObjectMapping

open ClusterClass

/-- Whether a character links consonants. -/
def isLinker (c : Char) : Bool := inRanges linkerRanges c.toNat

/-- The zero-width non-joiner, the one mark that keeps consonants apart. -/
def nonJoiner : Char := '\u200c'

/-- Whether a character may stand between the consonants of a conjunct. -/
def inConjunct (c : Char) : Bool :=
  (ClusterClass.of c = .extend || ClusterClass.of c = .joiner) && c ≠ nonJoiner

/-- Whether these characters, last to first, end in a consonant and marks that link it to
the next one. -/
def endsLinked (before : List Char) : Bool :=
  (before.takeWhile inConjunct).any isLinker
    && (before.dropWhile inConjunct).head?.any fun c => ClusterClass.of c = .conjunctConsonant

/-- Whether these characters, last to first, end in a pictograph and marks on it. -/
def endsPictograph (before : List Char) : Bool :=
  (before.dropWhile fun c => ClusterClass.of c = .extend).head?.any fun c =>
    ClusterClass.of c = .pictograph

/-- Whether these characters, last to first, end in a regional indicator that has no
partner. -/
def endsHalfFlag (before : List Char) : Bool :=
  (before.takeWhile fun c => ClusterClass.of c = .regionalIndicator).length % 2 = 1

/-- Whether a character joins the open cluster, which is given last to first. -/
def joins (before : List Char) (next : Char) : Bool :=
  match before with
  | [] => true
  | last :: earlier =>
    match ClusterClass.of last, ClusterClass.of next with
    | .carriageReturn, .lineFeed => true
    | l, n =>
      if l.standsAlone || n.standsAlone then false
      else if formSyllable l n then true
      else
        match l, n with
        | _, .extend | _, .joiner | _, .spacingMark | .prepended, _ => true
        | _, .conjunctConsonant => endsLinked before
        | .joiner, .pictograph => endsPictograph earlier
        | .regionalIndicator, .regionalIndicator => endsHalfFlag before
        | _, _ => false

/-- The clusters of the characters that follow an open cluster, given last to first. -/
def clustersAfter (current : List Char) : List Char → List (List Char)
  | [] => if current.isEmpty then [] else [current.reverse]
  | c :: cs =>
    if joins current c then clustersAfter (c :: current) cs
    else current.reverse :: clustersAfter [c] cs

/-- The clusters of a text. -/
def clusters (cs : List Char) : List (List Char) := clustersAfter [] cs

end ObjectMapping
