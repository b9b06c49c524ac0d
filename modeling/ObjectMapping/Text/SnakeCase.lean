import ObjectMapping.Text.Cluster

/-!
# Snake case

A mixed-case name is cut into words, which are lowered and joined by underscores.  Words
are divided by underscores, hyphens and spaces, which are dropped, and at changes of kind:
from a lower-case letter to an upper-case one, between letters and digits, and before the
last capital of an acronym that a lower-case letter follows.  Two neighbouring separators
leave an empty word between them.
-/

namespace ObjectMapping

/-- What a cluster is to the division of a name into words. -/
inductive LetterKind where
  /-- An upper-case letter. -/
  | upper
  /-- A lower-case letter. -/
  | lower
  /-- An ASCII digit. -/
  | digit
  /-- An underscore, a hyphen or a space. -/
  | separator
  /-- Anything else. -/
  | other
deriving DecidableEq

/-- The kind of a cluster: its case is that of a text which differs from its other case. -/
def LetterKind.of (cluster : List Char) : LetterKind :=
  if cluster = ['_'] ∨ cluster = ['-'] ∨ cluster = [' '] then .separator
  else if cluster.all Char.isDigit then .digit
  else
    let up := upperCase cluster
    let low := lowerCase cluster
    if up = low then .other
    else if cluster = up then .upper
    else if cluster = low then .lower
    else .other

/-- Whether a word ends after a cluster of the first kind, given the two kinds that follow. -/
def endsWord : LetterKind → List LetterKind → Bool
  | .lower, .upper :: _ => true
  | .upper, .upper :: .lower :: _ => true
  | .lower, .digit :: _ | .upper, .digit :: _ => true
  | .digit, .lower :: _ | .digit, .upper :: _ => true
  | _, _ => false

/-- The words of a list of clusters with their kinds. -/
def wordsOf : List (LetterKind × List Char) → List (List Char)
  | [] => [[]]
  | (kind, cluster) :: rest =>
    if kind = .separator then [] :: wordsOf rest
    else if endsWord kind ((rest.take 2).map Prod.fst) then cluster :: wordsOf rest
    else
      match wordsOf rest with
      | [] => [cluster]
      | word :: words => (cluster ++ word) :: words

/-- The snake case of a name. -/
def snakeCase (name : String) : String :=
  let marked := (clusters name.toList).map fun cluster => (LetterKind.of cluster, cluster)
  String.intercalate "_" ((wordsOf marked).map fun word => String.ofList (lowerCase word))

end ObjectMapping
