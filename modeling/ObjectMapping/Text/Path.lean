/-!
# Dotted paths

Class names, roles and property paths are texts divided by dots.  They are cut either at
the first dot (a property path is followed from its head) or at the last (a qualified name
ends in its unqualified name).
-/

namespace ObjectMapping

/-- The parts before and after the last dot. -/
def splitLastDot (s : String) : Option (String × String) :=
  let cs := s.toList.reverse
  if '.' ∈ cs then
    some (String.ofList ((cs.dropWhile (· != '.')).drop 1).reverse,
      String.ofList (cs.takeWhile (· != '.')).reverse)
  else none

/-- The texts between the dots of a list of characters: the first, and those after it. -/
def dotSteps : List Char → List Char × List (List Char)
  | [] => ([], [])
  | c :: cs =>
    if c = '.' then ([], (dotSteps cs).1 :: (dotSteps cs).2)
    else (c :: (dotSteps cs).1, (dotSteps cs).2)

/-- The steps of a property path: its head, and the names below it. -/
def pathSteps (path : String) : String × List String :=
  let steps := dotSteps path.toList
  (String.ofList steps.1, steps.2.map String.ofList)

/-- The text after the last dot, or all of it. -/
def unqualify (name : String) : String :=
  match splitLastDot name with
  | some (_, tail) => tail
  | none => name

/-- The text before the last dot, or nothing. -/
def qualifier (name : String) : String :=
  match splitLastDot name with
  | some (head, _) => head
  | none => ""

/-- A name below a qualifier. -/
def qualify (outer name : String) : String := outer ++ "." ++ name

/-- What follows a given beginning of a text. -/
def stripPrefix? (beginning s : String) : Option String :=
  if beginning.toList.isPrefixOf s.toList then
    some (String.ofList (s.toList.drop beginning.length))
  else none

/-- Whether a text holds a dot. -/
def isDotted (s : String) : Bool := s.toList.any (· == '.')

end ObjectMapping
