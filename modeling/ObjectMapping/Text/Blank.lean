/-!
# Blanks

Blank characters are those with the Unicode property `White_Space`.  Texts are trimmed of
them, and lists written in one attribute are split at separators into their non-empty
pieces.
-/

namespace ObjectMapping

/-- Whether a character has the property `White_Space`. -/
def isBlank (c : Char) : Bool :=
  let n := c.toNat
  (9 ≤ n && n ≤ 13) || n = 0x20 || n = 0x85 || n = 0xA0 || n = 0x1680
    || (0x2000 ≤ n && n ≤ 0x200A) || n = 0x2028 || n = 0x2029 || n = 0x202F || n = 0x205F
    || n = 0x3000

/-- The characters without the blanks at both ends. -/
def trimChars (cs : List Char) : List Char :=
  ((cs.dropWhile isBlank).reverse.dropWhile isBlank).reverse

/-- A text without the blanks at both ends. -/
def trim (s : String) : String := String.ofList (trimChars s.toList)

/-- The non-empty pieces between the characters that pass a test. -/
def pieces (isSeparator : Char → Bool) : List Char → List (List Char)
  | [] => []
  | c :: cs =>
    if isSeparator c then pieces isSeparator cs
    else match cs with
      | [] => [[c]]
      | d :: _ =>
        if isSeparator d then [c] :: pieces isSeparator cs
        else match pieces isSeparator cs with
          | [] => [[c]]
          | w :: ws => (c :: w) :: ws

/-- The non-empty pieces of a text between the characters that pass a test. -/
def splitPieces (isSeparator : Char → Bool) (s : String) : List String :=
  (pieces isSeparator s.toList).map String.ofList

end ObjectMapping
