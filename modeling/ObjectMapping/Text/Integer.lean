import ObjectMapping.Text.Blank

/-!
# Integers in attributes

A number is an optional sign and one or more ASCII digits, after trimming, within a range.
-/

namespace ObjectMapping

/-- The value of a list of ASCII digits, least significant last. -/
def digitsValue (cs : List Char) : Option Nat :=
  if cs ≠ [] ∧ cs.all Char.isDigit then
    some (cs.foldl (fun n c => 10 * n + (c.toNat - '0'.toNat)) 0)
  else none

/-- Two to the power of 32, the end of the range of unsigned numbers. -/
def unsignedEnd : Nat := 4294967296

/-- Two to the power of 31, the end of the range of signed numbers. -/
def signedEnd : Int := 2147483648

/-- Reads an unsigned number below `unsignedEnd`; a leading plus is allowed. -/
def readUnsigned32 (s : String) : Option Nat := do
  let n ← match trimChars s.toList with
    | '+' :: cs => digitsValue cs
    | cs => digitsValue cs
  if n < unsignedEnd then some n else none

/-- Reads a signed number from `-signedEnd` up to below `signedEnd`; a leading sign is allowed. -/
def readSigned32 (s : String) : Option Int := do
  let n ← match trimChars s.toList with
    | '+' :: cs => (digitsValue cs).map Int.ofNat
    | '-' :: cs => (digitsValue cs).map fun n => -Int.ofNat n
    | cs => (digitsValue cs).map Int.ofNat
  if -signedEnd ≤ n ∧ n < signedEnd then some n else none

end ObjectMapping
