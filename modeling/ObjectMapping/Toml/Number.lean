import ObjectMapping.Toml.Moment

/-!
# Numbers in a configuration

A number is kept as it is written, and its value is never asked for: reading tells only
whether it looks like one.  Underscores may stand between digits.  A number without a base may
be signed and does not start with a superfluous zero; a base is told by a lower-case letter.
A decimal fraction or an exponent makes it a floating-point number, and that is checked to its
end, as the digits of a base are; of other numbers with underscores only the start and the
neighbours of the underscores matter.
-/

namespace ObjectMapping.Toml

/-- Whether a character is a hexadecimal digit. -/
def isHexDigit (c : Char) : Bool :=
  c.isDigit || ('a' ≤ c && c ≤ 'f') || ('A' ≤ c && c ≤ 'F')

/-- Whether each underscore stands between two digits; `afterDigit` tells whether a digit comes
before these characters. -/
def underscoresJoin (isDigit : Char → Bool) (afterDigit : Bool) : List Char → Bool
  | [] => true
  | c :: cs =>
    (c ≠ '_' || (afterDigit && cs.head?.any isDigit)) && underscoresJoin isDigit (isDigit c) cs

/-- A number without its sign. -/
def dropSign : List Char → List Char
  | '+' :: cs | '-' :: cs => cs
  | cs => cs

/-- The digits of a base, told by the letter after the leading zero. -/
def digitsOfBase? (letter : Char) : Option (Char → Bool) :=
  match letter with
  | 'x' => some isHexDigit
  | 'o' => some fun c => '0' ≤ c && c ≤ '7'
  | 'b' => some fun c => c = '0' || c = '1'
  | _ => none

/-- Reads digits and underscores among them.  Unless `zeros` allows it, several digits do not
start with a zero. -/
def readUnsigned (zeros : Bool) (cs : List Char) : Option (List Char) :=
  let run := cs.takeWhile fun c => c.isDigit || c = '_'
  let digits := (run.filter Char.isDigit).length
  if digits = 0 then none
  else if !zeros && digits ≠ 1 && cs.head? = some '0' then none
  else some (cs.dropWhile fun c => c.isDigit || c = '_')

/-- Reads a fraction, if there is one. -/
def readFraction (cs : List Char) : Option (List Char) :=
  match readMark '.' cs with
  | none => some cs
  | some cs => readUnsigned true cs

/-- Reads an exponent, if there is one. -/
def readExponent (cs : List Char) : Option (List Char) :=
  match cs with
  | 'e' :: cs | 'E' :: cs => readUnsigned true (dropSign cs)
  | cs => some cs

/-- Whether these characters, which have no sign, are written as a floating-point number. -/
def isFloating (cs : List Char) : Bool :=
  (do readExponent (← readFraction (← readUnsigned false cs))) = some []

/-- Whether these characters are a number without a base.  A whole number with underscores
starts with digits and holds no space; the rest of it is checked around the underscores only,
where hexadecimal digits may stand too. -/
def isDecimal (cs : List Char) : Bool :=
  let unsigned := dropSign cs
  match unsigned.dropWhile Char.isDigit with
  | [] => unsigned.length = 1 || (unsigned ≠ [] && unsigned.head? ≠ some '0')
  | c :: rest =>
    if (c :: rest).any fun d => d = '.' || d = 'e' || d = 'E' then
      underscoresJoin Char.isDigit false cs && isFloating unsigned
    else
      c = '_' && underscoresJoin isHexDigit false cs && unsigned.head? ≠ some '0'
        && !rest.contains ' '

/-- Whether these characters are digits of a base, if any, with underscores only between
them. -/
def areDigits (isDigit : Char → Bool) (cs : List Char) : Bool :=
  cs.all (fun c => isDigit c || c = '_') && underscoresJoin isDigit false cs

/-- Whether these characters are a number. -/
def isNumber (cs : List Char) : Bool :=
  let unsigned := dropSign cs
  if unsigned = "inf".toList || unsigned = "nan".toList then true
  else
    match cs with
    | '0' :: letter :: digits =>
      match digitsOfBase? letter with
      | some isDigit => areDigits isDigit digits
      | none => isDecimal cs
    | _ => isDecimal cs

end ObjectMapping.Toml
