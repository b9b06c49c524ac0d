/-!
# Texts of a configuration document

Quoted texts in their four forms, and the blanks and comments between values.  Each reader
takes what follows the opening quotes and returns the text with what follows the closing
ones.
-/

namespace ObjectMapping.Toml

/-- Whether a character may not stand in a text or comment. -/
def isForbidden (c : Char) : Bool := (c.toNat < 0x20 && c ≠ '\t') || c.toNat = 0x7F

/-- Skips blanks, line ends and comments; `none` if there is a stray control character. -/
def skipLines (inComment : Bool) : List Char → Option (List Char)
  | [] => some []
  | c :: cs =>
    if c = '\n' then skipLines false cs
    else if c = '\r' then
      if cs.head? = some '\n' then skipLines false cs else none
    else if inComment then
      if isForbidden c then none else skipLines true cs
    else if c = ' ' || c = '\t' then skipLines false cs
    else if c = '#' then skipLines true cs
    else some (c :: cs)

/-- Skips spaces and tabs. -/
def skipBlanks (cs : List Char) : List Char := cs.dropWhile fun c => c = ' ' || c = '\t'

/-- Skips the rest of a line that holds nothing more than a comment. -/
def skipLineEnd (inComment : Bool) : List Char → Option (List Char)
  | [] => some []
  | c :: cs =>
    if c = '\n' then some cs
    else if c = '\r' then
      if cs.head? = some '\n' then some cs.tail else none
    else if inComment then
      if isForbidden c then none else skipLineEnd true cs
    else if c = ' ' || c = '\t' then skipLineEnd false cs
    else if c = '#' then skipLineEnd true cs
    else none

/-- The value of a hexadecimal digit. -/
def hexValue (c : Char) : Option Nat :=
  if c.isDigit then some (c.toNat - '0'.toNat)
  else if 'a' ≤ c ∧ c ≤ 'f' then some (c.toNat - 'a'.toNat + 10)
  else if 'A' ≤ c ∧ c ≤ 'F' then some (c.toNat - 'A'.toNat + 10)
  else none

/-- The character of some hexadecimal digits. -/
def hexChar (digits : List Char) : Option Char := do
  let n ← digits.foldlM (fun n c => (hexValue c).map (16 * n + ·)) 0
  if n.isValidChar then some (Char.ofNat n) else none

/-- The characters that a backslash and a letter stand for. -/
def simpleEscape (c : Char) : Option Char :=
  match c with
  | 'b' => some '\x08'
  | 't' => some '\t'
  | 'n' => some '\n'
  | 'f' => some '\x0c'
  | 'r' => some '\r'
  | 'e' => some '\x1b'
  | '"' => some '"'
  | '\\' => some '\\'
  | _ => none

/-- Puts a character before a text that was read. -/
def prepend (c : Char) (read : Option (List Char × List Char)) :
    Option (List Char × List Char) :=
  read.map fun (text, rest) => (c :: text, rest)

/-- Closes a text of several lines at a run of quotes that starts here, if it is long enough:
up to two quotes before the closing three belong to the text. -/
def closeLines? (quote : Char) (cs : List Char) : Option (List Char × List Char) :=
  let run := min 5 (cs.takeWhile (· = quote)).length
  if run < 3 then none else some (List.replicate (run - 3) quote, cs.drop run)

/-- Whether a backslash before these characters ends its line. -/
def endsLine (cs : List Char) : Bool :=
  match skipBlanks cs with
  | '\n' :: _ => true
  | '\r' :: '\n' :: _ => true
  | _ => false

/-- Reads a text with escapes.  With `lines` it may span lines; while `skipping`, blanks and
line ends are passed over. -/
def readBasic (lines skipping : Bool) : List Char → Option (List Char × List Char)
  | [] => none
  | '\\' :: 'u' :: a :: b :: c :: d :: cs => do
    prepend (← hexChar [a, b, c, d]) (readBasic lines false cs)
  | '\\' :: 'U' :: a :: b :: c :: d :: e :: f :: g :: h :: cs => do
    prepend (← hexChar [a, b, c, d, e, f, g, h]) (readBasic lines false cs)
  | '\\' :: 'x' :: a :: b :: cs => do
    prepend (← hexChar [a, b]) (readBasic lines false cs)
  | '\\' :: c :: cs =>
    match simpleEscape c with
    | some c => prepend c (readBasic lines false cs)
    | none => if lines && endsLine (c :: cs) then readBasic lines true (c :: cs) else none
  | c :: cs =>
    if c = '"' then
      if lines then (closeLines? '"' (c :: cs)).or (prepend c (readBasic lines false cs))
      else some ([], cs)
    else if c = '\n' || (c = '\r' && cs.head? = some '\n') then
      if !lines then none
      else if skipping then readBasic lines true cs
      else prepend c (readBasic lines false cs)
    else if isForbidden c then none
    else if skipping && (c = ' ' || c = '\t') then readBasic lines true cs
    else prepend c (readBasic lines false cs)

/-- Reads a text without escapes.  With `lines` it may span lines. -/
def readLiteral (lines : Bool) : List Char → Option (List Char × List Char)
  | [] => none
  | c :: cs =>
    if c = '\'' then
      if lines then (closeLines? '\'' (c :: cs)).or (prepend c (readLiteral lines cs))
      else some ([], cs)
    else if c = '\n' || (c = '\r' && cs.head? = some '\n') then
      if lines then prepend c (readLiteral lines cs) else none
    else if isForbidden c then none
    else prepend c (readLiteral lines cs)

/-- Drops a line end right after opening quotes. -/
def dropFirstLineEnd : List Char → List Char
  | '\n' :: cs => cs
  | '\r' :: '\n' :: cs => cs
  | cs => cs

/-- Reads a quoted text of any form, and says whether there is one. -/
def readText? : List Char → Option (Option (List Char × List Char))
  | '"' :: '"' :: '"' :: cs => some (readBasic true false (dropFirstLineEnd cs))
  | '\'' :: '\'' :: '\'' :: cs => some (readLiteral true (dropFirstLineEnd cs))
  | '"' :: cs => some (readBasic false false cs)
  | '\'' :: cs => some (readLiteral false cs)
  | _ => none

end ObjectMapping.Toml
