import ObjectMapping.Toml.Number
import ObjectMapping.Toml.Text
import ObjectMapping.Toml.Value

/-!
# Configuration documents

A document is a list of lines: headers, which say what table the following lines belong to,
and keys with values.  `readDocument` gives the entries of the whole, or `none` if the
document is malformed, defines something twice, or is nested too deeply.
-/

namespace ObjectMapping.Toml

/-! ## Keys -/

/-- Whether a character may stand in a key without quotes. -/
def isKeyChar (c : Char) : Bool := c.isAlphanum || c = '_' || c = '-'

/-- Reads one part of a key. -/
def readKeyPart : List Char → Option (String × List Char)
  | '"' :: cs => (readBasic false false cs).map fun (key, rest) => (String.ofList key, rest)
  | '\'' :: cs => (readLiteral false cs).map fun (key, rest) => (String.ofList key, rest)
  | cs =>
    let key := cs.takeWhile isKeyChar
    if key.isEmpty then none else some (String.ofList key, cs.dropWhile isKeyChar)

/-- The most parts that a key may have, and the most arrays and tables in braces that may
enclose a value. -/
def depthLimit : Nat := 80

/-- Reads a key of at most so many parts, divided by dots; blanks after it are skipped. -/
def readKeyParts : Nat → List Char → Option (List String × List Char)
  | 0, _ => none
  | bound + 1, cs => do
    let (part, rest) ← readKeyPart (skipBlanks cs)
    match skipBlanks rest with
    | '.' :: rest => do
      let (parts, rest) ← readKeyParts bound rest
      some (part :: parts, rest)
    | rest => some ([part], rest)

/-- Reads a key; blanks after it are skipped. -/
def readKey (cs : List Char) : Option (List String × List Char) := readKeyParts depthLimit cs

/-! ## Values -/

/-- Whether a character may stand in a value without quotes: any but blanks, line ends and the
signs of the grammar. -/
def isTokenChar (c : Char) : Bool :=
  c ∉ [' ', '\t', '\n', '\r', '#', '=', ',', '[', ']', '{', '}']

/-- Whether a value without quotes goes on after the blanks here: neither a quoted text nor a
sign of the grammar comes next. -/
def goesOn (cs : List Char) : Bool :=
  (skipBlanks cs).head?.any fun c => isTokenChar c && c ≠ '"' && c ≠ '\''

/-- The longest piece without quotes; blanks between its parts belong to it. -/
def takeToken : List Char → List Char
  | [] => []
  | c :: cs =>
    if isTokenChar c || ((c = ' ' || c = '\t') && goesOn cs) then c :: takeToken cs else []

/-- Reads a value without quotes. -/
def readToken (cs : List Char) : Option (Value × List Char) :=
  let token := takeToken cs
  let rest := cs.drop token.length
  if token = "true".toList then some (.boolean true, rest)
  else if token = "false".toList then some (.boolean false, rest)
  else if isNumber token || isMoment token then some (.scalar (String.ofList token), rest)
  else none

/-- Skips what may stand around the sign between a key and its value: blanks, and in braces
line ends and comments too. -/
def skipAroundSign (braces : Bool) (cs : List Char) : Option (List Char) :=
  if braces then skipLines false cs else some (skipBlanks cs)

mutual

/-- Reads a value that may open `depth` more arrays and tables; the bound is on the length of
what is read. -/
def readValue : Nat → Nat → List Char → Option (Value × List Char)
  | 0, _, _ => none
  | bound + 1, depth, cs =>
    match readText? cs with
    | some text => text.map fun (text, rest) => (.text (String.ofList text), rest)
    | none =>
      match depth, cs with
      | 0, '[' :: _ | 0, '{' :: _ => none
      | depth + 1, '[' :: rest => do
        let (elements, rest) ← readElements bound depth rest
        some (.array elements, rest)
      | depth + 1, '{' :: rest => do
        let (entries, rest) ← readBraces bound depth [] rest
        some (.table .braces entries, rest)
      | _, cs => readToken cs

/-- Reads the elements of an array, and its end. -/
def readElements : Nat → Nat → List Char → Option (List Value × List Char)
  | 0, _, _ => none
  | bound + 1, depth, cs => do
    match ← skipLines false cs with
    | ']' :: rest => some ([], rest)
    | cs =>
      let (v, rest) ← readValue bound depth cs
      match ← skipLines false rest with
      | ',' :: rest => do
        let (vs, rest) ← readElements bound depth rest
        some (v :: vs, rest)
      | ']' :: rest => some ([v], rest)
      | _ => none

/-- Reads the entries of a table in braces, and its end. -/
def readBraces : Nat → Nat → Entries → List Char → Option (Entries × List Char)
  | 0, _, _, _ => none
  | bound + 1, depth, es, cs => do
    match ← skipLines false cs with
    | '}' :: rest => some (es, rest)
    | cs =>
      let (path, v, rest) ← readKeyValue bound depth true cs
      let es ← es.addAt? path v
      match ← skipLines false rest with
      | ',' :: rest => readBraces bound depth es rest
      | '}' :: rest => some (es, rest)
      | _ => none

/-- Reads a key and its value, on a line or in braces. -/
def readKeyValue : Nat → Nat → Bool → List Char → Option (List String × Value × List Char)
  | 0, _, _, _ => none
  | bound + 1, depth, braces, cs => do
    let (path, rest) ← readKey cs
    match ← skipAroundSign braces rest with
    | '=' :: rest => do
      let (v, rest) ← readValue bound depth (← skipAroundSign braces rest)
      some (path, v, rest)
    | _ => none

end

/-! ## Lines -/

/-- The entries of a document read so far, and the path of the last header. -/
structure Reading where
  entries : Entries := []
  header : List String := []

/-- Reads the key and the closing bracket of a header. -/
def readHeader (cs : List Char) : Option (List String × List Char) := do
  let (path, rest) ← readKey cs
  match rest with
  | ']' :: rest => some (path, rest)
  | _ => none

/-- Reads what one line says, up to a comment or the end of the line. -/
def readLine (reading : Reading) (cs : List Char) : Option (Reading × List Char) :=
  match cs with
  | '[' :: '[' :: cs => do
    let (path, rest) ← readHeader cs
    match rest with
    | ']' :: rest => some (⟨← reading.entries.openNextTable? path, path⟩, rest)
    | _ => none
  | '[' :: cs => do
    let (path, rest) ← readHeader cs
    some (⟨← reading.entries.openTable? path, path⟩, rest)
  | cs => do
    let (path, v, rest) ← readKeyValue (cs.length + 1) depthLimit false cs
    let entries ← Entries.changeAt? false (Entries.addAt? path v) reading.entries reading.header
    some ({ reading with entries }, rest)

/-- Reads at most so many lines. -/
def readLines : Nat → Reading → List Char → Option Entries
  | 0, _, _ => none
  | bound + 1, reading, cs => do
    match ← skipLines false cs with
    | [] => some reading.entries
    | cs =>
      let (reading, rest) ← readLine reading cs
      readLines bound reading (← skipLineEnd false rest)

/-- The entries of a document; a byte order mark at its start is skipped. -/
def readDocument (source : String) : Option Entries :=
  let cs := source.toList
  let cs := if cs.head? = some '\ufeff' then cs.drop 1 else cs
  readLines (cs.length + 1) {} cs

end ObjectMapping.Toml
