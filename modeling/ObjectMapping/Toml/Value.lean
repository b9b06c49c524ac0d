/-!
# Configuration values

The values of a TOML document.  Tables remember how they were written, because that decides
whether later lines may add to them: a table in braces is closed, a table with a header is
open to its own lines only, a table that a dotted key passed through is open to dotted keys,
and a table that only headers passed through may still be opened.
-/

namespace ObjectMapping.Toml

/-- How a table was written. -/
inductive TableOrigin where
  /-- Passed through by a header. -/
  | implicit
  /-- Passed through by a dotted key. -/
  | dotted
  /-- Opened by a header. -/
  | header
  /-- In braces. -/
  | braces
deriving DecidableEq, Inhabited, Repr

/-- A value of a document. -/
inductive Value where
  | text (value : String)
  | boolean (value : Bool)
  /-- A number or a date. -/
  | scalar (token : String)
  | array (elements : List Value)
  /-- Tables written under repeated headers. -/
  | tables (elements : List (List (String × Value)))
  | table (origin : TableOrigin) (entries : List (String × Value))
deriving Inhabited

/-- The entries of a table. -/
abbrev Entries := List (String × Value)

namespace Entries

/-- Replaces the value of a key. -/
def replace (es : Entries) (key : String) (v : Value) : Entries :=
  es.map fun e => if e.1 = key then (key, v) else e

/-- Adds a value under a fresh key. -/
def add? (key : String) (v : Value) (es : Entries) : Option Entries :=
  match es.lookup key with
  | some _ => none
  | none => some (es ++ [(key, v)])

/-- Changes the table that a path leads to; tables on the way are created.  The path is that
of a header, or of a dotted key, which may not enter tables that have a header, and after which
the tables on the way may have none; it may pass through the last of several tables under
repeated headers, but not end there. -/
def changeAt? (dotted : Bool) (change : Entries → Option Entries) (es : Entries) :
    List String → Option Entries
  | [] => change es
  | key :: path =>
    match es.lookup key with
    | none => do
      let inner ← changeAt? dotted change [] path
      some (es ++ [(key, .table (if dotted then .dotted else .implicit) inner)])
    | some (.table origin inner) =>
      if origin = .braces ∨ (dotted ∧ origin = .header) then none
      else do
        let inner ← changeAt? dotted change inner path
        some (replace es key (.table (if dotted then .dotted else origin) inner))
    | some (.tables elements) =>
      if dotted && path.isEmpty then none
      else
        match elements.getLast? with
        | none => none
        | some inner => do
          let inner ← changeAt? dotted change inner path
          some (replace es key (.tables (elements.dropLast ++ [inner])))
    | some _ => none

/-- Adds a value under a dotted key. -/
def addAt? (path : List String) (v : Value) (es : Entries) : Option Entries :=
  match path.getLast? with
  | none => none
  | some key => changeAt? true (add? key v) es path.dropLast

/-- Opens the table of a header. -/
def openTable? (path : List String) (es : Entries) : Option Entries :=
  match path.getLast? with
  | none => none
  | some key =>
    let opened (es : Entries) : Option Entries :=
      match es.lookup key with
      | none => some (es ++ [(key, .table .header [])])
      | some (.table .implicit inner) => some (replace es key (.table .header inner))
      | some _ => none
    changeAt? false opened es path.dropLast

/-- Opens one more table of a repeated header. -/
def openNextTable? (path : List String) (es : Entries) : Option Entries :=
  match path.getLast? with
  | none => none
  | some key =>
    let opened (es : Entries) : Option Entries :=
      match es.lookup key with
      | none => some (es ++ [(key, .tables [[]])])
      | some (.tables elements) => some (replace es key (.tables (elements ++ [[]])))
      | some _ => none
    changeAt? false opened es path.dropLast

end Entries

end ObjectMapping.Toml
