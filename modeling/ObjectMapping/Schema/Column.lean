/-!
# Columns

A column as a value carries it and a table holds it.  A name in backticks is quoted.
-/

namespace ObjectMapping

/-- A column of a table. -/
structure Column where
  name : String
  quoted : Bool := false
  nullable : Bool := true
  unique : Bool := false
  length : Option Nat := none
  precision : Option Nat := none
  scale : Option Nat := none
  check : Option String := none
  defaultValue : Option String := none
  sqlType : Option String := none
  comment : Option String := none
  /-- The position among the columns of one value. -/
  typeIndex : Nat := 0
deriving DecidableEq, Inhabited

namespace Column

/-- The nullable column of a written name: a leading backtick marks it as quoted and is
dropped, along with every backtick at the end. -/
def ofName (raw : String) : Column :=
  match raw.toList with
  | '`' :: cs => { name := String.ofList (cs.reverse.dropWhile (· = '`')).reverse, quoted := true }
  | _ => { name := raw }

end Column

/-- A column or a formula carried by a value. -/
inductive Selectable where
  | column (column : Column)
  | formula (sql : String)
deriving DecidableEq, Inhabited

namespace Selectable

/-- The column, if it is one. -/
def column? : Selectable → Option Column
  | column c => some c
  | formula _ => none

/-- Whether it is a formula. -/
def isFormula : Selectable → Bool
  | column _ => false
  | formula _ => true

/-- A selectable whose column, if it is one, has a given nullability. -/
def withNullable (nullable : Bool) : Selectable → Selectable
  | column c => column { c with nullable }
  | formula sql => formula sql

end Selectable

end ObjectMapping
