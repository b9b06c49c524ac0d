import ObjectMapping.Data.KeyedList
import ObjectMapping.Hash.XXH3
import ObjectMapping.Schema.Column

/-!
# Tables

A table holds columns, keys, indexes and constraints by name.  Constraints that are not
named in the mapping get a name made from a hash of the table and the columns, so that the
same constraint always has the same name.
-/

namespace ObjectMapping

/-- The position of a table in its registry. -/
structure TableId where
  index : Nat
deriving DecidableEq, Inhabited, Repr

/-- The identity of a table. -/
structure TableKey where
  schema : Option String := none
  catalog : Option String := none
  name : String
deriving DecidableEq, Inhabited

/-- The dotted form of a table key: catalog, schema and name. -/
def TableKey.display (k : TableKey) : String :=
  (k.catalog.map (· ++ ".")).getD "" ++ (k.schema.map (· ++ ".")).getD "" ++ k.name

/-- Sixteen upper-case hexadecimal digits. -/
def hexDigits16 (n : UInt64) : String :=
  let digits := (Nat.toDigits 16 n.toNat).map Char.toUpper
  String.ofList (List.replicate (16 - digits.length) '0' ++ digits)

/-- The bytes that name a constraint: the table, and each column after a unit separator. -/
def constraintBytes (table : String) (columns : List String) : List UInt8 :=
  (columns.foldl (fun text column => text ++ "\u001f" ++ column) table).toUTF8.toList

/-- The generated name of a constraint. -/
def constraintName (kind table : String) (columns : List String) : String :=
  kind ++ hexDigits16 (XXH3.hash (constraintBytes table columns))

/-- A named set of columns whose values do not repeat. -/
structure UniqueKey where
  name : String
  columns : List String := []
deriving DecidableEq, Inhabited

/-- A unique key with one more column, unless it has it. -/
def UniqueKey.addColumn (k : UniqueKey) (column : String) : UniqueKey :=
  if column ∈ k.columns then k else { k with columns := k.columns ++ [column] }

/-- A named index. -/
structure Index where
  name : String
  columns : List String := []
deriving DecidableEq, Inhabited

/-- An index with one more column, unless it has it. -/
def Index.addColumn (i : Index) (column : String) : Index :=
  if column ∈ i.columns then i else { i with columns := i.columns ++ [column] }

/-- A foreign key.  Without referenced columns it references the primary key. -/
structure ForeignKey where
  name : String
  columns : List String
  referencedEntity : String
  referencedColumns : List String := []
  cascadeDelete : Bool := false
deriving DecidableEq, Inhabited

/-- A table, or a query that stands for one. -/
structure Table where
  key : TableKey
  subselect : Option String := none
  isAbstract : Bool := false
  comment : Option String := none
  rowId : Option String := none
  columns : KeyedList String Column := .empty
  /-- The columns of the primary key. -/
  primaryKey : Option (List String) := none
  uniqueKeys : KeyedList String UniqueKey := .empty
  indexes : KeyedList String Index := .empty
  foreignKeys : KeyedList String ForeignKey := .empty
  checks : List String := []
  /-- The table whose columns this one repeats. -/
  denormalizedParent : Option TableId := none
deriving Inhabited

namespace Table

/-- The name of a table. -/
def name (t : Table) : String := t.key.name

/-- Whether the table is a query. -/
def isSubselect (t : Table) : Bool := t.subselect.isSome

/-- The column of a name. -/
def column? (t : Table) (name : String) : Option Column := t.columns.get? name

/-- Adds a column, unless there is one of its name. -/
def addColumn (t : Table) (c : Column) : Table :=
  { t with columns := t.columns.insertIfNew c.name c }

/-- Adds a column, in place of one of its name. -/
def putColumn (t : Table) (c : Column) : Table :=
  { t with columns := t.columns.insert c.name c }

/-- Makes columns non-nullable. -/
def requireColumns (t : Table) (names : List String) : Table :=
  let require (columns : KeyedList String Column) (name : String) :=
    columns.modify name fun c => { c with nullable := false }
  { t with columns := names.foldl require t.columns }

/-- Adds columns to the unique key of a name, which is created if need be. -/
def addToUniqueKey (t : Table) (name : String) (columns : List String) : Table :=
  let uniqueKeys := t.uniqueKeys.insertIfNew name { name := name }
  { t with uniqueKeys := uniqueKeys.modify name fun k => columns.foldl UniqueKey.addColumn k }

/-- Changes the index of a name, which is created if need be. -/
def changeIndex (t : Table) (name : String) (change : Index → Index) : Table :=
  { t with indexes := (t.indexes.insertIfNew name { name := name }).modify name change }

/-- Adds a column to the index of a name, which is created if need be. -/
def addToIndex (t : Table) (name column : String) : Table :=
  t.changeIndex name fun i => i.addColumn column

/-- Adds a unique key with a generated name. -/
def createUniqueKey (t : Table) (columns : List String) : Table :=
  t.addToUniqueKey (constraintName "UK" t.name columns) columns

/-- Sets the primary key. -/
def setPrimaryKey (t : Table) (columns : List String) : Table :=
  { t with primaryKey := some columns }

/-- The name of a foreign key: the given one, or else a generated one. -/
def foreignKeyName (t : Table) (given : Option String) (columns : List String) : String :=
  given.getD (constraintName "FK" t.name columns)

/-- Adds a foreign key, in place of one of its name. -/
def addForeignKey (t : Table) (k : ForeignKey) : Table :=
  { t with foreignKeys := t.foreignKeys.insert k.name k }

/-- Adds a check constraint. -/
def addCheck (t : Table) (sql : String) : Table := { t with checks := t.checks ++ [sql] }

end Table

end ObjectMapping
