import ObjectMapping.Text.Blank

/-!
# Type names

Query parameters, filter parameters and scalar results name a type.  Short names and their
aliases stand for built-in types; any other name is kept as that of a custom type.
-/

namespace ObjectMapping

/-- A built-in type. -/
inductive BasicType where
  | bigDecimal | bigInteger | binary | blob | boolean | byte | calendar | calendarDate
  | character | classRef | clob | currency | date | dbTimestamp | double | float | integer
  | locale | long | serializable | short | string | text | time | timestamp | timezone
  | trueFalse | yesNo
deriving DecidableEq, Inhabited, Repr

namespace BasicType

/-- The short name of a built-in type. -/
def name : BasicType → String
  | bigDecimal => "big_decimal"
  | bigInteger => "big_integer"
  | binary => "binary"
  | blob => "blob"
  | boolean => "boolean"
  | byte => "byte"
  | calendar => "calendar"
  | calendarDate => "calendar_date"
  | character => "character"
  | classRef => "class"
  | clob => "clob"
  | currency => "currency"
  | date => "date"
  | dbTimestamp => "dbtimestamp"
  | double => "double"
  | float => "float"
  | integer => "integer"
  | locale => "locale"
  | long => "long"
  | serializable => "serializable"
  | short => "short"
  | string => "string"
  | text => "text"
  | time => "time"
  | timestamp => "timestamp"
  | timezone => "timezone"
  | trueFalse => "true_false"
  | yesNo => "yes_no"

/-- All built-in types. -/
def all : List BasicType :=
  [bigDecimal, bigInteger, binary, blob, boolean, byte, calendar, calendarDate, character,
    classRef, clob, currency, date, dbTimestamp, double, float, integer, locale, long,
    serializable, short, string, text, time, timestamp, timezone, trueFalse, yesNo]

/-- The built-in type of a short name or alias. -/
def ofName? (raw : String) : Option BasicType :=
  if raw = "byte[]" then some binary
  else if raw = "char" then some character
  else if raw = "int" then some integer
  else all.find? fun t => t.name = raw

end BasicType

/-- A resolved type: built in, or a custom type named by its class. -/
inductive TypeRef where
  | basic (type : BasicType)
  | custom (className : String)
deriving DecidableEq, Inhabited

namespace TypeRef

/-- Resolves a declared type name, without the blanks around it. -/
def ofName (raw : String) : TypeRef :=
  match BasicType.ofName? (trim raw) with
  | some type => basic type
  | none => custom (trim raw)

/-- The name of a type. -/
def name : TypeRef → String
  | basic type => type.name
  | custom className => className

/-- The built-in type, if it is one. -/
def basic? : TypeRef → Option BasicType
  | basic type => some type
  | custom _ => none

end TypeRef

end ObjectMapping
