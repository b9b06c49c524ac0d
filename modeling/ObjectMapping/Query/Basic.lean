import ObjectMapping.Data.KeyedList
import ObjectMapping.TypeRef

/-!
# Named queries

Queries over entities, queries in the database's own language, and the descriptions of what
the latter return.
-/

namespace ObjectMapping

/-- How returned rows are locked. -/
inductive LockMode where
  | unlocked | read | upgrade | upgradeNoWait | write
deriving DecidableEq, Inhabited, Repr

namespace LockMode

/-- The literal of a lock mode. -/
def literal : LockMode → String
  | unlocked => "none"
  | read => "read"
  | upgrade => "upgrade"
  | upgradeNoWait => "upgrade-nowait"
  | write => "write"

/-- Reads the literal of a lock mode. -/
def ofLiteral? (raw : String) : Option LockMode :=
  [unlocked, read, upgrade, upgradeNoWait, write].find? fun m => m.literal = raw

end LockMode

/-- When changes are flushed before a query. -/
inductive FlushMode where
  | always | auto | commit | never
deriving DecidableEq, Inhabited, Repr

namespace FlushMode

/-- The literal of a flush mode. -/
def literal : FlushMode → String
  | always => "always"
  | auto => "auto"
  | commit => "commit"
  | never => "never"

/-- Reads the literal of a flush mode. -/
def ofLiteral? (raw : String) : Option FlushMode :=
  [always, auto, commit, never].find? fun m => m.literal = raw

end FlushMode

/-- How a query uses the cache. -/
inductive CacheMode where
  | get | ignore | normal | put | refresh
deriving DecidableEq, Inhabited, Repr

namespace CacheMode

/-- The literal of a cache mode. -/
def literal : CacheMode → String
  | get => "get"
  | ignore => "ignore"
  | normal => "normal"
  | put => "put"
  | refresh => "refresh"

/-- Reads the literal of a cache mode. -/
def ofLiteral? (raw : String) : Option CacheMode :=
  [get, ignore, normal, put, refresh].find? fun m => m.literal = raw

end CacheMode

/-- The settings that both kinds of query share. -/
structure QuerySettings where
  cacheable : Bool := false
  cacheRegion : Option String := none
  timeout : Option Nat := none
  fetchSize : Option Nat := none
  flushMode : Option FlushMode := none
  cacheMode : Option CacheMode := none
  readOnly : Bool := false
  comment : Option String := none
  parameterTypes : KeyedList String TypeRef := .empty
deriving DecidableEq, Inhabited

/-- A query over entities. -/
structure NamedQuery where
  name : String
  query : String
  settings : QuerySettings := {}
deriving DecidableEq, Inhabited

/-- A scalar column of a result. -/
structure ScalarReturn where
  column : String
  type : TypeRef
deriving DecidableEq, Inhabited

/-- What an entity return of a result stands for. -/
inductive ReturnSource where
  /-- An entity. -/
  | entity (name : String)
  /-- A property of another return. -/
  | join (ownerAlias ownerProperty : String)
  /-- A collection of an entity. -/
  | collection (ownerEntity ownerProperty : String)
deriving DecidableEq, Inhabited

/-- A return of a result that is made of entities. -/
structure EntityReturn where
  aliasName : String
  source : ReturnSource
  lockMode : LockMode := .read
  /-- The result columns of each property. -/
  propertyResults : KeyedList String (List String) := .empty
deriving DecidableEq, Inhabited

/-- The description of a result. -/
structure ResultSet where
  name : String
  scalars : List ScalarReturn := []
  returns : List EntityReturn := []
deriving DecidableEq, Inhabited

/-- The first return of an alias. -/
def ResultSet.returnOfAlias? (r : ResultSet) (aliasName : String) : Option EntityReturn :=
  r.returns.find? fun entry => entry.aliasName = aliasName

/-- What a native query returns: declared in place, or by the name of a registered result. -/
inductive QueryResults where
  | inline (results : ResultSet)
  | reference (name : String)
deriving DecidableEq, Inhabited

/-- A query in the database's own language. -/
structure NamedSqlQuery where
  name : String
  query : String
  settings : QuerySettings := {}
  results : QueryResults
  synchronizedTables : List String := []
  callable : Bool := false
deriving DecidableEq, Inhabited

end ObjectMapping
