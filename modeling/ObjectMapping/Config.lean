import ObjectMapping.Naming
import ObjectMapping.Toml.Document

/-!
# Configuration

What a configuration document may set: the naming strategy, and whether conflicting implied
imports are rejected.  Anything else in it is an error.  A group of settings may also be
written as an array, in the order of its settings, and a choice as a table whose one key
names it.
-/

namespace ObjectMapping

namespace NamingStrategy

/-- The name of a strategy in a configuration. -/
def label : NamingStrategy → String
  | plain => "default"
  | snake => "improved"

/-- The strategy of a name. -/
def ofLabel? (name : String) : Option NamingStrategy := [plain, snake].find? fun s => s.label = name

end NamingStrategy

/-- The settings of a build. -/
structure Config where
  naming : NamingStrategy := .plain
  rejectConflictingImports : Bool := true
deriving DecidableEq, Inhabited

namespace Config

open Toml

/-- Whether a value is an array or table without contents. -/
def isEmptyValue : Toml.Value → Bool
  | .array elements => elements.isEmpty
  | .tables elements => elements.isEmpty
  | .table _ entries => entries.isEmpty
  | _ => false

/-- The elements of an array, however it is written. -/
def elements? : Toml.Value → Option (List Toml.Value)
  | .array elements => some elements
  | .tables elements => some (elements.map (.table .header))
  | _ => none

/-- Reads a group of one setting. -/
def settingOf (key : String) (read : Toml.Value → Option α) (unset : α) (v : Toml.Value) :
    Option α :=
  match v with
  | .table _ [] => some unset
  | .table _ [(name, value)] => if name = key then read value else none
  | v =>
    match elements? v with
    | some [] => some unset
    | some (first :: _) => read first
    | none => none

/-- Reads a naming strategy. -/
def strategyOf : Toml.Value → Option NamingStrategy
  | .text name => NamingStrategy.ofLabel? name
  | .table _ [(name, contents)] =>
    if isEmptyValue contents then NamingStrategy.ofLabel? name else none
  | _ => none

/-- Reads a switch. -/
def switchOf : Toml.Value → Option Bool
  | .boolean b => some b
  | _ => none

/-- Reads one group of settings. -/
def readGroup (config : Config) (name : String) (v : Toml.Value) : Option Config :=
  if name = "naming" then do
    return { config with naming := ← settingOf "strategy" strategyOf config.naming v }
  else if name = "imports" then do
    let reject ← settingOf "reject_conflicting_auto_imports" switchOf
      config.rejectConflictingImports v
    return { config with rejectConflictingImports := reject }
  else none

/-- The configuration that a document describes; `none` if it is malformed or has settings
that there are none of. -/
def ofToml? (source : String) : Option Config := do
  (← readDocument source).foldlM (fun config (name, v) => config.readGroup name v) {}

end Config

end ObjectMapping
