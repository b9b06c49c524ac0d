import ObjectMapping.Document.Element
import ObjectMapping.Text.Path

/-!
# Document defaults

Settings declared on the root element of a mapping document, read once and handed to
everything bound from it.
-/

namespace ObjectMapping

/-- The settings of a document's root element. -/
structure DocumentDefaults where
  schema : Option String := none
  catalog : Option String := none
  cascade : String := "none"
  access : String := "property"
  /-- Whether associations and entities are lazy unless they say otherwise. -/
  isLazy : Bool := true
  /-- Whether an entity is also imported under its unqualified name. -/
  autoImport : Bool := true
  package : Option String := none
deriving DecidableEq, Inhabited

namespace DocumentDefaults

/-- Reads the defaults off a root element; a switch is off if it says anything but true. -/
def ofRoot (root : Element) : DocumentDefaults where
  schema := root.attribute? "schema"
  catalog := root.attribute? "catalog"
  cascade := (root.attribute? "default-cascade").getD "none"
  access := (root.attribute? "default-access").getD "property"
  isLazy := (root.attribute? "default-lazy").all (· = "true")
  autoImport := (root.attribute? "auto-import").all (· = "true")
  package := root.attribute? "package"

/-- A class name, below the document's package unless it is dotted. -/
def qualifyClass (d : DocumentDefaults) (name : String) : String :=
  match d.package with
  | some package => if isDotted name then name else qualify package name
  | none => name

end DocumentDefaults

end ObjectMapping
