import ObjectMapping.Data.KeyedList
import ObjectMapping.Text.Blank

/-!
# Elements and documents

A mapping document is a tree of named elements with attributes, children and text.  The
tree is read-only: everything else in the library consumes it.
-/

namespace ObjectMapping

/-- One node of a parsed mapping document. -/
structure Element where
  name : String
  /-- The attributes in document order. -/
  attributes : KeyedList String String := .empty
  /-- The child elements in document order. -/
  children : List Element := []
  /-- The text content as written. -/
  text : String := ""
deriving Inhabited

namespace Element

/-- The value of an attribute. -/
def attribute? (e : Element) (name : String) : Option String := e.attributes.get? name

/-- Whether an attribute is present. -/
def hasAttribute (e : Element) (name : String) : Bool := e.attributes.contains name

/-- The children with a name, in document order. -/
def childrenNamed (e : Element) (name : String) : List Element :=
  e.children.filter fun c => c.name = name

/-- The first child with a name. -/
def child? (e : Element) (name : String) : Option Element :=
  e.children.find? fun c => c.name = name

/-- The text content without surrounding blanks. -/
def trimmedText (e : Element) : String := trim e.text

/-- Whether two attribute lists hold the same attributes, in any order. -/
def sameAttributes (m n : KeyedList String String) : Bool :=
  m.size = n.size && m.entries.all fun (name, value) => n.get? name = some value

mutual

/-- Whether two elements differ at most in the order of attributes. -/
def same : Element → Element → Bool
  | ⟨name, attributes, children, text⟩, ⟨name', attributes', children', text'⟩ =>
    name = name' && sameAttributes attributes attributes' && sameAll children children'
      && text = text'

/-- Whether two lists of elements are the same one by one. -/
def sameAll : List Element → List Element → Bool
  | [], [] => true
  | e :: es, f :: fs => same e f && sameAll es fs
  | _, _ => false

end

mutual

/-- The number of elements in a tree. -/
def weight : Element → Nat
  | ⟨_, _, children, _⟩ => weightAll children + 1

/-- The number of elements in a list of trees. -/
def weightAll : List Element → Nat
  | [] => 0
  | e :: es => weight e + weightAll es

end

end Element

/-- A parsed mapping unit; `origin` names where it came from. -/
structure Document where
  root : Element
  origin : Option String := none
deriving Inhabited

namespace Document

/-- What a reader calls the document: its origin, or else the name of its root. -/
def describe (d : Document) : String := d.origin.getD d.root.name

end Document

end ObjectMapping
