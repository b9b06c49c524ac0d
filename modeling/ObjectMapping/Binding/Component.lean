import ObjectMapping.Binding.Collection
import ObjectMapping.Binding.Property

/-!
# Components

A component is bound property by property, down through nested components.  How its columns
are named and what may be null is decided where the outermost component is declared.
-/

namespace ObjectMapping

/-- The simple members that classes, joins and components have in common: associations,
references to any class, and plain properties. -/
def bindSimpleMember (scope : Scope) (site : ColumnSite) (node : Element) :
    Tag → Binding (Option Value)
  | .manyToOne => return some (.manyToOne (← bindManyToOne scope site node))
  | .any => return some (.any (← bindAny scope site node))
  | .property => return some (.simple (← bindSimpleValue site node))
  | _ => return none

/-- Where a component is declared. -/
structure ComponentSite where
  owner : Owner
  table : Option TableId
  /-- The class and the property that the component is reached through. -/
  ownerClass : Option String := none
  parentProperty : Option String := none
  path : String
  nullable : Bool := true
  /-- Whether the properties stand as if they were the owner's own. -/
  embedded : Bool := false
  /-- Whether the component shadows a composite identifier. -/
  isShadow : Bool := false

namespace ComponentSite

/-- The path after which the columns of a property are named: the property alone in an
embedded component, otherwise the path below the owner. -/
def columnPath (site : ComponentSite) (name : String) : String :=
  if site.embedded then name
  else
    let path := qualify site.path name
    (stripPrefix? (site.owner.name ++ ".") path).getD path

/-- Where the columns of a property go. -/
def columnSite (site : ComponentSite) (name : String) : ColumnSite where
  table := site.table
  nullable := site.nullable
  path := site.columnPath name

/-- Where a nested component is declared. -/
def nested (site : ComponentSite) (className : Option String) (name : String) : ComponentSite :=
  { site with
    ownerClass := className
    parentProperty := some name
    path := qualify site.path name }

/-- The class behind a component, and whether there is none.  It is named by the element, or
it is the owner's for an embedded component, or it is taken from the class and property that
the component is reached through. -/
def classOf (site : ComponentSite) (scope : Scope) (reflection : Reflection) (node : Element) :
    Option String × Bool :=
  let named := if site.isShadow then none else scope.classAttribute? node "class"
  if named.isSome then (named, false)
  else if node.tag? = some .dynamicComponent then (none, true)
  else if site.owner.className.isNone then (none, true)
  else if site.embedded then (site.owner.className, false)
  else
    match site.ownerClass, site.parentProperty with
    | some className, some property => (reflection.propertyType? className property, false)
    | _, _ => (none, false)

end ComponentSite

/-- The property that refers back to the owner: the name of the last `<parent>`. -/
def parentPropertyOf (children : List Element) : Option String :=
  (children.filter fun c => c.tag? = some .parent).getLast?.bind (·.attribute? "name")

/-- The kind under which a member of a component is bound: members of a composite identifier
have tags of their own. -/
def Tag.asMember : Tag → Tag
  | keyManyToOne => manyToOne
  | keyProperty => property
  | tag => tag

mutual

/-- Binds a component. -/
def bindComponent (scope : Scope) (site : ComponentSite) : Element → Binding Component
  | ⟨name, attributes, children, text⟩ => do
    let node : Element := ⟨name, attributes, children, text⟩
    let metas := mergeMetas node scope.metas false
    let inner : Scope := { scope with metas := metas.inheritablePart }
    let (componentClass, isDynamic) := site.classOf scope (← get).options.reflection node
    let properties ← bindMembers inner site componentClass children
    if node.attributeIs "unique" "true" then
      let columns := properties.flatMap (·.value.columnNames)
      Binding.changeTable (some site.owner.table) (·.createUniqueKey columns)
    return {
      table := site.table
      ownerEntity := site.owner.name
      roleName := site.path
      componentClass
      isDynamic
      embedded := site.embedded
      parentProperty := parentPropertyOf children
      nodeName := some (((node.attribute? "node").or (node.attribute? "name")).getD
        site.owner.nodeName)
      properties
      metas
      tuplizers := node.tuplizers }

/-- Binds the members of a component, in order. -/
def bindMembers (scope : Scope) (site : ComponentSite) (className : Option String) :
    List Element → Binding (List Property)
  | [] => return []
  | node :: rest => do
    let name := (node.attribute? "name").getD ""
    let value ← match node.tag? with
      | some (.collection kind) =>
        pure (some (← bindCollection scope node kind (qualify site.path name) site.owner))
      | some .component | some .dynamicComponent | some .nestedCompositeElement =>
        pure (some (.component (← bindComponent scope (site.nested className name) node)))
      | some .oneToOne =>
        let value ← bindOneToOne scope (site.columnSite name) site.owner.name node
        pure (some (.oneToOne value))
      | some tag => bindSimpleMember scope (site.columnSite name) node tag.asMember
      | none => pure none
    match value with
    | none => bindMembers scope site className rest
    | some value =>
      let property ← createProperty scope node value className site.owner.name
      let property := if site.isShadow then
          { property with insertable := false, updatable := false } else property
      return property :: (← bindMembers scope site className rest)

end

end ObjectMapping
