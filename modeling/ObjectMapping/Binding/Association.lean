import ObjectMapping.Binding.SimpleValue

/-!
# Associations

References to other entities: many-to-one, one-to-one, one-to-many, and references to an
entity of any class.
-/

namespace ObjectMapping

/-- How an association is fetched, and whether it is lazy unless it says otherwise.  A
many-to-many is joined; so is a one-to-one that is not constrained, because nothing tells
whether there is a row to stand for. -/
def fetchOf (node : Element) (constrained : Bool) : FetchMode × Bool :=
  match node.attribute? "fetch" with
  | some fetch => (if fetch = "join" then .join else .select, true)
  | none =>
    match node.attribute? "outer-join" with
    | some outerJoin =>
      if outerJoin = "auto" then (.unspecified, true)
      else if outerJoin = "true" then (.join, true)
      else (.select, true)
    | none =>
      if node.name = "many-to-many" then (.join, false)
      else if node.name = "one-to-one" && !constrained then (.join, false)
      else (.unspecified, true)

/-- The target of an association to one entity, except for how it is embedded. -/
def toOneOf (scope : Scope) (node : Element) (constrained : Bool) : ToOne :=
  let (fetch, lazyByDefault) := fetchOf node constrained
  let noProxy := node.attributeIs "lazy" "no-proxy"
  { referencedEntity := scope.targetOf? node
    referencedProperty := node.attribute? "property-ref"
    fetch
    isLazy := noProxy || ((node.attribute? "lazy").map (· == "proxy")).getD lazyByDefault
    unwrapProxy := noProxy }

/-- Associations to one entity cannot delete orphans. -/
def checkCascade (node : Element) (path : String) : Binding Unit :=
  if (node.attribute? "cascade").any cascadesDeleteOrphan then
    throw (.orphanDeleteOfSingleValue path)
  else pure ()

/-- Binds a many-to-one. -/
def bindManyToOne (scope : Scope) (site : ColumnSite) (node : Element) : Binding ManyToOne := do
  let selectables ← bindColumnsOrFormula site node
  checkCascade node site.path
  return {
    base := { table := site.table, selectables, foreignKeyName := node.attribute? "foreign-key" }
    toOne := { toOneOf scope node false with embedded := node.isNotDenied "embed-xml" }
    ignoreNotFound := node.attributeIs "not-found" "ignore" }

/-- Binds a one-to-one, which has columns only if the mapping names them. -/
def bindOneToOne (scope : Scope) (site : ColumnSite) (owner : String) (node : Element) :
    Binding OneToOne := do
  let selectables ← bindNamedColumns site node
  checkCascade node site.path
  let constrained := node.attributeIs "constrained" "true"
  return {
    base := { table := site.table, selectables, foreignKeyName := node.attribute? "foreign-key" }
    toOne := { toOneOf scope node constrained with embedded := node.attributeIs "embed-xml" "true" }
    constrained
    direction := if constrained then .fromParent else .toParent
    propertyName := (node.attribute? "name").getD ""
    ownerEntity := owner }

/-- The element of a one-to-many. -/
def oneToManyOf (scope : Scope) (node : Element) : OneToMany where
  referencedEntity := scope.targetOf? node
  embedded := node.isNotDenied "embed-xml"
  ignoreNotFound := node.attributeIs "not-found" "ignore"

/-- The entities that the discriminator values of an association stand for. -/
def metaValuesOf (scope : Scope) (node : Element) : SortedMap String :=
  (node.childrenNamed "meta-value").foldl (fun m metaValue =>
    match metaValue.attribute? "value", metaValue.attribute? "class" with
    | some value, some className => m.insert value (scope.qualifyClass className)
    | _, _ => m) .empty

/-- Binds a reference to an entity of any class; its columns have no path to be named after. -/
def bindAny (scope : Scope) (site : ColumnSite) (node : Element) : Binding AnyValue := do
  let type := (← get).declaredType node
  let selectables ← bindNamedColumns { site with path := "" } node
  let metaType := node.attribute? "meta-type"
  return {
    base := {
      table := site.table, selectables, typeName := type.name, typeParameters := type.parameters }
    identifierType := type.name
    metaType
    metaValues := if metaType.isSome then metaValuesOf scope node else .empty }

end ObjectMapping
