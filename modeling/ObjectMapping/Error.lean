/-!
# Mapping errors

Everything that can be wrong with a mapping, one constructor for each cause.  The part of
the mapping that an error belongs to is its `origin`; `message` is the only place where an
error is put into words.
-/

namespace ObjectMapping

/-- The part of a mapping that an error belongs to. -/
inductive ErrorOrigin where
  | collection | document | entity | filter | identifier | property | query | registry
  | secondPass | value
deriving DecidableEq, Inhabited, Repr

namespace ErrorOrigin

/-- The name of a part. -/
def label : ErrorOrigin → String
  | collection => "collection"
  | document => "document"
  | entity => "entity"
  | filter => "filter"
  | identifier => "identifier"
  | property => "property"
  | query => "query"
  | registry => "registry"
  | secondPass => "second_pass"
  | value => "value"

/-- A message after the name of the part that it is about. -/
def describe (origin : ErrorOrigin) (message : String) : String :=
  origin.label ++ ": " ++ message

end ErrorOrigin

/-- A cause for which a mapping is rejected. -/
inductive MappingError where
  -- documents
  | typedefWithoutName
  | typedefWithoutClass (name : String)
  | importWithoutClass
  | cacheWithoutUsage
  | superclassesNotFound (names : List String)
  -- entities
  | extendsNothing (tag : String)
  | unmappedSuperclass (superclass : String)
  | unnamedEntity
  | unknownEntity (name : String)
  | unsupportedOptimisticLock (style : String)
  | joinedSubclassWithoutKey (entity : String)
  | joinWithoutKey (entity : String)
  | identifierNotFound (entity : String)
  -- identifiers
  | notHierarchyRoot (entity : String)
  | generatorWithoutClass (owner : String)
  | untypedIdentifier (entity : String)
  | mappedIdentifierWithName
  -- properties
  | propertyWithoutName (tag : String)
  | unknownGeneration (literal : String)
  | insertOfGenerated (generation property : String)
  | updateOfGenerated (generation property : String)
  | versionGeneratedOnInsert
  -- values
  | columnAttributeWithColumns
  | columnAttributeWithFormulas
  | columnWithoutName (path : String)
  | orphanDeleteOfSingleValue (path : String)
  | invalidNumber (tag attr raw : String)
  -- filters
  | filterDefinitionWithoutName
  | filterWithoutName
  | filterWithoutCondition (name : String)
  -- collections
  | unmappedElementClass (target : String)
  | ownerWithoutIdentifier (owner : String)
  | keyPropertyNotFound (property owner : String)
  | identifierBagWithoutIdentifier (role : String)
  | collectionWithoutIndex (tag role : String)
  | untypedMapIndex (role : String)
  | restrictedElementWithoutJoin (role : String)
  -- deferred passes
  | unknownRole (role : String)
  | unknownOwner (entity : String)
  | unmappedReferencedClass (entity : String)
  | constrainedPropertyNotFound (property entity : String)
  | referencedPropertyNotFound (property entity : String)
  -- queries
  | queryWithoutName (tag : String)
  | unknownFlushMode (literal : String)
  | unknownCacheMode (literal : String)
  | unknownLockMode (literal : String)
  | untypedScalar (column : String)
  | returnWithoutEntity (aliasName : String)
  | malformedOwnerPath (aliasName : String)
  | malformedCollectionRole (aliasName : String)
  | reservedReturnProperty
  | returnPropertyWithoutColumns (aliasName : String)
  | duplicateReturnProperty (property aliasName : String)
  -- registry
  | duplicateEntity (name : String)
  | duplicateTable (name : String)
  | duplicateQuery (name : String)
  | duplicateResultSet (name : String)
  | duplicateCollection (role : String)
  | conflictingImport (shortName target existing : String)
deriving DecidableEq, Inhabited, Repr

namespace MappingError

/-- The part of the mapping that an error belongs to. -/
def origin : MappingError → ErrorOrigin
  | typedefWithoutName | typedefWithoutClass _ | importWithoutClass | cacheWithoutUsage
  | superclassesNotFound _ => .document
  | extendsNothing _ | unmappedSuperclass _ | unnamedEntity | unknownEntity _
  | unsupportedOptimisticLock _ | joinedSubclassWithoutKey _ | joinWithoutKey _
  | identifierNotFound _ => .entity
  | notHierarchyRoot _ | generatorWithoutClass _ | untypedIdentifier _
  | mappedIdentifierWithName => .identifier
  | propertyWithoutName _ | unknownGeneration _ | insertOfGenerated _ _ | updateOfGenerated _ _
  | versionGeneratedOnInsert => .property
  | columnAttributeWithColumns | columnAttributeWithFormulas | columnWithoutName _
  | orphanDeleteOfSingleValue _ | invalidNumber _ _ _ => .value
  | filterDefinitionWithoutName | filterWithoutName | filterWithoutCondition _ => .filter
  | unmappedElementClass _ | ownerWithoutIdentifier _ | keyPropertyNotFound _ _
  | identifierBagWithoutIdentifier _ | collectionWithoutIndex _ _ | untypedMapIndex _
  | restrictedElementWithoutJoin _ => .collection
  | unknownRole _ | unknownOwner _ | unmappedReferencedClass _ | constrainedPropertyNotFound _ _
  | referencedPropertyNotFound _ _ => .secondPass
  | queryWithoutName _ | unknownFlushMode _ | unknownCacheMode _ | unknownLockMode _
  | untypedScalar _ | returnWithoutEntity _ | malformedOwnerPath _ | malformedCollectionRole _
  | reservedReturnProperty | returnPropertyWithoutColumns _ | duplicateReturnProperty _ _ => .query
  | duplicateEntity _ | duplicateTable _ | duplicateQuery _ | duplicateResultSet _
  | duplicateCollection _ | conflictingImport _ _ _ => .registry

/-- The words for an error. -/
def message : MappingError → String
  | typedefWithoutName => "<typedef> must specify a name"
  | typedefWithoutClass name => s!"<typedef> must specify a class: {name}"
  | importWithoutClass => "<import> must specify a class"
  | cacheWithoutUsage => "<cache> must specify a usage"
  | superclassesNotFound names =>
    "superclasses referenced in extends not found: " ++ String.intercalate ", " names
  | extendsNothing tag => s!"<{tag}> must specify the class it extends"
  | unmappedSuperclass superclass => s!"Cannot extend unmapped class {superclass}"
  | unnamedEntity => "Unable to determine entity name"
  | unknownEntity name => s!"Unknown entity: {name}"
  | unsupportedOptimisticLock style => s!"Unsupported optimistic-lock style: {style}"
  | joinedSubclassWithoutKey entity => s!"<joined-subclass> must declare a key: {entity}"
  | joinWithoutKey entity => s!"<join> must declare a key: {entity}"
  | identifierNotFound entity => s!"Could not find identifier of {entity}"
  | notHierarchyRoot entity => s!"{entity} is not a hierarchy root"
  | generatorWithoutClass owner => s!"<generator> must specify a class: {owner}"
  | untypedIdentifier entity => s!"must specify an identifier type: {entity}"
  | mappedIdentifierWithName => "cannot combine mapped=\"true\" with specified name"
  | propertyWithoutName tag => s!"<{tag}> must specify a name"
  | unknownGeneration literal => s!"unknown property generation type: {literal}"
  | insertOfGenerated generation property =>
    "cannot specify both insert=\"true\" and generated=\"" ++ generation ++ "\" for property: "
      ++ property
  | updateOfGenerated generation property =>
    "cannot specify both update=\"true\" and generated=\"" ++ generation ++ "\" for property: "
      ++ property
  | versionGeneratedOnInsert => "'generated' attribute cannot be 'insert' for versioning property"
  | columnAttributeWithColumns =>
    "column attribute may not be used together with <column> subelement"
  | columnAttributeWithFormulas =>
    "column attribute may not be used together with <formula> subelement"
  | columnWithoutName path => s!"<column> of {path} must specify a name"
  | orphanDeleteOfSingleValue path =>
    s!"single-valued associations do not support orphan delete: {path}"
  | invalidNumber tag attr raw =>
    s!"attribute '{attr}' of <{tag}> is not a valid number: '{raw}'"
  | filterDefinitionWithoutName => "<filter-def> must specify a name"
  | filterWithoutName => "<filter> must specify a name"
  | filterWithoutCondition name => s!"no filter condition found for filter: {name}"
  | unmappedElementClass target => s!"Association references unmapped class: {target}"
  | ownerWithoutIdentifier owner =>
    s!"collection key references an entity without identifier: {owner}"
  | keyPropertyNotFound property owner | constrainedPropertyNotFound property owner =>
    s!"Could not find property {property} on {owner}"
  | identifierBagWithoutIdentifier role => s!"<idbag> must declare a collection-id: {role}"
  | collectionWithoutIndex tag role => s!"<{tag}> must declare an index: {role}"
  | untypedMapIndex role => s!"map index element must specify a type: {role}"
  | restrictedElementWithoutJoin role =>
    "many-to-many defining filter or where without join fetching "
      ++ s!"not valid within collection using join fetching [{role}]"
  | unknownRole role => s!"Unknown collection role: {role}"
  | unknownOwner entity => s!"Unknown owning entity: {entity}"
  | unmappedReferencedClass entity => s!"property-ref to unmapped class: {entity}"
  | referencedPropertyNotFound property entity =>
    s!"property-ref not found: {property} on {entity}"
  | queryWithoutName tag => s!"<{tag}> must specify a name"
  | unknownFlushMode literal => s!"unknown flushmode: {literal}"
  | unknownCacheMode literal => s!"Unknown Cache Mode: {literal}"
  | unknownLockMode literal => s!"unknown lockmode: {literal}"
  | untypedScalar column => s!"could not determine type of scalar column {column}"
  | returnWithoutEntity aliasName =>
    s!"<return alias='{aliasName}'> must specify either a class or entity-name"
  | malformedOwnerPath aliasName =>
    s!"Role attribute for sql query return [alias={aliasName}] not formatted correctly "
      ++ "\x7bowningAlias.propertyName\x7d"
  | malformedCollectionRole aliasName =>
    s!"Collection attribute for sql query return [alias={aliasName}] not formatted correctly "
      ++ "\x7bOwnerClassName.propertyName\x7d"
  | reservedReturnProperty =>
    "class is not a valid property name to use in a <return-property>, "
      ++ "use <return-discriminator> instead"
  | returnPropertyWithoutColumns aliasName =>
    s!"return-property for alias {aliasName} must specify at least one column or return-column name"
  | duplicateReturnProperty property aliasName =>
    s!"duplicate return-property for property {property} on alias {aliasName}"
  | duplicateEntity name => s!"Duplicate class/entity mapping {name}"
  | duplicateTable name => s!"Duplicate table mapping {name}"
  | duplicateQuery name => s!"Duplicate query mapping {name}"
  | duplicateResultSet name => s!"Duplicate resultset mapping {name}"
  | duplicateCollection role => s!"Duplicate collection role mapping {role}"
  | conflictingImport shortName target existing =>
    s!"duplicate import: {shortName} refers to both {target} and {existing} "
      ++ "(try using auto-import=\"false\")"

/-- The words for an error after the part that it is about. -/
def describe (e : MappingError) : String := e.origin.describe e.message

end MappingError

end ObjectMapping
