import ObjectMapping.Binding.Class

/-!
# Documents

A document is bound in one go, kind by kind: definitions first, then classes and subclasses,
then queries and everything else.  A document that extends a class which is neither
registered nor declared in it waits, and nothing else happens to it.
-/

namespace ObjectMapping

/-- What became of a document. -/
inductive BindOutcome where
  | bound
  /-- It waits for the classes named. -/
  | deferred (missing : List String)
deriving DecidableEq, Inhabited

/-! ## Waiting for superclasses -/

/-- Whether an element is a subclass of any kind. -/
def Element.isSubclass (e : Element) : Bool := SubclassKind.all.any fun kind => kind.tag = e.name

/-- The classes that the subclasses at the top of a document extend. -/
def extendedNames (root : Element) : List String :=
  let defaults := DocumentDefaults.ofRoot root
  (root.children.filter Element.isSubclass).filterMap fun node =>
    (node.attribute? "extends").map defaults.qualifyClass

mutual

/-- The names under which classes are declared in an element and below it. -/
def declaredNames (defaults : DocumentDefaults) : Element → List String
  | ⟨tag, attributes, children, text⟩ =>
    let node : Element := ⟨tag, attributes, children, text⟩
    let own :=
      if tag = "class" || node.isSubclass then
        (node.attribute? "entity-name").toList
          ++ ((node.attribute? "name").map defaults.qualifyClass).toList
      else []
    own ++ declaredNamesOfAll defaults children

/-- The names under which classes are declared in some elements and below them. -/
def declaredNamesOfAll (defaults : DocumentDefaults) : List Element → List String
  | [] => []
  | node :: rest => declaredNames defaults node ++ declaredNamesOfAll defaults rest

end

/-- The superclasses that a document needs and that are neither registered nor declared in
it, each once and in order. -/
def Registry.extendsNeeded (r : Registry) (root : Element) : List String :=
  let declared := declaredNamesOfAll (.ofRoot root) root.children
  sortedNames ((extendedNames root).filter fun name => !r.hasEntity name && !declared.contains name)

/-! ## Parts of a document -/

/-- Binds a type alias. -/
def bindTypeDefinition (node : Element) : Binding Unit := do
  let name ← Binding.require .typedefWithoutName (node.attribute? "name")
  let typeClass ← Binding.require (.typedefWithoutClass name) (node.attribute? "class")
  modify (·.addTypeDefinition { name, typeClass, parameters := .ofList node.parameters })

/-- The registered superclass that a top-level subclass extends. -/
def superclassOf (scope : Scope) (node : Element) : Binding String := do
  let name ← Binding.require (.extendsNothing node.name) (node.attribute? "extends")
  let superclass := scope.qualifyClass name
  if (← get).hasEntity superclass then return superclass
  else throw (.unmappedSuperclass superclass)

/-- Binds a subclass at the top of a document. -/
def bindTopSubclass (kind : SubclassKind) (scope : Scope) (node : Element) : Binding Unit := do
  bindSubclass kind scope (← superclassOf scope node) node

/-- Binds an import; without a new name, the class goes by its unqualified one. -/
def bindImport (scope : Scope) (node : Element) : Binding Unit := do
  let target ← Binding.require .importWithoutClass (scope.classAttribute? node "class")
  Binding.register (·.addImport target ((node.attribute? "rename").getD (unqualify target)))

/-- The extra object of the database that an element describes. -/
def auxiliaryObjectOf (node : Element) : AuxiliaryObject where
  content :=
    match (node.child? "definition").bind (·.attribute? "class") with
    | some definitionClass => .custom definitionClass
    | none =>
      .statements (((node.child? "create").map Element.trimmedText).getD "")
        (((node.child? "drop").map Element.trimmedText).getD "")
  dialectScopes := (node.childrenNamed "dialect-scope").filterMap (·.attribute? "name")

/-! ## The whole -/

/-- Binds the contents of a document that waits for nothing. -/
def bindRoot (root : Element) (metas : MetaMap) : Binding Unit := do
  let defaults := DocumentDefaults.ofRoot root
  modify ({ · with defaults })
  let scope : Scope := { defaults, metas := mergeMetas root metas true }
  (root.childrenNamed "filter-def").forM bindFilterDefinition
  (root.childrenNamed "typedef").forM bindTypeDefinition
  (root.childrenNamed "class").forM (bindRootClass scope)
  SubclassKind.all.forM fun kind =>
    (root.childrenNamed kind.tag).forM (bindTopSubclass kind scope)
  (root.childrenNamed "query").forM (bindNamedQuery none)
  (root.childrenNamed "sql-query").forM (bindNamedSqlQuery scope none)
  (root.childrenNamed "resultset").forM (bindResultSet scope none)
  (root.childrenNamed "import").forM (bindImport scope)
  (root.childrenNamed "database-object").forM fun node =>
    modify (·.addAuxiliaryObject (auxiliaryObjectOf node))

/-- Binds a document, or queues it if it has to wait for superclasses. -/
def bindDocument (document : Document) (metas : MetaMap) : Binding BindOutcome := do
  let missing := (← get).extendsNeeded document.root
  if missing.isEmpty then
    bindRoot document.root metas
    return .bound
  else
    modify (·.enqueue { document, metas, missing })
    return .deferred missing

end ObjectMapping
