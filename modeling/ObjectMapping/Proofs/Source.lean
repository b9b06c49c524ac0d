import ObjectMapping.Binding.Columns
import ObjectMapping.Document.Tag
import ObjectMapping.Naming

/-!
# Mapping sources

What a session may bind is fixed by its documents and its naming strategy, which together are
its source.  The elements of a source are those of its documents, at any depth.  An element
names columns by an attribute or by nested elements, so what a source says about columns can be
read off it without binding anything.
-/

namespace ObjectMapping

/-! ## Elements within elements -/

namespace Element

/-- An element is within another if it is that one, or is found below it at any depth. -/
inductive Within : Element → Element → Prop
  | self (e : Element) : Within e e
  | child {e outer c : Element} (h : Within e outer) (hc : c ∈ e.children) : Within c outer

namespace Within

/-- What is within a child of an element is within the element. -/
theorem of_child {e c outer : Element} (h : e.Within c) (hc : c ∈ outer.children) :
    e.Within outer := by
  induction h with
  | self => exact .child (.self outer) hc
  | child _ hc' ih => exact .child (ih hc) hc'

/-- What is within an element is that element, or is within one of its children. -/
theorem iff_of_child (e outer : Element) :
    e.Within outer ↔ e = outer ∨ ∃ c ∈ outer.children, e.Within c := by
  constructor
  · intro h
    induction h with
    | self => exact .inl rfl
    | @child e _ c _ hc ih =>
      rcases ih with rfl | ⟨top, htop, hwithin⟩
      · exact .inr ⟨c, hc, .self c⟩
      · exact .inr ⟨top, htop, .child hwithin hc⟩
  · rintro (rfl | ⟨c, hc, hwithin⟩)
    · exact .self e
    · exact hwithin.of_child hc

end Within

/-- An element is somewhere below the root of a document, or below another element. -/
def Below (root node : Element) : Prop := ∃ top ∈ root.children, node.Within top

namespace Below

variable {root node c : Element}

theorem child (h : root.Below node) (hc : c ∈ node.children) : root.Below c := by
  obtain ⟨top, htop, hwithin⟩ := h
  exact ⟨top, htop, hwithin.child hc⟩

theorem of_child (hc : c ∈ root.children) : root.Below c := ⟨c, hc, .self c⟩

/-- What is below an element is within it. -/
theorem within (h : root.Below node) : node.Within root :=
  (Within.iff_of_child node root).mpr (.inr h)

end Below

/-- A child that is looked up by its name is a child. -/
theorem mem_children_of_child? {e c : Element} {name : String} (h : e.child? name = some c) :
    c ∈ e.children := List.mem_of_find?_eq_some h

/-- The children of a name are children. -/
theorem mem_children_of_childrenNamed {e c : Element} {name : String}
    (h : c ∈ e.childrenNamed name) : c ∈ e.children :=
  (List.mem_filter.mp h).1

end Element

/-! ## Enumeration -/

namespace Element

mutual

/-- An element and everything below it, in document order. -/
def subtree : Element → List Element
  | ⟨name, attributes, children, text⟩ => ⟨name, attributes, children, text⟩ :: subtrees children

/-- Some elements and everything below them. -/
def subtrees : List Element → List Element
  | [] => []
  | e :: es => e.subtree ++ subtrees es

end

theorem subtrees_eq (es : List Element) : subtrees es = es.flatMap subtree := by
  induction es with
  | nil => rfl
  | cons e es ih => rw [subtrees, ih, List.flatMap_cons]

theorem subtree_eq (e : Element) : e.subtree = e :: e.children.flatMap subtree := by
  obtain ⟨name, attributes, children, text⟩ := e
  rw [subtree, subtrees_eq]

/-- What is below an element of a subtree is in the subtree. -/
theorem mem_subtree_of_child {e c : Element} (hc : c ∈ e.children) :
    ∀ top : Element, e ∈ top.subtree → c ∈ top.subtree
  | ⟨name, attributes, children, text⟩, h => by
    rw [subtree_eq] at h ⊢
    refine List.mem_cons_of_mem _ (List.mem_flatMap.mpr ?_)
    rcases List.mem_cons.mp h with rfl | hbelow
    · exact ⟨c, hc, by rw [subtree_eq]; exact List.mem_cons_self⟩
    · obtain ⟨top, htop, hin⟩ := List.mem_flatMap.mp hbelow
      exact ⟨top, htop, mem_subtree_of_child hc top hin⟩

/-- The elements within an element can be enumerated. -/
theorem mem_subtree_of_within {e outer : Element} (h : e.Within outer) : e ∈ outer.subtree := by
  induction h with
  | self => rw [subtree_eq]; exact List.mem_cons_self
  | child _ hc ih => exact mem_subtree_of_child hc _ ih

end Element

/-! ## Kinds of elements -/

/-- Whether the properties below elements of a kind may be stored in a table other than the one
of the entity: the kind is a join or a collection. -/
def Tag.opensTable : Tag → Bool
  | join | collection _ => true
  | _ => false

/-- Whether elements of a kind are bound as components where they are found inside a join, a
collection or another component. -/
def Tag.isComponent : Tag → Bool
  | component | compositeElement | compositeIndex | dynamicComponent
  | nestedCompositeElement => true
  | _ => false

namespace Element

/-- An element is of a kind below which properties may be stored in a table of their own. -/
def OpensTable (e : Element) : Prop := e.tag?.any Tag.opensTable

/-- An element is of a kind that is bound as a component. -/
def IsComponent (e : Element) : Prop := e.tag?.any Tag.isComponent

instance (e : Element) : Decidable e.OpensTable := inferInstanceAs (Decidable (_ = true))

instance (e : Element) : Decidable e.IsComponent := inferInstanceAs (Decidable (_ = true))

theorem opensTable_of_tag {e : Element} {tag : Tag} (h : e.tag? = some tag)
    (htag : tag.opensTable) : e.OpensTable := by
  rw [OpensTable, h]
  exact htag

theorem isComponent_of_tag {e : Element} {tag : Tag} (h : e.tag? = some tag)
    (htag : tag.isComponent) : e.IsComponent := by
  rw [IsComponent, h]
  exact htag

/-- The property that a foreign key of an element references, where it is not the identifier of the
other entity.  Only associations have one: if a key names a property, then either no foreign key is
made of it, or the property is ignored. -/
def referredProperty? (e : Element) : Option String :=
  if e.tag? = some .key then none else e.attribute? "property-ref"

/-- A key refers to an identifier. -/
theorem referredProperty?_of_key {e : Element} (h : e.tag? = some .key) :
    e.referredProperty? = none := if_pos h

/-- What is no key refers to the property that it names. -/
theorem referredProperty?_of_ne_key {e : Element} (h : e.tag? ≠ some .key) :
    e.referredProperty? = e.attribute? "property-ref" := if_neg h

/-- A child that is looked up as a key is one. -/
theorem tag?_of_child?_key {e c : Element} (h : e.child? "key" = some c) : c.tag? = some .key := by
  have hname : c.name = "key" := by simpa using List.find?_some h
  rw [tag?, hname]
  rfl

end Element

/-! ## Named columns -/

/-- The name of a column as it is written in a mapping. -/
def NamingStrategy.writtenColumn (naming : NamingStrategy) (name : String) : String :=
  (Column.ofName (naming.column name)).name

/-- The columns that the `<column>` elements among some children name, in order. -/
def nestedColumnNames (naming : NamingStrategy) (children : List Element) : List String :=
  (children.filter fun c => c.name = "column").filterMap fun c =>
    (c.attribute? "name").map naming.writtenColumn

namespace Element

/-- The columns that an element names: by its attribute, or else by nested elements. -/
def namedColumns (naming : NamingStrategy) (e : Element) : List String :=
  match e.attribute? "column" with
  | some name => [naming.writtenColumn name]
  | none => nestedColumnNames naming e.children

/-- Columns are those that an element names, or there is a single one because it names none. -/
def Names (naming : NamingStrategy) (e : Element) (columns : List String) : Prop :=
  columns = e.namedColumns naming ∨ e.namedColumns naming = [] ∧ ∃ column, columns = [column]

/-- The number of columns of what an element describes: one if it names none. -/
def columnCount (naming : NamingStrategy) (e : Element) : Nat :=
  if (e.namedColumns naming).isEmpty then 1 else (e.namedColumns naming).length

/-- Columns that an element names are as many as it says, unless there are none. -/
theorem Names.length {naming : NamingStrategy} {e : Element} {columns : List String}
    (h : e.Names naming columns) (hsome : columns ≠ []) :
    columns.length = e.columnCount naming := by
  rcases h with rfl | ⟨hnone, column, rfl⟩
  · rw [columnCount, if_neg (by simpa using hsome)]
  · rw [columnCount, hnone]
    rfl

end Element

/-! ## Sources -/

/-- The documents that a session may bind, and how it derives names. -/
structure Source where
  naming : NamingStrategy
  documents : Document → Prop

namespace Source

variable {S : Source}

/-- An element is one of those of the documents. -/
def Has (S : Source) (node : Element) : Prop := ∃ d, S.documents d ∧ node.Within d.root

/-- An element of the documents is strictly below a join or a collection. -/
def Inner (S : Source) (node : Element) : Prop :=
  ∃ outer child, S.Has outer ∧ outer.OpensTable ∧ child ∈ outer.children ∧ node.Within child

/-- A component inside a join or a collection is marked as unique. -/
def UniqueInside (S : Source) : Prop :=
  ∃ node, S.Inner node ∧ node.IsComponent ∧ node.attributeIs "unique" "true"

/-- An element of the documents puts columns into the unique key of a name. -/
def NamesUniqueKey (S : Source) (key : String) : Prop :=
  ∃ node, S.Has node ∧ key ∈ ((node.attribute? "unique-key").map constraintNames).getD []

/-- No component inside a join or a collection is marked as unique, if none is among those that
an enumeration of the documents finds. -/
theorem not_uniqueInside (h : ∀ d, S.documents d → ∀ outer ∈ d.root.subtree, outer.OpensTable →
    ∀ child ∈ outer.children, ∀ node ∈ child.subtree,
      ¬ (node.IsComponent ∧ node.attributeIs "unique" "true")) :
    ¬ S.UniqueInside := by
  rintro ⟨node, ⟨outer, child, ⟨d, hd, houter⟩, hopens, hchild, hwithin⟩, hmarked⟩
  exact h d hd outer (Element.mem_subtree_of_within houter) hopens child hchild node
    (Element.mem_subtree_of_within hwithin) hmarked

/-- No element puts columns into the unique key of a name, if none of those that an enumeration of
the documents finds does. -/
theorem not_namesUniqueKey {key : String} (h : ∀ d, S.documents d → ∀ node ∈ d.root.subtree,
    key ∉ ((node.attribute? "unique-key").map constraintNames).getD []) :
    ¬ S.NamesUniqueKey key := by
  rintro ⟨node, ⟨d, hd, hwithin⟩, hnamed⟩
  exact h d hd node (Element.mem_subtree_of_within hwithin) hnamed

/-- The root of a document is one of its elements. -/
theorem Has.root {d : Document} (h : S.documents d) : S.Has d.root := ⟨d, h, .self _⟩

/-- The children of elements are elements. -/
theorem Has.child {node c : Element} (h : S.Has node) (hc : c ∈ node.children) : S.Has c := by
  obtain ⟨d, hd, hwithin⟩ := h
  exact ⟨d, hd, hwithin.child hc⟩

/-- What is below a join or a collection stays so further down. -/
theorem Inner.child {node c : Element} (h : S.Inner node) (hc : c ∈ node.children) :
    S.Inner c := by
  obtain ⟨outer, top, houter, hopens, htop, hwithin⟩ := h
  exact ⟨outer, top, houter, hopens, htop, hwithin.child hc⟩

/-- The children of a join or a collection are below it. -/
theorem Inner.of_opensTable {node c : Element} (h : S.Has node) (hopens : node.OpensTable)
    (hc : c ∈ node.children) : S.Inner c := ⟨node, c, h, hopens, hc, .self c⟩

end Source

end ObjectMapping
