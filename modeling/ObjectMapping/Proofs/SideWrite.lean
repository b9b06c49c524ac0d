import ObjectMapping.Proofs.Quiet
import ObjectMapping.Proofs.Skeleton

/-!
# Side writes

A side write is a single write to a registry that leaves the skeletons of the entities and the
waiting documents alone: to tables, collections, imports, definitions, queries and deferred
work, and to what the skeleton of an entity does not show.  `SideWrites` is any number of them.
A computation is `Aside` if all its runs make side writes only, whether they end well or in an
error.
-/

namespace ObjectMapping

namespace Registry

/-- One write that leaves the skeletons and the waiting documents alone. -/
inductive SideWrite : Registry → Registry → Prop
  | table (r : Registry) (id : TableId) (f : Table → Table) : SideWrite r (r.modifyTable id f)
  | addTable (r : Registry) (q : TableRequest) : SideWrite r (r.addTable q).1
  | addDenormalizedTable {r r' : Registry} {q : TableRequest} {parent id : TableId}
      (h : r.addDenormalizedTable q parent = .ok (r', id)) : SideWrite r r'
  | tableBinding (r : Registry) (logical : TableKey) (physical : String) :
      SideWrite r (r.addTableBinding logical physical)
  | addCollection {r r' : Registry} {c : Collection} (h : r.addCollection c = .ok r') :
      SideWrite r r'
  | modifyCollection (r : Registry) (role : String) (f : Collection → Collection) :
      SideWrite r (r.modifyCollection role f)
  | addImport {r r' : Registry} {refuse : Bool} {target shortName : String}
      (h : r.addImportUnless refuse target shortName = .ok r')
      (hrefuse : r.options.rejectConflictingImports = true → refuse = true) : SideWrite r r'
  | typeDefinition (r : Registry) (d : TypeDefinition) : SideWrite r (r.addTypeDefinition d)
  | filterDefinition (r : Registry) (d : FilterDefinition) : SideWrite r (r.addFilterDefinition d)
  | auxiliaryObject (r : Registry) (o : AuxiliaryObject) : SideWrite r (r.addAuxiliaryObject o)
  | addQuery {r r' : Registry} {q : NamedQuery} (h : r.addQuery q = .ok r') : SideWrite r r'
  | addSqlQuery {r r' : Registry} {q : NamedSqlQuery} (h : r.addSqlQuery q = .ok r') :
      SideWrite r r'
  | addResultSet {r r' : Registry} {s : ResultSet} (h : r.addResultSet s = .ok r') :
      SideWrite r r'
  | propertyReference (r : Registry) (ref : PropertyReference) :
      SideWrite r (r.addPropertyReference ref)
  | addPass (r : Registry) (pass : DeferredPass) : SideWrite r (r.addPass pass)
  | nextPass {r r' : Registry} {pass : DeferredPass} (h : r.nextPass? = some (pass, r')) :
      SideWrite r r'
  | defaults (r : Registry) (d : DocumentDefaults) : SideWrite r { r with defaults := d }
  /-- A change of an entity that its skeleton does not show. -/
  | entity (r : Registry) (name : String) {f : Entity → Entity}
      (h : ∀ e, (f e).skeleton = e.skeleton) : SideWrite r (r.modifyEntity name f)

/-- Any number of side writes. -/
def SideWrites : Registry → Registry → Prop := Relation.ReflTransGen SideWrite

/-- Registries that are alike have the same skeletons and the same waiting documents. -/
theorem Alike.frame {r r' : Registry} (h : Alike r r') :
    r'.skeletons = r.skeletons ∧ r'.waiting = r.waiting := by
  refine ⟨?_, h.waiting⟩
  rw [skeletons, skeletons, h.entities]

/-- A side write leaves the skeletons and the waiting documents alone. -/
theorem SideWrite.frame {r r' : Registry} (h : SideWrite r r') :
    r'.skeletons = r.skeletons ∧ r'.waiting = r.waiting := by
  cases h with
  | table | tableBinding | modifyCollection | typeDefinition | filterDefinition
  | auxiliaryObject | propertyReference | addPass | defaults => exact ⟨rfl, rfl⟩
  | addTable q => exact (QuietWrite.addTable r q).alike.frame
  | addDenormalizedTable h =>
    cases eq_of_addDenormalizedTable h
    exact ⟨rfl, rfl⟩
  | addImport h hrefuse => exact (QuietWrite.addImport h hrefuse).alike.frame
  | addQuery h => exact (QuietWrite.addQuery h).alike.frame
  | addSqlQuery h => exact (QuietWrite.addSqlQuery h).alike.frame
  | addResultSet h => exact (QuietWrite.addResultSet h).alike.frame
  | addCollection h =>
    obtain ⟨-, rfl⟩ := addCollection_eq_ok.mp h
    exact ⟨rfl, rfl⟩
  | nextPass h =>
    obtain ⟨passes, -, rfl⟩ := nextPass?_eq_some_iff.mp h
    exact ⟨rfl, rfl⟩
  | entity name h => exact ⟨skeletons_modifyEntity_of_eq r name h, rfl⟩

namespace SideWrites

variable {r r' r'' : Registry}

/-- No write at all. -/
theorem refl (r : Registry) : SideWrites r r := Relation.ReflTransGen.refl

/-- Some writes after others. -/
theorem trans (h : SideWrites r r') (h' : SideWrites r' r'') : SideWrites r r'' :=
  Relation.ReflTransGen.trans h h'

/-- A single write. -/
theorem of (h : SideWrite r r') : SideWrites r r' := Relation.ReflTransGen.single h

/-- Side writes leave the skeletons and the waiting documents alone. -/
theorem frame (h : SideWrites r r') :
    r'.skeletons = r.skeletons ∧ r'.waiting = r.waiting := by
  induction h with
  | refl => exact ⟨rfl, rfl⟩
  | tail _ hstep ih =>
    obtain ⟨hs, hw⟩ := hstep.frame
    exact ⟨hs.trans ih.1, hw.trans ih.2⟩

/-- Side writes leave the skeletons alone. -/
theorem skeletons (h : SideWrites r r') : r'.skeletons = r.skeletons := h.frame.1

/-- Side writes leave the waiting documents alone. -/
theorem waiting (h : SideWrites r r') : r'.waiting = r.waiting := h.frame.2

/-- Side writes neither register entities nor remove them. -/
theorem hasEntity (h : SideWrites r r') (name : String) : r'.hasEntity name = r.hasEntity name :=
  hasEntity_congr h.skeletons name

end SideWrites

/-- A quiet write is a side write. -/
theorem QuietWrite.sideWrite {r r' : Registry} (h : QuietWrite r r') : SideWrite r r' := by
  cases h with
  | table id => exact .table r id _
  | addTable q => exact .addTable r q
  | addDenormalizedTable h => exact .addDenormalizedTable h
  | tableBinding logical physical => exact .tableBinding r logical physical
  | addImport h hrefuse => exact .addImport h hrefuse
  | auxiliaryObject o => exact .auxiliaryObject r o
  | addQuery h => exact .addQuery h
  | addSqlQuery h => exact .addSqlQuery h
  | addResultSet h => exact .addResultSet h
  | propertyReference ref => exact .propertyReference r ref
  | defaults d => exact .defaults r d

end Registry

/-! ## Computations that only make side writes -/

namespace Binding

open Registry

variable {α : Type}

/-- Every run makes side writes only, whether it ends well or in an error. -/
def Aside (m : Binding α) : Prop := Makes SideWrite m

/-- Definitions are side writes. -/
theorem Defines.aside {m : Binding α} (h : m.Defines) : m.Aside :=
  Makes.mono h fun r _ hstep => by
    cases hstep with
    | typeDefinition d => exact .single (.typeDefinition r d)
    | filterDefinition d => exact .single (.filterDefinition r d)

/-- A successful run makes side writes only. -/
theorem Aside.of_ok {m : Binding α} (h : m.Aside) {r r' : Registry} {a : α}
    (hrun : m.run r = .ok a r') : SideWrites r r' := Makes.of_ok h hrun

end Binding

end ObjectMapping
