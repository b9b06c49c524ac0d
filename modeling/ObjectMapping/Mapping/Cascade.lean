import ObjectMapping.Text.Blank

/-!
# Cascades

A cascade lists styles, divided by commas and blanks.
-/

namespace ObjectMapping

/-- The styles of a cascade, in order. -/
def cascadeStyles (cascade : String) : List String :=
  splitPieces (fun c => c = ',' || isBlank c) cascade

/-- Whether a cascade asks for the deletion of orphans. -/
def cascadesDeleteOrphan (cascade : String) : Bool :=
  (cascadeStyles cascade).any fun style => style = "delete-orphan" || style = "all-delete-orphan"

end ObjectMapping
