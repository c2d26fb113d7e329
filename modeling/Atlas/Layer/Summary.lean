import Atlas.Decimal.Layout
import Atlas.Layer.Catalog
import Atlas.Text.Table

/-!
# The summary of a catalog

A table for people, with a row for each specification: whether a layer could be built for it, its
role and id, its protocol, and how it is drawn.
-/

namespace Atlas.Catalog

/-- The mark of what is so. -/
def yesMark : String := "✅"

/-- The mark of a specification without a layer. -/
def warningMark : String := "⚠️"

/-- The columns, with the place of the text in their cells. -/
def summaryColumns : List (String × Text.Align) :=
  [("", .center), ("Role", .left), ("Layer", .left), ("Protocol", .center), ("Visible", .center),
    ("Opacity", .center), ("Time", .center)]

/-- The row of a specification. -/
def summaryRow (c : Catalog) (role : Role) (spec : LayerSpec) : List String :=
  [if ((c.shelf role).layer? spec.id).isSome then yesMark else warningMark, role.name, spec.id,
    spec.protocol.name, if spec.visible then yesMark else "", Decimal.writeFixed 2 spec.opacity,
    if spec.timeEnabled then yesMark else ""]

/-- The summary of a catalog, role by role. -/
def summary (c : Catalog) : Text.Table :=
  ⟨summaryColumns, Role.all.flatMap (fun role => (c.specs role).map (c.summaryRow role))⟩

end Atlas.Catalog
