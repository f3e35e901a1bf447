/-!
# Shapes

A value expression is either one value for the whole relation or one value per row.
-/

namespace TypedQuery

inductive Shape where
  | scalar
  | columnar
  deriving DecidableEq

namespace Shape

def name : Shape → String
  | scalar => "scalar"
  | columnar => "columnar"

/-- Columnar as soon as one side is. -/
def join : Shape → Shape → Shape
  | scalar, s => s
  | columnar, _ => columnar

/-- The widest shape of a list; nothing at all is scalar. -/
def widest (shapes : List Shape) : Shape := shapes.foldl join scalar

theorem join_scalar (s : Shape) : join s scalar = s := by cases s <;> rfl

theorem join_comm (s t : Shape) : join s t = join t s := by cases s <;> cases t <;> rfl

theorem join_assoc (s t u : Shape) : join (join s t) u = join s (join t u) := by
  cases s <;> cases t <;> cases u <;> rfl

end Shape

end TypedQuery
