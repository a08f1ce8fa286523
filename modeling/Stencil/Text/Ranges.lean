/-! Sets of code points given by ranges. -/
namespace Stencil.Text

/-- Holds if `n` lies in one of the closed ranges. -/
def inRanges (rs : List (Nat × Nat)) (n : Nat) : Bool :=
  rs.any fun r => r.1 ≤ n && n ≤ r.2

end Stencil.Text
