/-! Classes of characters, given by ranges of their code points with both ends included. -/
namespace TagIndex.Text

abbrev Ranges := List (Nat × Nat)

def inRanges (rs : Ranges) (c : Char) : Bool := rs.any fun (a, b) => a ≤ c.toNat && c.toNat ≤ b

/-- The number of code points in ranges that do not overlap. -/
def Ranges.size : Ranges → Nat
  | [] => 0
  | (a, b) :: rs => (b + 1 - a) + size rs

end TagIndex.Text
