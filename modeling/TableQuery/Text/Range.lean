/-! Classes of characters given as lists of closed ranges of code points. -/
namespace TableQuery.Text

/-- A class of characters: the code points of some closed ranges. -/
abbrev Ranges := List (Nat × Nat)

/-- The ranges after a code point, each by its distance from what comes before and by its length. -/
def Ranges.spaced (start : Nat) : List Nat → Ranges
  | gap :: length :: rest =>
    let first := start + gap
    (first, first + length) :: spaced (first + length) rest
  | _ => []

def Ranges.holds (ranges : Ranges) (c : Char) : Bool :=
  ranges.any fun range => range.1 ≤ c.toNat && c.toNat ≤ range.2

end TableQuery.Text
