/-
Sets of characters given as closed ranges of their numbers.
-/

namespace LayeredSettings.Text

/-- Whether one of the ranges, each from its first to its last number, holds a
character. -/
def inRanges (ranges : List (Nat × Nat)) (c : Char) : Bool :=
  ranges.any fun (first, last) => first ≤ c.toNat && c.toNat ≤ last

end LayeredSettings.Text
