/-!
Sets of code points, given as ranges in ascending order.
-/
namespace ToolCatalog.Text

/-- Whether a code point lies in one of the ranges with indices from `low` up to `high`, which
bisection narrows down. -/
def inRangesBetween (ranges : Array (Nat × Nat)) (code : Nat) : Nat → Nat → Nat → Bool
  | 0, _, _ => false
  | fuel + 1, low, high =>
    let middle := (low + high) / 2
    match ranges[middle]? with
    | none => false
    | some (first, last) =>
      if code < first then low < middle && inRangesBetween ranges code fuel low middle
      else if last < code then
        middle + 1 < high && inRangesBetween ranges code fuel (middle + 1) high
      else true

/-- Whether a code point lies in one of the ranges, both ends included. -/
def inRanges (ranges : Array (Nat × Nat)) (code : Nat) : Bool :=
  inRangesBetween ranges code (ranges.size + 1) 0 ranges.size

end ToolCatalog.Text
