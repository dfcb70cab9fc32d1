/-! Classes of characters as ranges of code points. -/
namespace WindowFold.Text

/-- The first and the last code point of every range. -/
abbrev CodeRanges := List (Nat × Nat)

def CodeRanges.contains (ranges : CodeRanges) (c : Char) : Bool :=
  ranges.any fun (first, last) => first ≤ c.toNat && c.toNat ≤ last

end WindowFold.Text
