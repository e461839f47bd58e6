import ReversePolish.Decimal.Binary64

/-! # Shortest decimals
`shortest` is the decimal with the fewest digits that reads back as a given double, and of those the
one nearest to the double. Each digit count offers two candidates, the neighbours of the exact value
on the grid of that many digits, and a candidate counts if it reads back. -/
namespace ReversePolish.Decimal

/-- The exact value of a finite magnitude: a step `2 ^ (-1074)` is `5 ^ 1074 * 10 ^ (-1074)`. -/
def exact (bits : Nat) : Decimal := ⟨Binary64.steps bits * Nat.pow 5 1074, -1074⟩

/-- The two decimals around `d` without its last `dropped` digits, the nearer one first; of two
equally near, the greater first. -/
def neighbours (d : Decimal) (dropped : Nat) : List Decimal :=
  let unit := Nat.pow 10 dropped
  let low := stripZeros ⟨d.significand / unit, d.exponent + dropped⟩
  let high := stripZeros ⟨d.significand / unit + 1, d.exponent + dropped⟩
  if 2 * (d.significand % unit) < unit then [low, high] else [high, low]

/-- Seventeen digits always suffice; the exact value stands behind them. -/
def shortest (bits : Nat) : Decimal :=
  let d := exact bits
  let count := d.digits.length
  ((List.range 17).findSome? fun n =>
    (neighbours d (count - (n + 1))).find? (·.magnitude = bits)).getD d

end ReversePolish.Decimal
