import ReversePolish.Decimal.Basic

/-! # Double precision
A finite double is a whole number of *steps* of `2 ^ (-1074)`, the least positive double. Its
*magnitude* is its pattern of bits without the sign, and magnitudes ascend with the steps they stand
for, so that rounding to the nearest double is one division of whole numbers. -/
namespace ReversePolish.Binary64

/-- The magnitude of infinity, just above that of the greatest finite double. -/
def infinity : Nat := 2047 <<< 52

def magnitude (x : Float) : Nat := x.toBits.toNat % (1 <<< 63)

def isNegative (x : Float) : Bool := 1 <<< 63 ≤ x.toBits.toNat

/-- The double with this magnitude and no sign. -/
def ofMagnitude (bits : Nat) : Float := .ofBits (.ofNat bits)

/-- How many steps a finite magnitude stands for. -/
def steps (bits : Nat) : Nat :=
  if bits >>> 52 = 0 then bits else (1 <<< 52 + bits % (1 <<< 52)) <<< (bits >>> 52 - 1)

/-- The whole number nearest to `num / den`; of two equally near, the even one. -/
def roundDiv (num den : Nat) : Nat :=
  let q := num / den
  let r := num % den
  if 2 * r < den then q else if den < 2 * r then q + 1 else q + q % 2

/-- The magnitude nearest to `num / den`. The quotient is counted in steps, its digits beyond 53 are
rounded off, and a carry into a new digit moves the exponent field by itself. -/
def nearest (num den : Nat) : Nat :=
  let scaled := num <<< 1074
  let shift := Nat.log2 (scaled / den) - 52
  min (roundDiv scaled (den <<< shift) + shift <<< 52) infinity

end ReversePolish.Binary64

namespace ReversePolish.Decimal

/-- The same decimal with an exponent that a double can tell apart: beyond these bounds the number
is nearest to zero or to infinity anyway. -/
def bounded (d : Decimal) : Decimal :=
  ⟨d.significand, max (-(5000 + Nat.log2 d.significand)) (min 5000 d.exponent)⟩

/-- The magnitude of the double nearest to a decimal. -/
def magnitude (d : Decimal) : Nat :=
  Binary64.nearest d.bounded.numerator d.bounded.denominator

def toFloat (d : Decimal) : Float := Binary64.ofMagnitude d.magnitude

end ReversePolish.Decimal
