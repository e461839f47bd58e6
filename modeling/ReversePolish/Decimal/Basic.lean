/-! # Decimals
A `Decimal` is a whole number scaled by a power of ten. It is exact: the numeral that was read or
the digits that are to be written, before or after any rounding to binary. -/
namespace ReversePolish

/-- The number `significand * 10 ^ exponent`. -/
structure Decimal where
  significand : Nat
  exponent : Int
  deriving DecidableEq, Repr

namespace Decimal

/-- The value of a decimal is `numerator / denominator`. -/
def numerator (d : Decimal) : Nat := d.significand * Nat.pow 10 d.exponent.toNat

def denominator (d : Decimal) : Nat := Nat.pow 10 (-d.exponent).toNat

theorem denominator_pos (d : Decimal) : 0 < d.denominator :=
  Nat.pow_pos (by decide)

def digits (d : Decimal) : List Char := Nat.toDigits 10 d.significand

/-- How many digits stand before the point when all digits are written out; negative when zeros
follow the point. -/
def point (d : Decimal) : Int := d.digits.length + d.exponent

/-- The same number without zeros at its end. -/
def stripZeros (d : Decimal) : Decimal :=
  if d.significand = 0 then ⟨0, 0⟩
  else if d.significand % 10 = 0 then stripZeros ⟨d.significand / 10, d.exponent + 1⟩
  else d
termination_by d.significand
decreasing_by
  show d.significand / 10 < d.significand
  omega

end Decimal
end ReversePolish
