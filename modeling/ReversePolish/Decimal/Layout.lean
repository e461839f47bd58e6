import ReversePolish.Decimal.Shortest

/-! # Writing doubles
The digits are those of the shortest decimal; a `Layout` says how they are set out. There are two:
`plain`, which never uses an exponent and writes whole numbers bare, and `full`, which marks every
value as a fraction and uses an exponent for the very large and the very small. -/
namespace ReversePolish

structure Layout where
  /-- Whether a number whose first digit stands for units of `10 ^ e` is written without exponent.
  -/
  positional : Int → Bool
  /-- Whether a whole number keeps one zero after its point. -/
  pointed : Bool

namespace Layout

/-- All digits in place and no needless point: `2`, `0.5`, `1000000`. -/
def plain : Layout := ⟨fun _ => true, false⟩

/-- A point always, and an exponent below `10 ^ (-4)` and from `10 ^ 16` on: `2.0`, `1e16`. -/
def full : Layout := ⟨fun e => -4 ≤ e && e < 16, true⟩

/-- All digits in their places, with zeros up to the point where digits do not reach it. -/
def inPlace (layout : Layout) (d : Decimal) : List Char :=
  if d.point ≤ 0 then
    '0' :: '.' :: List.replicate (-d.point).toNat '0' ++ d.digits
  else if d.digits.length ≤ d.point then
    d.digits ++ List.replicate d.exponent.toNat '0' ++ if layout.pointed then ['.', '0'] else []
  else
    d.digits.take d.point.toNat ++ '.' :: d.digits.drop d.point.toNat

/-- One digit before the point, and the power of ten after the mark `e`. -/
def scaled (d : Decimal) : List Char :=
  d.digits.take 1 ++ (if d.digits.length ≤ 1 then [] else '.' :: d.digits.drop 1) ++
    'e' :: (toString (d.point - 1)).toList

def decimal (layout : Layout) (d : Decimal) : List Char :=
  if layout.positional (d.point - 1) then layout.inPlace d else scaled d

/-- A NaN has no sign; all else shows a minus if its sign is set, zero and infinity too. -/
def write (layout : Layout) (x : Float) : List Char :=
  if x.isNaN then ['N', 'a', 'N']
  else (if Binary64.isNegative x then ['-'] else []) ++
    if Binary64.magnitude x = Binary64.infinity then ['i', 'n', 'f']
    else layout.decimal (.shortest (Binary64.magnitude x))

def text (layout : Layout) (x : Float) : String := .ofList (layout.write x)

end Layout
end ReversePolish
