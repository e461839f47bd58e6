import ReversePolish.Decimal.Binary64

/-! # Reading doubles
A numeral is an optional sign followed by `inf`, `infinity` or `nan` in letters of either case, or
by digits with at most one point and an optional exponent. The whole text must be a numeral; neither
blanks nor separators are passed over. The value is the nearest double. -/
namespace ReversePolish.Numeral

/-- The number that a run of digits denotes. -/
def ofDigits (ds : List Char) : Nat := ds.foldl (fun n c => 10 * n + (c.toNat - '0'.toNat)) 0

/-- Digits with at most one point among them, and at least one digit. -/
def readDigits? (cs : List Char) : Option Decimal :=
  let whole := cs.takeWhile Char.isDigit
  let fraction := match cs.dropWhile Char.isDigit with
    | [] => some []
    | c :: rest => if c = '.' && rest.all Char.isDigit then some rest else none
  fraction.bind fun ds =>
    if whole ++ ds = [] then none else some ⟨ofDigits (whole ++ ds), -(ds.length : Int)⟩

/-- Digits with an optional sign before them. -/
def readExponent? (cs : List Char) : Option Int :=
  match cs with
  | '-' :: ds => (number? ds).map fun n => -(n : Int)
  | '+' :: ds => (number? ds).map Int.ofNat
  | ds => (number? ds).map Int.ofNat
where
  number? (ds : List Char) : Option Nat :=
    if ds ≠ [] && ds.all Char.isDigit then some (ofDigits ds) else none

/-- Digits, and after the mark `e` or `E` the power of ten by which they are scaled. -/
def readDecimal? (cs : List Char) : Option Decimal :=
  let isMark : Char → Bool := fun c => c = 'e' || c = 'E'
  match cs.dropWhile (fun c => !isMark c) with
  | [] => readDigits? cs
  | _ :: scale => do
    let d ← readDigits? (cs.takeWhile (fun c => !isMark c))
    let e ← readExponent? scale
    return ⟨d.significand, d.exponent + e⟩

def readUnsigned? (cs : List Char) : Option Float :=
  let word := String.ofList (cs.map Char.toLower)
  if word = "inf" || word = "infinity" then some (Binary64.ofMagnitude Binary64.infinity)
  else if word = "nan" then some (0.0 / 0.0)
  else (readDecimal? cs).map Decimal.toFloat

def read? (cs : List Char) : Option Float :=
  match cs with
  | '-' :: rest => (readUnsigned? rest).map fun x => -x
  | '+' :: rest => readUnsigned? rest
  | _ => readUnsigned? cs

end ReversePolish.Numeral
