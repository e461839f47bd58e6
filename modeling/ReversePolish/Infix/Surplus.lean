import Mathlib.Data.List.Chain
import ReversePolish.Token

/-! # Surplus operands
Conversion does not ask where the operands of an operator stand, and evaluation only counts them. An
operand too many in one place can therefore stand in for one that is missing elsewhere, and
`2 3 +` has the value 5. An operand is too many if it directly follows another one, or if it follows
a comma that separates no two arguments of a call. -/
namespace ReversePolish.Token

/-- An operand may end with the token. -/
def endsOperand : Token → Bool
  | number _ | identifier _ | rightParen => true
  | operator _ | leftParen | comma => false

/-- An operand may begin with the token. -/
def startsOperand : Token → Bool
  | number _ | identifier _ | leftParen => true
  | operator _ | rightParen | comma => false

/-- Whether `u` may directly follow `t`. The parenthesis of a call follows the name of the function;
apart from that no operand directly follows another one. -/
def admits : Token → Token → Bool
  | identifier name, leftParen => (Builtin.ofName? name).isSome
  | t, u => !(t.endsOperand && u.startsOperand)

/-- No operand directly follows another one. -/
def Separated (ts : List Token) : Prop := ts.IsChain fun t u => t.admits u = true

instance (ts : List Token) : Decidable (Separated ts) :=
  inferInstanceAs (Decidable (ts.IsChain _))

/-- How many commas may stand in parentheses that directly follow the token. -/
def roomAfter : Token → Nat
  | identifier name =>
    match Builtin.ofName? name with
    | some f => f.arity - 1
    | none => 0
  | _ => 0

/-- Whether every comma separates two of the arguments that a function takes. For each open
parenthesis, the innermost first, `room` says how many commas may still follow, and `next` says it
for a parenthesis that is opened now. -/
def commasFit (next : Nat) (room : List Nat) : List Token → Bool
  | [] => true
  | leftParen :: ts => commasFit 0 (next :: room) ts
  | rightParen :: ts => commasFit 0 room.tail ts
  | comma :: ts =>
    match room with
    | (k + 1) :: outer => commasFit 0 (k :: outer) ts
    | _ => false
  | t :: ts => commasFit t.roomAfter room ts

/-- Operands are separated and commas fit: no operand is too many. -/
def NoSurplus (ts : List Token) : Prop := Separated ts ∧ commasFit 0 [] ts = true

instance (ts : List Token) : Decidable (NoSurplus ts) :=
  inferInstanceAs (Decidable (_ ∧ _))

end ReversePolish.Token
