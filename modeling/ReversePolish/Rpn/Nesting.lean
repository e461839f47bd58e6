import ReversePolish.Rpn

/-! # Nesting of parentheses
Whether tokens can be brought into postfix order, and what is wrong if they cannot, as seen by a
scan that counts open parentheses and looks at nothing else. -/
namespace ReversePolish.Rpn

/-- The fault that a scan finds first when `depth` parentheses are open. -/
def nestingFault? (depth : Nat) : List Token → Option ParseError
  | [] => if depth = 0 then none else some .mismatchedParens
  | .leftParen :: ts => nestingFault? (depth + 1) ts
  | .rightParen :: ts => if depth = 0 then some .mismatchedParens else nestingFault? (depth - 1) ts
  | .comma :: ts => if depth = 0 then some .misplacedComma else nestingFault? depth ts
  | _ :: ts => nestingFault? depth ts

/-- How many parentheses the tokens open and leave open; less than none if they close more. -/
def nesting (ts : List Token) : Int := ts.count .leftParen - ts.count .rightParen

/-- The token comes outside of all parentheses and must not. -/
def Offends (before : List Token) (t : Token) : Prop :=
  (t = .comma ∨ t = .rightParen) ∧ nesting before = 0

/-- None of the tokens offends. -/
def Sheltered (ts : List Token) : Prop :=
  ∀ before t after, ts = before ++ t :: after → ¬Offends before t

end ReversePolish.Rpn
