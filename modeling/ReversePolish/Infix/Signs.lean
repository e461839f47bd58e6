import ReversePolish.Infix.Surplus

/-! # Signs
A minus with no operand before it would be a sign, and the infix grammar has none. What a text with
signs would otherwise denote is what its tokens denote without them. -/
namespace ReversePolish.Token

/-- The tokens but for every minus that stands where an operand should begin. `after` says whether
an operand ends right before the tokens. -/
def dropSigns (after : Bool) : List Token → List Token
  | [] => []
  | operator .subtract :: ts =>
    if after then operator .subtract :: dropSigns false ts else dropSigns false ts
  | t :: ts => t :: dropSigns t.endsOperand ts

end ReversePolish.Token
