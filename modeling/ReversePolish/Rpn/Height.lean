import ReversePolish.Rpn.Evaluation

/-! # Height of the stack
Whether tokens in postfix order have a value, and what is wrong if they have none, as seen by a scan
that counts values and never looks at them. Of the bindings it asks only which names are bound. -/
namespace ReversePolish.Rpn

/-- How many values a token takes; it leaves one. -/
def demand (bound : String → Bool) : Token → Except EvalError Nat
  | .number _ => .ok 0
  | .identifier name =>
    match bound name, Builtin.ofName? name with
    | true, _ => .ok 0
    | false, some f => .ok f.arity
    | false, none => .error (.unboundIdentifier name)
  | .operator _ => .ok 2
  | t => .error (.unexpectedToken t)

/-- The fault that a scan finds first when the stack holds `height` values. -/
def heightFault? (bound : String → Bool) (height : Nat) : Rpn → Option EvalError
  | [] => if height = 1 then none else some (.malformedExpression height)
  | t :: ts =>
    match demand bound t with
    | .error e => some e
    | .ok n => if height < n then some .stackUnderflow else heightFault? bound (height - n + 1) ts

/-- The tokens bring a stack from one height to another, and it always holds what they take. -/
inductive Reaches (bound : String → Bool) : Nat → Rpn → Nat → Prop
  | nil (height : Nat) : Reaches bound height [] height
  | cons {t : Token} {ts : Rpn} {height n last : Nat} (takes : demand bound t = .ok n)
      (enough : n ≤ height) (rest : Reaches bound (height - n + 1) ts last) :
      Reaches bound height (t :: ts) last

/-- The token cannot be evaluated on a stack of this height, and this is why. -/
inductive Stops (bound : String → Bool) (height : Nat) : Token → EvalError → Prop
  | punctuation {t : Token} (h : t = .leftParen ∨ t = .rightParen ∨ t = .comma) :
      Stops bound height t (.unexpectedToken t)
  | unknown {name : String} (free : bound name = false) (other : Builtin.ofName? name = none) :
      Stops bound height (.identifier name) (.unboundIdentifier name)
  | operator {op : Operator} (low : height < 2) :
      Stops bound height (.operator op) .stackUnderflow
  | function {f : Builtin} (free : bound f.name = false) (low : height < f.arity) :
      Stops bound height (.identifier f.name) .stackUnderflow

end ReversePolish.Rpn

namespace ReversePolish

/-- The same token, or a number in place of a number. -/
inductive Token.SameKind : Token → Token → Prop
  | number (v w : Float) : SameKind (.number v) (.number w)
  | same (t : Token) : SameKind t t

end ReversePolish
