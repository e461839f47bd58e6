import ReversePolish.Bindings
import ReversePolish.Rpn

/-! # Evaluating tokens in postfix order
Each token changes a stack of values: an operand is pushed, an operator or a function takes its
arguments from the top and puts its result there. One value must be left at the end. Arithmetic is
that of IEEE doubles and never fails. -/
namespace ReversePolish

inductive EvalError where
  | stackUnderflow
  | unboundIdentifier (name : String)
  | malformedExpression (remaining : Nat)
  | unexpectedToken (token : Token)
  deriving DecidableEq

def EvalError.message : EvalError → String
  | stackUnderflow => "Stack underflow: missing operand"
  | unboundIdentifier name => s!"Identifier '{name}' is neither a variable nor a function"
  | malformedExpression remaining =>
    s!"Invalid RPN expression: {remaining} values left on the stack"
  | unexpectedToken token => "Unexpected token in RPN: " ++ token.text

/-- The values computed so far, the top one first. -/
abbrev Stack := List Float

namespace Stack

/-- Replaces the top value by its image. -/
def applyUnary (f : Float → Float) : Stack → Except EvalError Stack
  | a :: stack => .ok (f a :: stack)
  | [] => .error .stackUnderflow

/-- Replaces the two top values by their image; the upper one is the right argument. -/
def applyBinary (f : Float → Float → Float) : Stack → Except EvalError Stack
  | right :: left :: stack => .ok (f left right :: stack)
  | _ => .error .stackUnderflow

def applyRoutine : Routine → Stack → Except EvalError Stack
  | .unary f => applyUnary f
  | .binary f => applyBinary f

/-- The only value of the stack. -/
def result : Stack → Except EvalError Float
  | [value] => .ok value
  | stack => .error (.malformedExpression stack.length)

end Stack

namespace Rpn

/-- The effect of one token. A binding of a name wins over the function of that name. -/
def evalStep (vars : Bindings) (stack : Stack) : Token → Except EvalError Stack
  | .number value => .ok (value :: stack)
  | .identifier name =>
    match vars.find? name with
    | some value => .ok (value :: stack)
    | none =>
      match Builtin.ofName? name with
      | some f => Stack.applyRoutine f.routine stack
      | none => .error (.unboundIdentifier name)
  | .operator op => Stack.applyBinary op.apply stack
  | t => .error (.unexpectedToken t)

/-- The stack that the tokens leave when they start from `stack`. -/
def run (vars : Bindings) (stack : Stack) (rpn : Rpn) : Except EvalError Stack :=
  rpn.foldlM (evalStep vars) stack

def evaluate (rpn : Rpn) (vars : Bindings) : Except EvalError Float :=
  run vars [] rpn >>= Stack.result

theorem run_cons (vars : Bindings) (stack : Stack) (t : Token) (p : Rpn) :
    run vars stack (t :: p) = evalStep vars stack t >>= fun s => run vars s p :=
  List.foldlM_cons

theorem run_append (vars : Bindings) (stack : Stack) (p q : Rpn) :
    run vars stack (p ++ q) = run vars stack p >>= fun s => run vars s q :=
  List.foldlM_append

theorem run_singleton (vars : Bindings) (stack : Stack) (t : Token) :
    run vars stack [t] = evalStep vars stack t :=
  List.foldlM_cons.trans (bind_pure _)

theorem run_append_ok {vars : Bindings} {stack next : Stack} {p : Rpn}
    (h : run vars stack p = .ok next) (q : Rpn) : run vars stack (p ++ q) = run vars next q := by
  rw [run_append, h]
  rfl

end Rpn
end ReversePolish
