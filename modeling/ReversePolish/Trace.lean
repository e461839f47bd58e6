import ReversePolish.Event

/-! # Traces
The events of one evaluation, stage by stage up to the stage that fails. Evaluating a token that
takes its value from a binding is not reported. -/
namespace ReversePolish

def Token.isBound (vars : Bindings) : Token → Bool
  | .identifier name => vars.binds name
  | _ => false

/-- The events of evaluating tokens in postfix order from `stack` on. -/
def Rpn.trace (vars : Bindings) (stack : Stack) : Rpn → List Event
  | [] =>
    match stack.result with
    | .ok value => [.evaluated value]
    | .error _ => []
  | t :: rest =>
    match evalStep vars stack t with
    | .ok next =>
      if t.isBound vars then trace vars next rest else .stepped t next :: trace vars next rest
    | .error _ => []

/-- The events of evaluating an expression. -/
def trace (text : String) (vars : Bindings) : List Event :=
  .tokenizing text ::
    match tokenize text with
    | .error _ => []
    | .ok tokens =>
      .tokenized tokens ::
        match Rpn.ofTokens tokens with
        | .error _ => []
        | .ok rpn => .converted rpn :: Rpn.trace vars [] rpn

end ReversePolish
