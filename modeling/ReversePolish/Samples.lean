import ReversePolish.CommandLine

/-! # Sample programs
Three small programs that show how the library is used: one expression with its postfix form and its
variables, one expression in several contexts, and one postfix form that is evaluated repeatedly. -/
namespace ReversePolish

/-- The kind of an error with its particulars spelled out. -/
def EvalError.listing : EvalError → String
  | stackUnderflow => "StackUnderflow"
  | unboundIdentifier name => "UnboundIdentifier \x7b name: " ++ Text.quoted name ++ " \x7d"
  | malformedExpression remaining =>
    s!"MalformedExpression \x7b remaining: {remaining} \x7d"
  | unexpectedToken token => "UnexpectedToken \x7b token: " ++ token.listing ++ " \x7d"

namespace Samples
open CommandLine

def outcomeListing : Except EvalError Float → String
  | .ok value => "Ok(" ++ Layout.full.text value ++ ")"
  | .error e => "Err(" ++ e.listing ++ ")"

/-- The value of an expression or what is wrong with it, on a line. -/
def outcomeLine {ε : Type} (message : ε → String) : Except ε Float → String
  | .ok value => "Result: " ++ Layout.plain.text value ++ "\n"
  | .error e => "Error: " ++ message e ++ "\n"

def simpleExpression : Exit :=
  let text := "(1 + 2) * 3 - sqrt(x)"
  let rpn := (parse text).toOption.getD []
  let names := (freeVariables text).toOption.getD []
  { code := 0
    stdout :=
      text ++ " => " ++ Token.line rpn ++ "\n" ++
      "free variables: \x7b" ++ ", ".intercalate (names.map Text.quoted) ++ "\x7d\n" ++
      outcomeLine Error.message (evaluate text (.ofList [("x", 16.0)])) ++
      outcomeLine Error.message (evaluate "-5 + 3" {}) }

def batchEvaluation : Exit :=
  let contexts : List Bindings :=
    [.ofList [("price", 120.0), ("volume", 3000.0)],
      .ofList [("price", 80.0), ("volume", 6000.0)],
      .ofList [("price", 95.5)]]
  let r := (Calculator.ofSize 16).evaluateBatch "price * volume / max(volume, 1)" contexts
  let results := r.answer.toOption.getD []
  { code := 0
    stdout := String.join (results.zipIdx.map fun (result, i) =>
      s!"Result {i}: " ++ outcomeListing result ++ "\n") }

def parsedOnce : Exit :=
  let rpn := (parse "price * 1.2 + fee").toOption.getD []
  { code := 0
    stdout := String.join ([10.0, 20.0, 30.0].map fun price =>
      outcomeLine EvalError.message (rpn.evaluate (.ofList [("price", price), ("fee", 2.5)]))) }

end Samples
end ReversePolish
