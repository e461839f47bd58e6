import ReversePolish.Cache
import ReversePolish.Event

/-! # Calculators
A calculator evaluates expressions and remembers the postfix forms of those it compiled last. What
it remembers shows in its events and its size, never in its answers. -/
namespace ReversePolish

structure Calculator where
  cache : Cache Rpn

/-- An answer, the calculator that goes on from there and what happened on the way. -/
structure Calculator.Reply (α : Type) where
  answer : α
  calculator : Calculator
  events : List Event

namespace Calculator

/-- A calculator that remembers up to `size` expressions, none for size zero. -/
def ofSize (size : Nat) : Calculator := ⟨{ capacity := size }⟩

def defaultSize : Nat := 100

/-- How many expressions are remembered. -/
def size (c : Calculator) : Nat := c.cache.size

/-- The postfix form of a text. Only forms of texts without error are remembered. -/
def compile (c : Calculator) (text : String) : Reply (Except Error Rpn) :=
  match c.cache.find? text with
  | some rpn => ⟨.ok rpn, ⟨c.cache.insert text rpn⟩, [.cacheHit text]⟩
  | none =>
    match parse text with
    | .ok rpn => ⟨.ok rpn, ⟨c.cache.insert text rpn⟩, []⟩
    | .error e => ⟨.error e, c, []⟩

def evaluate (c : Calculator) (text : String) (vars : Bindings) : Reply (Except Error Float) :=
  let r := c.compile text
  { r with answer := r.answer.bind fun rpn => (rpn.evaluate vars).mapError .eval }

/-- One expression in many contexts, each of which succeeds or fails by itself. -/
def evaluateBatch (c : Calculator) (text : String) (contexts : List Bindings) :
    Reply (Except Error (List (Except EvalError Float))) :=
  let r := c.compile text
  match r.answer with
  | .ok rpn => ⟨.ok (contexts.map rpn.evaluate), r.calculator,
      r.events ++ [.batch text contexts.length]⟩
  | .error e => ⟨.error e, r.calculator, r.events⟩

def clear (c : Calculator) : Calculator := ⟨c.cache.clear⟩

/-- What a calculator can be asked. -/
inductive Request where
  | compile (text : String)
  | evaluate (text : String) (vars : Bindings)
  | batch (text : String) (contexts : List Bindings)
  | clear

inductive Answer where
  | compiled (rpn : Except Error Rpn)
  | value (value : Except Error Float)
  | values (values : Except Error (List (Except EvalError Float)))
  | cleared

def serve (c : Calculator) : Request → Reply Answer
  | .compile text => let r := c.compile text; { r with answer := .compiled r.answer }
  | .evaluate text vars => let r := c.evaluate text vars; { r with answer := .value r.answer }
  | .batch text contexts =>
    let r := c.evaluateBatch text contexts; { r with answer := .values r.answer }
  | .clear => ⟨.cleared, c.clear, []⟩

/-- The replies to requests that are served one after another. -/
def serveAll (c : Calculator) : List Request → List (Reply Answer)
  | [] => []
  | request :: requests =>
    let r := c.serve request
    r :: r.calculator.serveAll requests

/-- The calculator that is left when requests have been served one after another. -/
def after (c : Calculator) : List Request → Calculator
  | [] => c
  | request :: requests => (c.serve request).calculator.after requests

/-- Calculators remember nothing at first and change only by what they are asked. -/
def Reachable (c : Calculator) : Prop := ∃ size requests, c = (ofSize size).after requests

/-- The answer to a request without any memory. -/
def Request.direct : Request → Answer
  | .compile text => .compiled (parse text)
  | .evaluate text vars => .value (ReversePolish.evaluate text vars)
  | .batch text contexts => .values ((parse text).map fun rpn => contexts.map rpn.evaluate)
  | .clear => .cleared

end Calculator
end ReversePolish
