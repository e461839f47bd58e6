import ReversePolish.Rpn

/-! # A yard for tokens of every kind
The same conversion on a stack that may hold any token, with loops that take one token after another
from the top. The loops say what becomes of whatever they meet there, be it a number, a comma or a
closing parenthesis; which tokens can really wait, and in what order, is a matter of proof. -/
namespace ReversePolish

/-- The tokens released so far, and those that wait, the top one first. -/
structure Yard where
  released : List Token
  waiting : List Token
  deriving DecidableEq

namespace Yard

def empty : Yard := ⟨[], []⟩

/-- The tokens of this stack wait. -/
def ofStack (released : List Token) (stack : List Pending) : Yard :=
  ⟨released, stack.map Pending.token⟩

/-- Releases all that waits above the nearest open parenthesis and removes the parenthesis; `none`
if no parenthesis is open. -/
def releaseToParen (released : List Token) : List Token → Option Yard
  | [] => none
  | .leftParen :: below => some ⟨released, below⟩
  | t :: below => releaseToParen (released ++ [t]) below

/-- Releases operators from the top as long as `op` yields to them. -/
def releaseYielded (op : Operator) (released : List Token) : List Token → Yard
  | .operator top :: below =>
    if op.yieldsTo top then releaseYielded op (released ++ [.operator top]) below
    else ⟨released, .operator top :: below⟩
  | waiting => ⟨released, waiting⟩

/-- Releases the token on top if it is the name of a function. -/
def releaseCalled : Yard → Yard
  | ⟨released, .identifier name :: below⟩ =>
    if (Builtin.ofName? name).isSome then ⟨released ++ [.identifier name], below⟩
    else ⟨released, .identifier name :: below⟩
  | y => y

def read (y : Yard) : Token → Except ParseError Yard
  | .number value => .ok ⟨y.released ++ [.number value], y.waiting⟩
  | .identifier name =>
    if (Builtin.ofName? name).isSome then .ok ⟨y.released, .identifier name :: y.waiting⟩
    else .ok ⟨y.released ++ [.identifier name], y.waiting⟩
  | .operator op =>
    let z := releaseYielded op y.released y.waiting
    .ok ⟨z.released, .operator op :: z.waiting⟩
  | .leftParen => .ok ⟨y.released, .leftParen :: y.waiting⟩
  | .comma =>
    match releaseToParen y.released y.waiting with
    | some z => .ok ⟨z.released, .leftParen :: z.waiting⟩
    | none => .error .misplacedComma
  | .rightParen =>
    match releaseToParen y.released y.waiting with
    | some z => .ok z.releaseCalled
    | none => .error .mismatchedParens

def readAll (y : Yard) (ts : List Token) : Except ParseError Yard := ts.foldlM read y

/-- Releases all that waits at the end of the tokens; `closing` is the answer to a closing
parenthesis that turns up on the way. -/
def releaseAll (closing : Except ParseError Rpn) (released : List Token) :
    List Token → Except ParseError Rpn
  | [] => .ok released
  | .leftParen :: _ => .error .mismatchedParens
  | .rightParen :: _ => closing
  | t :: below => releaseAll closing (released ++ [t]) below

def convert (closing : Except ParseError Rpn) (ts : List Token) : Except ParseError Rpn := do
  let y ← empty.readAll ts
  releaseAll closing y.released y.waiting

end Yard

/-- From the top down: powers, then at most one product or quotient, then at most one sum or
difference. -/
def Operator.Layered (ops : List Operator) : Prop :=
  ∃ (powers : Nat) (product sum : Option Operator),
    ops = List.replicate powers .power ++ product.toList ++ sum.toList ∧
      (∀ op ∈ product, op = .multiply ∨ op = .divide) ∧ ∀ op ∈ sum, op = .add ∨ op = .subtract

/-- What may wait, and in which order. -/
structure Yard.Orderly (waiting : List Token) : Prop where
  kind : ∀ t ∈ waiting,
    (∃ op, t = .operator op) ∨ (∃ f : Builtin, t = .identifier f.name) ∨ t = .leftParen
  /-- An operator on top of another does not yield to it: it is stronger, or both are powers. -/
  firm : ∀ above upper lower below,
    waiting = above ++ .operator upper :: .operator lower :: below →
      upper.yieldsTo lower = false ∧
        (lower.precedence < upper.precedence ∨ upper = .power ∧ lower = .power)
  layered : ∀ above ops below,
    waiting = above ++ ops.map Token.operator ++ below → Operator.Layered ops

end ReversePolish
