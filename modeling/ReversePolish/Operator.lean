/-! # Operators
The five binary operators with their precedence and associativity, and the one comparison of these
that conversion needs: whether a waiting operator is applied before an arriving one. -/
namespace ReversePolish

inductive Operator where
  | add
  | subtract
  | multiply
  | divide
  | power
  deriving DecidableEq, Repr

inductive Associativity where
  | left
  | right
  deriving DecidableEq, Repr

namespace Operator

def all : List Operator := [add, subtract, multiply, divide, power]

def symbol : Operator → Char
  | add => '+'
  | subtract => '-'
  | multiply => '*'
  | divide => '/'
  | power => '^'

def ofSymbol? (c : Char) : Option Operator := all.find? (·.symbol = c)

/-- Operators of greater precedence are applied first. -/
def precedence : Operator → Nat
  | add | subtract => 2
  | multiply | divide => 3
  | power => 4

def associativity : Operator → Associativity
  | power => .right
  | _ => .left

/-- Whether `op`, arriving when `top` waits for its right operand, lets `top` be applied first. -/
def yieldsTo (op top : Operator) : Bool :=
  match op.associativity with
  | .left => op.precedence ≤ top.precedence
  | .right => op.precedence < top.precedence

def apply (op : Operator) (left right : Float) : Float :=
  match op with
  | add => left + right
  | subtract => left - right
  | multiply => left * right
  | divide => left / right
  | power => left.pow right

/-- An operator yields to a stronger one, and to one of its own strength if it groups to the left.
-/
theorem yieldsTo_iff (op top : Operator) :
    op.yieldsTo top = true ↔
      op.precedence < top.precedence ∨
        op.associativity = .left ∧ op.precedence = top.precedence := by
  cases op <;> cases top <;> decide

theorem associativity_congr {op top : Operator} (h : op.precedence = top.precedence) :
    op.associativity = top.associativity := by
  revert h
  cases op <;> cases top <;> decide

theorem yieldsTo_of_lt {op top : Operator} (h : op.precedence < top.precedence) :
    op.yieldsTo top = true :=
  (yieldsTo_iff op top).mpr (.inl h)

theorem yieldsTo_of_left {op top : Operator} (assoc : op.associativity = .left)
    (h : op.precedence ≤ top.precedence) : op.yieldsTo top = true :=
  (yieldsTo_iff op top).mpr ((Nat.lt_or_eq_of_le h).imp_right fun he => ⟨assoc, he⟩)

@[simp] theorem ofSymbol?_symbol (op : Operator) : ofSymbol? op.symbol = some op := by
  cases op <;> decide

theorem symbol_of_ofSymbol? {c : Char} {op : Operator} (h : ofSymbol? c = some op) :
    op.symbol = c := by
  simpa using List.find?_some h

end Operator
end ReversePolish
