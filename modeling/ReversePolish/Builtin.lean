/-! # Built-in functions
The named functions of one or two arguments that every expression may call. -/
namespace ReversePolish

inductive Builtin where
  | sin
  | cos
  | tan
  | asin
  | acos
  | atan
  | sqrt
  | log
  | exp
  | pow
  | abs
  | max
  | min
  deriving DecidableEq, Repr

/-- A function on doubles together with its number of arguments. -/
inductive Routine where
  | unary (f : Float → Float)
  | binary (f : Float → Float → Float)

def Routine.arity : Routine → Nat
  | unary _ => 1
  | binary _ => 2

/-- The value at a list of arguments, if there are as many as the function takes. -/
def Routine.call? : Routine → List Float → Option Float
  | unary f, [a] => some (f a)
  | binary f, [a, b] => some (f a b)
  | _, _ => none

namespace Builtin

/-- The functions in the order in which they are listed. -/
def all : List Builtin :=
  [sin, cos, tan, asin, acos, atan, sqrt, log, exp, pow, abs, max, min]

def name : Builtin → String
  | sin => "sin"
  | cos => "cos"
  | tan => "tan"
  | asin => "asin"
  | acos => "acos"
  | atan => "atan"
  | sqrt => "sqrt"
  | log => "log"
  | exp => "exp"
  | pow => "pow"
  | abs => "abs"
  | max => "max"
  | min => "min"

def ofName? (name : String) : Option Builtin := all.find? (·.name = name)

/-- The greater argument, or NaN if either is one. -/
def greater (a b : Float) : Float :=
  if a.isNaN || b.isNaN then 0.0 / 0.0 else if a < b then b else a

/-- The lesser argument, or NaN if either is one. -/
def lesser (a b : Float) : Float :=
  if a.isNaN || b.isNaN then 0.0 / 0.0 else if b < a then b else a

/-- `log` is the natural logarithm. -/
def routine : Builtin → Routine
  | sin => .unary Float.sin
  | cos => .unary Float.cos
  | tan => .unary Float.tan
  | asin => .unary Float.asin
  | acos => .unary Float.acos
  | atan => .unary Float.atan
  | sqrt => .unary Float.sqrt
  | log => .unary Float.log
  | exp => .unary Float.exp
  | pow => .binary Float.pow
  | abs => .unary Float.abs
  | max => .binary greater
  | min => .binary lesser

def arity (f : Builtin) : Nat := f.routine.arity

/-- How a call looks: the name and as many letters as there are arguments. -/
def signature (f : Builtin) : String :=
  match f.routine with
  | .unary _ => f.name ++ "(a)"
  | .binary _ => f.name ++ "(a, b)"

theorem arity_pos (f : Builtin) : 0 < f.arity := by
  cases f <;> decide

theorem arity_eq_one_or_two (f : Builtin) : f.arity = 1 ∨ f.arity = 2 := by
  cases f <;> decide

@[simp] theorem ofName?_name (f : Builtin) : ofName? f.name = some f := by
  cases f <;> decide

theorem name_of_ofName? {name : String} {f : Builtin} (h : ofName? name = some f) :
    f.name = name := by
  simpa using List.find?_some h

end Builtin
end ReversePolish
