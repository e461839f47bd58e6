import ReversePolish.Bindings
import ReversePolish.Rpn

/-! # Expression trees
What an expression means, whatever the order in which its tokens are written. `postorder` lists the
nodes of a tree with every operator and function after its operands, and `value` is the recursive
value of a tree. -/
namespace ReversePolish

inductive Tree where
  | number (value : Float)
  | var (name : String)
  | operation (op : Operator) (left right : Tree)
  | call (f : Builtin) (args : List Tree)

namespace Tree

mutual

def postorder : Tree → Rpn
  | number value => [.number value]
  | var name => [.identifier name]
  | operation op left right => left.postorder ++ right.postorder ++ [.operator op]
  | call f args => postorders args ++ [.identifier f.name]

def postorders : List Tree → Rpn
  | [] => []
  | t :: ts => t.postorder ++ postorders ts

end

mutual

/-- A call has a value if its arguments are as many as the function takes and no binding hides the
function. -/
def value (vars : Bindings) : Tree → Option Float
  | number value => some value
  | var name => vars.find? name
  | operation op left right => do
    let l ← left.value vars
    let r ← right.value vars
    return op.apply l r
  | call f args => do
    let xs ← values vars args
    if vars.binds f.name then none else f.routine.call? xs

def values (vars : Bindings) : List Tree → Option (List Float)
  | [] => some []
  | t :: ts => do
    let x ← t.value vars
    let xs ← values vars ts
    return x :: xs

end

mutual

/-- The identifiers that stand for variables. -/
def vars : Tree → List String
  | number _ => []
  | var name => [name]
  | operation _ left right => left.vars ++ right.vars
  | call _ args => varsAll args

def varsAll : List Tree → List String
  | [] => []
  | t :: ts => t.vars ++ varsAll ts

end

mutual

/-- The functions that are called. -/
def functions : Tree → List Builtin
  | number _ | var _ => []
  | operation _ left right => left.functions ++ right.functions
  | call f args => f :: functionsAll args

def functionsAll : List Tree → List Builtin
  | [] => []
  | t :: ts => t.functions ++ functionsAll ts

end

mutual

/-- Every function is applied to as many arguments as it takes. -/
def Saturated : Tree → Prop
  | number _ | var _ => True
  | operation _ left right => left.Saturated ∧ right.Saturated
  | call f args => args.length = f.arity ∧ SaturatedAll args

def SaturatedAll : List Tree → Prop
  | [] => True
  | t :: ts => t.Saturated ∧ SaturatedAll ts

end

/-- Variables are no function names, and calls have the right number of arguments. -/
def WellFormed (t : Tree) : Prop := (∀ x ∈ t.vars, Builtin.ofName? x = none) ∧ t.Saturated

theorem mem_varsAll {x : String} {ts : List Tree} : x ∈ varsAll ts ↔ ∃ t ∈ ts, x ∈ t.vars := by
  induction ts with
  | nil => simp [varsAll]
  | cons t ts ih => simp [varsAll, ih]

theorem saturatedAll_iff {ts : List Tree} : SaturatedAll ts ↔ ∀ t ∈ ts, t.Saturated := by
  induction ts with
  | nil => simp [SaturatedAll]
  | cons t ts ih => simp [SaturatedAll, ih]

theorem wellFormed_number (value : Float) : (number value).WellFormed :=
  ⟨by simp [vars], trivial⟩

theorem wellFormed_var {name : String} :
    (var name).WellFormed ↔ Builtin.ofName? name = none := by
  simp [WellFormed, vars, Saturated]

theorem wellFormed_operation {op : Operator} {l r : Tree} :
    (operation op l r).WellFormed ↔ l.WellFormed ∧ r.WellFormed := by
  simp only [WellFormed, vars, Saturated, List.mem_append]
  grind

theorem wellFormed_call {f : Builtin} {args : List Tree} :
    (call f args).WellFormed ↔ args.length = f.arity ∧ ∀ t ∈ args, t.WellFormed := by
  simp only [WellFormed, vars, Saturated, mem_varsAll, saturatedAll_iff]
  grind

end Tree
end ReversePolish
