import ReversePolish.Tree

/-! # The infix grammar
Which tokens denote which tree under the usual rules of precedence and associativity. The grammar is
stratified: an expression is a sum, whose terms are products, whose factors are powers of primaries.
A chain of additions and subtractions groups to the left, and so does a chain of multiplications and
divisions, while a chain of powers groups to the right. -/
namespace ReversePolish

namespace Level

/-- The level of whole expressions, which are sums. -/
def expression : Nat := 2

def product : Nat := 3

def power : Nat := 4

/-- The level of numbers, variables, calls and parentheses. -/
def primary : Nat := 5

/-- A chain of these operators belongs to the level and groups to the left. -/
inductive GroupsLeft : Nat → Operator → Prop
  | add : GroupsLeft expression .add
  | subtract : GroupsLeft expression .subtract
  | multiply : GroupsLeft product .multiply
  | divide : GroupsLeft product .divide

/-- A chain of this operator belongs to the level and groups to the right. -/
inductive GroupsRight : Nat → Operator → Prop
  | power : GroupsRight Level.power .power

variable {n : Nat} {op : Operator}

/-- The operators that group to the left do so on the level of their precedence. -/
theorem groupsLeft_iff : GroupsLeft n op ↔ op.associativity = .left ∧ op.precedence = n := by
  constructor
  · intro h
    cases h <;> exact ⟨rfl, rfl⟩
  · rintro ⟨assoc, rfl⟩
    cases op with
    | add => exact .add
    | subtract => exact .subtract
    | multiply => exact .multiply
    | divide => exact .divide
    | power => contradiction

/-- The operator that groups to the right does so on the level of its precedence. -/
theorem groupsRight_iff : GroupsRight n op ↔ op.associativity = .right ∧ op.precedence = n := by
  constructor
  · rintro ⟨⟩
    exact ⟨rfl, rfl⟩
  · rintro ⟨assoc, rfl⟩
    cases op with
    | power => exact .power
    | add | subtract | multiply | divide => contradiction

end Level

mutual

/-- The tokens denote the tree at this level. -/
inductive Denotes : Nat → List Token → Tree → Prop
  | number (value : Float) : Denotes Level.primary [.number value] (.number value)
  | var (name : String) : Denotes Level.primary [.identifier name] (.var name)
  | call (f : Builtin) {ts : List Token} {args : List Tree} (h : DenoteArguments ts args) :
      Denotes Level.primary (.identifier f.name :: .leftParen :: ts ++ [.rightParen]) (.call f args)
  | parens {ts : List Token} {t : Tree} (h : Denotes Level.expression ts t) :
      Denotes Level.primary (.leftParen :: ts ++ [.rightParen]) t
  | tighter {n : Nat} {ts : List Token} {t : Tree} (h : Denotes (n + 1) ts t) : Denotes n ts t
  | left {n : Nat} {op : Operator} {ts us : List Token} {l r : Tree} (level : Level.GroupsLeft n op)
      (hl : Denotes n ts l) (hr : Denotes (n + 1) us r) :
      Denotes n (ts ++ .operator op :: us) (.operation op l r)
  | right {n : Nat} {op : Operator} {ts us : List Token} {l r : Tree}
      (level : Level.GroupsRight n op) (hl : Denotes (n + 1) ts l) (hr : Denotes n us r) :
      Denotes n (ts ++ .operator op :: us) (.operation op l r)

/-- The tokens between the parentheses of a call denote its arguments. -/
inductive DenoteArguments : List Token → List Tree → Prop
  | none : DenoteArguments [] []
  | one {ts : List Token} {t : Tree} (h : Denotes Level.expression ts t) : DenoteArguments ts [t]
  | more {ts us : List Token} {t u : Tree} {args : List Tree} (h : Denotes Level.expression ts t)
      (hs : DenoteArguments us (u :: args)) : DenoteArguments (ts ++ .comma :: us) (t :: u :: args)

end

theorem Denotes.of_le {n m : Nat} {ts : List Token} {t : Tree} (h : Denotes n ts t) (hm : m ≤ n) :
    Denotes m ts t := by
  obtain ⟨k, rfl⟩ := Nat.exists_eq_add_of_le hm
  induction k with
  | zero => exact h
  | succ k ih => exact ih (.tighter h) (Nat.le_add_right m k)

end ReversePolish
