import Mathlib.Data.List.Chain
import ReversePolish.Tree

/-! # Variables with the names of functions
A variable may have the name of a function, since a binding wins over the function when the name is
evaluated. Conversion does not know the bindings and takes the name for that of a function whose
arguments follow; an operator that follows it instead overtakes it. -/
namespace ReversePolish

namespace Token

def isFunctionName : Token → Bool
  | identifier name => (Builtin.ofName? name).isSome
  | _ => false

def isOperator : Token → Bool
  | operator _ => true
  | _ => false

/-- No operator directly follows a function name. -/
def NamesSealed (ts : List Token) : Prop :=
  ts.IsChain fun t u => t.isFunctionName = true → u.isOperator = false

instance (ts : List Token) : Decidable (NamesSealed ts) :=
  inferInstanceAs (Decidable (ts.IsChain _))

def endsWithName (ts : List Token) : Bool := ts.getLast?.any isFunctionName

variable {t : Token} {ts us : List Token}

theorem NamesSealed.tail (h : NamesSealed (t :: ts)) : NamesSealed ts :=
  List.IsChain.tail h

theorem NamesSealed.left (h : NamesSealed (ts ++ us)) : NamesSealed ts :=
  List.IsChain.left_of_append h

theorem NamesSealed.right (h : NamesSealed (ts ++ t :: us)) : NamesSealed us :=
  (List.IsChain.right_of_append h).tail

theorem namesSealed_singleton (t : Token) : NamesSealed [t] := List.isChain_singleton t

theorem NamesSealed.cons (h : NamesSealed ts) (ht : t.isFunctionName = false) :
    NamesSealed (t :: ts) :=
  List.isChain_cons.mpr ⟨fun _ _ hname => by simp [ht] at hname, h⟩

theorem NamesSealed.append (h : NamesSealed ts) (hs : NamesSealed (t :: us))
    (ht : endsWithName ts = true → t.isOperator = false) : NamesSealed (ts ++ t :: us) := by
  refine List.isChain_append.mpr ⟨h, hs, fun last hlast u hu hname => ?_⟩
  obtain rfl : t = u := Option.some.inj hu
  exact ht (by simp [endsWithName, Option.mem_def.mp hlast, hname])

theorem NamesSealed.endsWithName_eq_false {op : Operator}
    (h : NamesSealed (ts ++ .operator op :: us)) : endsWithName ts = false := by
  have hlast := (List.isChain_append.mp h).2.2
  cases hts : ts.getLast? with
  | none => simp [endsWithName, hts]
  | some t =>
    have ht : t.isFunctionName = true → isOperator (.operator op) = false := hlast t hts _ rfl
    simpa [endsWithName, hts, isOperator] using ht

theorem endsWithName_concat (ts : List Token) (t : Token) :
    endsWithName (ts ++ [t]) = t.isFunctionName := by
  simp [endsWithName]

theorem endsWithName_append_operator (ts : List Token) (op : Operator) (us : List Token) :
    endsWithName (ts ++ .operator op :: us) = endsWithName us := by
  cases hus : us.getLast? <;>
    simp [endsWithName, List.getLast?_append, List.getLast?_cons, hus, isFunctionName]

end Token

namespace Tree

mutual

/-- The tree with other names for its variables. -/
def rename (names : String → String) : Tree → Tree
  | number value => number value
  | var name => var (names name)
  | operation op left right => operation op (left.rename names) (right.rename names)
  | call f args => call f (renameAll names args)

def renameAll (names : String → String) : List Tree → List Tree
  | [] => []
  | t :: ts => t.rename names :: renameAll names ts

end

section
variable {names : String → String} {b b' : Bindings}

mutual

/-- The value depends on what the variables are bound to and not on their names. -/
theorem value_rename :
    (t : Tree) → (∀ x ∈ t.vars, b'.find? (names x) = b.find? x) →
      (∀ f ∈ t.functions, b'.binds f.name = b.binds f.name) →
        (t.rename names).value b' = t.value b
  | number _, _, _ => rfl
  | var name, hv, _ => hv name (by simp [vars])
  | operation op l r, hv, hf => by
    have hl := value_rename l (fun x hx => hv x (by simp [vars, hx]))
      (fun f h => hf f (by simp [functions, h]))
    have hr := value_rename r (fun x hx => hv x (by simp [vars, hx]))
      (fun f h => hf f (by simp [functions, h]))
    simp only [rename, value, hl, hr]
  | call f args, hv, hf => by
    have hargs := values_renameAll args hv (fun g h => hf g (by simp [functions, h]))
    have hfree := hf f (by simp [functions])
    simp only [rename, value, hargs, hfree]

theorem values_renameAll :
    (ts : List Tree) → (∀ x ∈ varsAll ts, b'.find? (names x) = b.find? x) →
      (∀ f ∈ functionsAll ts, b'.binds f.name = b.binds f.name) →
        values b' (renameAll names ts) = values b ts
  | [], _, _ => rfl
  | t :: ts, hv, hf => by
    have ht := value_rename t (fun x hx => hv x (by simp [varsAll, hx]))
      (fun f h => hf f (by simp [functionsAll, h]))
    have hts := values_renameAll ts (fun x hx => hv x (by simp [varsAll, hx]))
      (fun f h => hf f (by simp [functionsAll, h]))
    simp only [renameAll, values, ht, hts]

end

end

end Tree
end ReversePolish
