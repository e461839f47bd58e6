import Mathlib.Data.List.Chain
import ReversePolish.Infix.Surplus

/-! # Substitution
Other tokens in the place of a variable. In infix order they are put between parentheses, so that
they stay together; in postfix order they need none. A variable that directly follows an operand
does not stand free: parentheses in its place could be taken for those of a call. -/
namespace ReversePolish.Token

/-- The tokens with `us` in the place of every occurrence of the variable. -/
def replace (x : String) (us ts : List Token) : List Token :=
  ts.flatMap fun t => if t = .identifier x then us else [t]

def group (ts : List Token) : List Token := leftParen :: ts ++ [rightParen]

/-- A call of the function with these arguments. -/
def call (f : Builtin) (args : List (List Token)) : List Token :=
  identifier f.name :: group ([comma].intercalate args)

/-- Every occurrence of the variable is the first token or directly follows an operator, an open
parenthesis or a comma. -/
def StandsFree (x : String) (ts : List Token) : Prop :=
  ts.IsChain fun t u => u = .identifier x → t.endsOperand = false

instance (x : String) (ts : List Token) : Decidable (StandsFree x ts) :=
  inferInstanceAs (Decidable (ts.IsChain _))

variable {x : String} {us ts : List Token}

@[simp] theorem replace_nil : replace x us [] = [] := rfl

@[simp] theorem replace_cons_self : replace x us (.identifier x :: ts) = us ++ replace x us ts := by
  simp [replace]

theorem replace_cons_of_ne {t : Token} (h : t ≠ .identifier x) :
    replace x us (t :: ts) = t :: replace x us ts := by
  simp [replace, h]

@[simp] theorem replace_append (as bs : List Token) :
    replace x us (as ++ bs) = replace x us as ++ replace x us bs :=
  List.flatMap_append

theorem replace_of_not_mem (h : .identifier x ∉ ts) : replace x us ts = ts := by
  induction ts with
  | nil => rfl
  | cons t ts ih =>
    simp only [List.mem_cons, not_or] at h
    rw [replace_cons_of_ne (Ne.symm h.1), ih h.2]

theorem replace_append_cons_self {before after : List Token} (hbefore : .identifier x ∉ before)
    (hafter : .identifier x ∉ after) :
    replace x us (before ++ .identifier x :: after) = before ++ us ++ after := by
  rw [replace_append, replace_cons_self, replace_of_not_mem hbefore, replace_of_not_mem hafter,
    List.append_assoc]

theorem StandsFree.endsOperand_eq_false {t : Token} {before after : List Token}
    (h : StandsFree x (before ++ t :: .identifier x :: after)) : t.endsOperand = false :=
  (List.isChain_append_cons_cons.mp h).2.1 rfl

theorem standsFree_of_not_mem (h : .identifier x ∉ ts) : StandsFree x ts := by
  refine List.isChain_iff_forall_rel_of_append_cons_cons.mpr fun t u before after hts hu => ?_
  exact absurd (by simp [hts, hu]) h

/-- A variable that occurs once stands free if it stands free there. -/
theorem standsFree_append_cons {before after : List Token} (hbefore : .identifier x ∉ before)
    (hafter : .identifier x ∉ after)
    (hlast : ∀ t, before.getLast? = some t → t.endsOperand = false) :
    StandsFree x (before ++ .identifier x :: after) := by
  have htail : StandsFree x (.identifier x :: after) := by
    refine List.isChain_cons.mpr ⟨fun u hu he => ?_, standsFree_of_not_mem hafter⟩
    exact absurd (he ▸ List.mem_of_mem_head? hu) hafter
  refine List.isChain_append.mpr ⟨standsFree_of_not_mem hbefore, htail, ?_⟩
  exact fun t ht u hu he => hlast t ht

end ReversePolish.Token
