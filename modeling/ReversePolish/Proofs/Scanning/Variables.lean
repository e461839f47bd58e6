import Mathlib.Data.String.Basic
import ReversePolish.Token.Scan

/-! # The order of variables
The variables of an expression are listed in strictly ascending order, hence none of them twice. -/
namespace ReversePolish

theorem pairwise_insertName {names : List String} (h : names.Pairwise (· < ·)) (name : String) :
    (insertName name names).Pairwise (· < ·) := by
  induction names with
  | nil => exact List.pairwise_singleton _ _
  | cons first names ih =>
    obtain ⟨hfirst, hnames⟩ := List.pairwise_cons.mp h
    simp only [insertName]
    split
    · rename_i hlt
      refine List.pairwise_cons.mpr ⟨?_, h⟩
      intro x hx
      rcases List.mem_cons.mp hx with rfl | hx
      · exact hlt
      · exact hlt.trans (hfirst x hx)
    · split
      · exact h
      · rename_i hnlt hne
        have hgt : first < name := lt_of_le_of_ne (not_lt.mp hnlt) (Ne.symm hne)
        refine List.pairwise_cons.mpr ⟨?_, ih hnames⟩
        intro x hx
        rcases mem_insertName.mp hx with rfl | hx
        · exact hgt
        · exact hfirst x hx

theorem pairwise_variablesOf (ts : List Token) : (variablesOf ts).Pairwise (· < ·) := by
  induction ts with
  | nil => exact .nil
  | cons t ts ih =>
    cases t with
    | identifier name =>
      rw [show variablesOf (.identifier name :: ts) =
        if Builtin.ofName? name = none then insertName name (variablesOf ts) else variablesOf ts
        from rfl]
      split
      · exact pairwise_insertName ih name
      · exact ih
    | number v | operator op | leftParen | rightParen | comma => exact ih

theorem pairwise_of_freeVariables {text : String} {names : List String}
    (h : freeVariables text = .ok names) : names.Pairwise (· < ·) := by
  unfold freeVariables at h
  cases ht : tokenize text with
  | error e => simp [ht, Except.map] at h
  | ok ts =>
    simp only [ht, Except.map, Except.ok.injEq] at h
    exact h ▸ pairwise_variablesOf ts

end ReversePolish
