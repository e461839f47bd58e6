import Mathlib.Data.List.Forall2
import ReversePolish.Calculator
import ReversePolish.Proofs.Evaluation.Height

/-! # Where evaluation fails
Evaluation fails at the first token that cannot be evaluated on a stack of the height that the
tokens before it reach, or at the end if that height is not one. Heights do not depend on values,
so neither does the outcome: other numbers in the same places and other values for the same names
end in the same error or in none. -/
namespace ReversePolish
namespace Rpn

variable {bound bound' : String → Bool} {height last : Nat} {t u : Token} {e : EvalError}
  {rpn rpn' before : Rpn}

theorem Stops.demand (h : Stops bound height t e) :
    demand bound t = .error e ∨
      e = .stackUnderflow ∧ ∃ n, demand bound t = .ok n ∧ height < n := by
  cases h with
  | punctuation h => rcases h with rfl | rfl | rfl <;> exact .inl rfl
  | unknown free other => exact .inl (by simp [Rpn.demand, free, other])
  | operator low => exact .inr ⟨rfl, 2, rfl, low⟩
  | @function f free low => exact .inr ⟨rfl, f.arity, by simp [Rpn.demand, free], low⟩

theorem stops_of_demand_error (h : demand bound t = .error e) : Stops bound height t e := by
  cases t with
  | identifier name =>
    simp only [demand] at h
    split at h
    case h_3 hfree hother =>
      cases h
      exact .unknown hfree hother
    all_goals contradiction
  | number | operator => contradiction
  | leftParen | rightParen | comma =>
    cases h
    exact .punctuation (by simp)

theorem stops_of_lt {n : Nat} (h : demand bound t = .ok n) (low : height < n) :
    Stops bound height t .stackUnderflow := by
  cases t with
  | identifier name =>
    simp only [demand] at h
    split at h
    case h_2 f hfree hf =>
      cases h
      obtain rfl := Builtin.name_of_ofName? hf
      exact .function hfree low
    all_goals cases h <;> contradiction
  | number =>
    cases h
    contradiction
  | operator =>
    cases h
    exact .operator low
  | leftParen | rightParen | comma => contradiction

/-- Either all tokens can be evaluated or there is a first one that cannot. -/
theorem reaches_or_stops (bound : String → Bool) (height : Nat) (rpn : Rpn) :
    (∃ last, Reaches bound height rpn last) ∨
      ∃ before t after last e, rpn = before ++ t :: after ∧ Reaches bound height before last ∧
        Stops bound last t e := by
  induction rpn generalizing height with
  | nil => exact .inl ⟨height, .nil height⟩
  | cons t rpn ih =>
    cases hd : demand bound t with
    | error e => exact .inr ⟨[], t, rpn, height, e, rfl, .nil height, stops_of_demand_error hd⟩
    | ok n =>
      by_cases hn : height < n
      · exact .inr ⟨[], t, rpn, height, .stackUnderflow, rfl, .nil height, stops_of_lt hd hn⟩
      · have henough := Nat.le_of_not_lt hn
        rcases ih (height - n + 1) with ⟨last, hlast⟩ | ⟨before, u, after, last, e, rfl, hlast, hu⟩
        · exact .inl ⟨last, .cons hd henough hlast⟩
        · exact .inr ⟨t :: before, u, after, last, e, rfl, .cons hd henough hlast, hu⟩

/-- The scan goes on from the height that the tokens before reach. -/
theorem Reaches.heightFault?_append (h : Reaches bound height before last) (rest : Rpn) :
    heightFault? bound height (before ++ rest) = heightFault? bound last rest := by
  induction h with
  | nil height => rfl
  | cons takes enough _ ih =>
    simp only [List.cons_append, heightFault?, takes, if_neg (Nat.not_lt.mpr enough), ih]

theorem Reaches.heightFault?_eq (h : Reaches bound height rpn last) :
    heightFault? bound height rpn =
      if last = 1 then none else some (.malformedExpression last) := by
  simpa [heightFault?] using h.heightFault?_append []

theorem Stops.heightFault?_cons (h : Stops bound height t e) (rest : Rpn) :
    heightFault? bound height (t :: rest) = some e := by
  rcases h.demand with hd | ⟨rfl, n, hd, hn⟩
  · simp [heightFault?, hd]
  · simp [heightFault?, hd, hn]

theorem heightFault?_eq_some_iff :
    heightFault? bound height rpn = some e ↔
      (∃ before t after last, rpn = before ++ t :: after ∧ Reaches bound height before last ∧
        Stops bound last t e) ∨
      ∃ last, Reaches bound height rpn last ∧ last ≠ 1 ∧ e = .malformedExpression last := by
  constructor
  · intro h
    rcases reaches_or_stops bound height rpn with
      ⟨last, hlast⟩ | ⟨before, t, after, last, e', rfl, hlast, ht⟩
    · rw [hlast.heightFault?_eq] at h
      obtain ⟨hne, he⟩ := Option.ite_none_left_eq_some.mp h
      exact .inr ⟨last, hlast, hne, (Option.some.inj he).symm⟩
    · rw [hlast.heightFault?_append, ht.heightFault?_cons] at h
      exact .inl ⟨before, t, after, last, rfl, hlast, Option.some.inj h ▸ ht⟩
  · rintro (⟨before, t, after, last, rfl, hlast, ht⟩ | ⟨last, hlast, hne, rfl⟩)
    · rw [hlast.heightFault?_append, ht.heightFault?_cons]
    · rw [hlast.heightFault?_eq, if_neg hne]

theorem heightFault?_eq_none_iff :
    heightFault? bound height rpn = none ↔ Reaches bound height rpn 1 := by
  constructor
  · intro h
    rcases reaches_or_stops bound height rpn with
      ⟨last, hlast⟩ | ⟨before, t, after, last, e', rfl, hlast, ht⟩
    · rw [hlast.heightFault?_eq] at h
      obtain rfl : last = 1 := by simpa using h
      exact hlast
    · rw [hlast.heightFault?_append, ht.heightFault?_cons] at h
      contradiction
  · intro h
    rw [h.heightFault?_eq, if_pos rfl]

/-! ## Two runs -/

theorem demand_of_sameKind (h : t.SameKind u) (hbound : ∀ x, bound x = bound' x) :
    demand bound t = demand bound' u := by
  have hfun : bound = bound' := funext hbound
  cases h with
  | number v w => rfl
  | same t => rw [hfun]

theorem heightFault?_of_sameKind (h : List.Forall₂ Token.SameKind rpn rpn')
    (hbound : ∀ x, bound x = bound' x) (height : Nat) :
    heightFault? bound height rpn = heightFault? bound' height rpn' := by
  induction h generalizing height with
  | nil => rfl
  | cons ht _ ih => simp only [heightFault?, demand_of_sameKind ht hbound, ih]

/-- Evaluation fails at the first token that cannot be evaluated at the height reached before it, or
at the end of the tokens if that is not one value high; otherwise it has a value. Hence two runs of
tokens that differ in their numbers only, over bindings of the same names, fail alike or not at
all. -/
theorem evaluate_fails_by_height (rpn : Rpn) (vars : Bindings) :
    (∀ e, rpn.evaluate vars = .error e ↔
        (∃ before t after height, rpn = before ++ t :: after ∧
          Reaches vars.binds 0 before height ∧ Stops vars.binds height t e) ∨
        ∃ height, Reaches vars.binds 0 rpn height ∧ height ≠ 1 ∧ e = .malformedExpression height) ∧
      ((∃ v, rpn.evaluate vars = .ok v) ↔ Reaches vars.binds 0 rpn 1) ∧
      ∀ (rpn' : Rpn) (vars' : Bindings), List.Forall₂ Token.SameKind rpn rpn' →
        (∀ name, vars.binds name = vars'.binds name) →
        fault? (rpn.evaluate vars) = fault? (rpn'.evaluate vars') := by
  refine ⟨fun e => ?_, ?_, fun rpn' vars' hrpn hvars => ?_⟩
  · rw [← fault?_eq_some, ← heightFault?_eq_fault?, heightFault?_eq_some_iff]
  · rw [← fault?_eq_none, ← heightFault?_eq_fault?, heightFault?_eq_none_iff]
  · rw [← heightFault?_eq_fault?, ← heightFault?_eq_fault?, heightFault?_of_sameKind hrpn hvars]

/-- Whatever `max` is bound to and whatever is divided by zero, `max` takes no arguments here. -/
theorem evaluate_fails_by_height_of_bound_max :
    fault? (evaluate [.number 1, .number 0, .operator .divide, .identifier "max"]
        (.ofList [("max", 2)])) =
      fault? (evaluate [.number 3, .number 4, .operator .divide, .identifier "max"]
        (.ofList [("max", 0 / 0)])) := by
  have htokens : List.Forall₂ Token.SameKind
      [.number 1, .number 0, .operator .divide, .identifier "max"]
      [.number 3, .number 4, .operator .divide, .identifier "max"] :=
    .cons (.number 1 3) (.cons (.number 0 4) (.cons (.same _) (.cons (.same _) .nil)))
  refine (evaluate_fails_by_height _ _).2.2 _ _ htokens fun name => ?_
  by_cases hmax : name = "max" <;>
    simp [Bindings.binds, Bindings.ofList, Bindings.find?_bind, hmax]

end Rpn

namespace Calculator

/-- In a batch, contexts that bind the same names succeed or fail alike. -/
theorem fault?_of_mem_evaluateBatch {c : Calculator} {text : String} {contexts : List Bindings}
    {results : List (Except EvalError Float)}
    (h : (c.evaluateBatch text contexts).answer = .ok results)
    (hbinds : ∀ b ∈ contexts, ∀ b' ∈ contexts, ∀ name, b.binds name = b'.binds name) :
    ∀ r ∈ results, ∀ r' ∈ results, fault? r = fault? r' := by
  unfold evaluateBatch at h
  dsimp only at h
  split at h
  · rename_i rpn hrpn
    cases h
    intro r hr r' hr'
    obtain ⟨b, hb, rfl⟩ := List.mem_map.mp hr
    obtain ⟨b', hb', rfl⟩ := List.mem_map.mp hr'
    rw [← Rpn.heightFault?_eq_fault?, ← Rpn.heightFault?_eq_fault?, funext (hbinds b hb b' hb')]
  · contradiction

end Calculator
end ReversePolish
