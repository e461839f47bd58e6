import ReversePolish.Expression
import ReversePolish.Proofs.Conversion.Groups
import ReversePolish.Proofs.Evaluation.Forest
import ReversePolish.Proofs.Evaluation.Postorder

/-! # Substituting an expression for a variable
An expression in parentheses in the place of a variable comes to the same as its value bound to the
variable. This holds whatever the expression around it is, also if it has no value: conversion puts
the tokens of the inner expression where the variable would have been, and there they leave its
value on the stack as the variable does. -/
namespace ReversePolish
open Token

variable {x : String} {vars : Bindings} {w : Float} {ts us : List Token}

namespace Rpn

variable {rpn p : Rpn}

/-- A sequence that has a value by itself leaves it on top of any stack. -/
theorem run_of_evaluate (h : rpn.evaluate vars = .ok w) (stack : Stack) :
    run vars stack rpn = .ok (w :: stack) := by
  obtain ⟨t, rfl, ht⟩ := exists_tree_of_evaluate h
  exact Tree.run_postorder stack t ht

theorem evalStep_bind_self (stack : Stack) :
    evalStep (vars.bind x w) stack (.identifier x) = .ok (w :: stack) := by
  simp [evalStep, Bindings.find?_bind]

theorem evalStep_bind_of_ne {t : Token} (h : t ≠ .identifier x) (stack : Stack) :
    evalStep (vars.bind x w) stack t = evalStep vars stack t := by
  cases t with
  | identifier name =>
    have hname : name ≠ x := fun he => h (congrArg Token.identifier he)
    simp [evalStep, Bindings.find?_bind, hname]
  | number v | operator op | leftParen | rightParen | comma => rfl

theorem run_replace (h : rpn.evaluate vars = .ok w) (stack : Stack) (p : Rpn) :
    run vars stack (replace x rpn p) = run (vars.bind x w) stack p := by
  induction p generalizing stack with
  | nil => rfl
  | cons t p ih =>
    by_cases ht : t = .identifier x
    · subst ht
      have hrun := run_of_evaluate h stack
      rw [replace_cons_self, run_append_ok hrun, ih, run_cons, evalStep_bind_self]
      rfl
    · rw [replace_cons_of_ne ht, run_cons, run_cons, evalStep_bind_of_ne ht]
      cases evalStep vars stack t with
      | error e => rfl
      | ok next => exact ih next

theorem evaluate_replace (h : rpn.evaluate vars = .ok w) (p : Rpn) :
    evaluate (replace x rpn p) vars = evaluate p (vars.bind x w) := by
  rw [evaluate, run_replace h]
  rfl

end Rpn

/-- The two outcomes agree, be they values or errors. -/
theorem evaluateTokens_replace_group (hx : Builtin.ofName? x = none) (hts : StandsFree x ts)
    (hus : evaluateTokens us vars = .ok w) :
    evaluateTokens (replace x (group us) ts) vars = evaluateTokens ts (vars.bind x w) := by
  obtain ⟨rpn, hrpn, hw⟩ := evaluateTokens_eq_ok.mp hus
  have hconv := Rpn.ofTokens_replace hx hrpn hts
  simp only [evaluateTokens, hconv]
  cases Rpn.ofTokens ts with
  | error e => rfl
  | ok p => exact congrArg (Except.mapError Error.eval) (Rpn.evaluate_replace hw p)

/-- The inner expression may mention the variable, which keeps its old value there. -/
theorem evaluateTokens_replace_group_increment :
    ∃ w, Builtin.ofName? "x" = none ∧
      StandsFree "x" [.identifier "x", .operator .subtract, .identifier "max", .leftParen,
        .number 2, .comma, .identifier "x", .rightParen] ∧
      evaluateTokens [.identifier "x", .operator .add, .number 1] (.ofList [("x", 3)]) = .ok w ∧
      evaluateTokens
          [.leftParen, .identifier "x", .operator .add, .number 1, .rightParen, .operator .subtract,
            .identifier "max", .leftParen, .number 2, .comma,
            .leftParen, .identifier "x", .operator .add, .number 1, .rightParen, .rightParen]
          (.ofList [("x", 3)]) =
        evaluateTokens
          [.identifier "x", .operator .subtract, .identifier "max", .leftParen, .number 2, .comma,
            .identifier "x", .rightParen]
          ((Bindings.ofList [("x", 3)]).bind "x" w) := by
  obtain ⟨w, hw⟩ : ∃ w, evaluateTokens [.identifier "x", .operator .add, .number 1]
      (.ofList [("x", 3)]) = .ok w := ⟨_, rfl⟩
  have hx : Builtin.ofName? "x" = none := by decide
  have hfree : StandsFree "x" [.identifier "x", .operator .subtract, .identifier "max", .leftParen,
      .number 2, .comma, .identifier "x", .rightParen] := by decide
  exact ⟨w, hx, hfree, hw, evaluateTokens_replace_group hx hfree hw⟩

end ReversePolish
