import ReversePolish.Expression
import ReversePolish.Proofs.Conversion.Conservation
import ReversePolish.Proofs.Evaluation.Forest

/-! # What evaluation reads
Evaluation asks the bindings for the identifiers of the expression and for no other names, and every
error has a reason in the tokens. Since conversion keeps all identifiers and drops all parentheses
and commas, the reasons can be told from the infix tokens. -/
namespace ReversePolish
open Token

variable {vars vars' : Bindings} {ts : List Token}

namespace Rpn

variable {stack : Stack} {rpn : Rpn} {e : EvalError}

/-! ## Bindings that agree -/

theorem evalStep_congr {t : Token} (h : ∀ x, .identifier x = t → vars.find? x = vars'.find? x)
    (stack : Stack) : evalStep vars stack t = evalStep vars' stack t := by
  cases t with
  | identifier name => simp only [evalStep, h name rfl]
  | number v | operator op | leftParen | rightParen | comma => rfl

theorem run_congr (h : ∀ x, .identifier x ∈ rpn → vars.find? x = vars'.find? x) (stack : Stack) :
    run vars stack rpn = run vars' stack rpn := by
  induction rpn generalizing stack with
  | nil => rfl
  | cons t rpn ih =>
    have hhead : ∀ x, .identifier x = t → vars.find? x = vars'.find? x :=
      fun x hx => h x (hx ▸ List.mem_cons_self)
    have htail : ∀ x, .identifier x ∈ rpn → vars.find? x = vars'.find? x :=
      fun x hx => h x (List.mem_cons_of_mem t hx)
    simp only [run_cons, evalStep_congr hhead, ih htail]

theorem evaluate_congr (h : ∀ x, .identifier x ∈ rpn → vars.find? x = vars'.find? x) :
    rpn.evaluate vars = rpn.evaluate vars' := by
  rw [evaluate, evaluate, run_congr h]

/-! ## Reasons for errors -/

/-- What the tokens have to do with an error of their evaluation. -/
inductive Reason (vars : Bindings) (rpn : Rpn) : EvalError → Prop
  | stackUnderflow : Reason vars rpn .stackUnderflow
  | unboundIdentifier {name : String} (mem : .identifier name ∈ rpn)
      (free : vars.binds name = false) (other : Builtin.ofName? name = none) :
      Reason vars rpn (.unboundIdentifier name)
  | malformedExpression {remaining : Nat} : Reason vars rpn (.malformedExpression remaining)
  | unexpectedToken {t : Token} (mem : t ∈ rpn) (punctuation : t.isPunctuation = true) :
      Reason vars rpn (.unexpectedToken t)

theorem Reason.mono {p : Rpn} (h : Reason vars p e) (hsub : p ⊆ rpn) : Reason vars rpn e := by
  cases h with
  | stackUnderflow => exact .stackUnderflow
  | unboundIdentifier mem free other => exact .unboundIdentifier (hsub mem) free other
  | malformedExpression => exact .malformedExpression
  | unexpectedToken mem punctuation => exact .unexpectedToken (hsub mem) punctuation

theorem eq_of_applyUnary {f : Float → Float} (h : Stack.applyUnary f stack = .error e) :
    e = .stackUnderflow := by
  match stack, h with
  | [], h =>
    cases h
    rfl

theorem eq_of_applyBinary {f : Float → Float → Float}
    (h : Stack.applyBinary f stack = .error e) : e = .stackUnderflow := by
  match stack, h with
  | [], h | [_], h =>
    cases h
    rfl

theorem eq_of_applyRoutine {routine : Routine} (h : Stack.applyRoutine routine stack = .error e) :
    e = .stackUnderflow := by
  cases routine with
  | unary f => exact eq_of_applyUnary h
  | binary f => exact eq_of_applyBinary h

theorem reason_of_evalStep {t : Token} (h : evalStep vars stack t = .error e) :
    Reason vars [t] e := by
  cases t with
  | number v => contradiction
  | identifier name =>
    simp only [evalStep] at h
    cases hb : vars.find? name with
    | some v => simp [hb] at h
    | none =>
      cases hf : Builtin.ofName? name with
      | some f =>
        simp only [hb, hf] at h
        exact eq_of_applyRoutine h ▸ .stackUnderflow
      | none =>
        simp only [hb, hf, Except.error.injEq] at h
        exact h ▸ .unboundIdentifier (by simp) (by simp [Bindings.binds, hb]) hf
  | operator op => exact eq_of_applyBinary h ▸ .stackUnderflow
  | leftParen | rightParen | comma =>
    cases h
    exact .unexpectedToken (by simp) rfl

theorem reason_of_run (h : run vars stack rpn = .error e) : Reason vars rpn e := by
  induction rpn generalizing stack with
  | nil => contradiction
  | cons t rpn ih =>
    rw [run_cons, bind_eq_error] at h
    rcases h with hstep | ⟨next, -, hrun⟩
    · exact (reason_of_evalStep hstep).mono (by simp)
    · exact (ih hrun).mono (by simp)

theorem reason_of_evaluate (h : rpn.evaluate vars = .error e) : Reason vars rpn e := by
  rcases bind_eq_error.mp h with hrun | ⟨last, -, hlast⟩
  · exact reason_of_run hrun
  · match last, hlast with
    | [], hlast | _ :: _ :: _, hlast =>
      cases hlast
      exact .malformedExpression

theorem mem_of_ofTokens {t : Token} (h : ofTokens ts = .ok rpn) :
    t ∈ rpn ↔ t ∈ ts ∧ t.isPunctuation = false := by
  rw [(perm_of_ofTokens h).mem_iff, essential, List.mem_filter, Bool.not_eq_true']

end Rpn

/-! ## Infix tokens -/

theorem evaluateTokens_congr (h : ∀ x, .identifier x ∈ ts → vars.find? x = vars'.find? x) :
    evaluateTokens ts vars = evaluateTokens ts vars' := by
  unfold evaluateTokens
  cases hrpn : Rpn.ofTokens ts with
  | error e => rfl
  | ok rpn =>
    have hevaluate : rpn.evaluate vars = rpn.evaluate vars' :=
      Rpn.evaluate_congr fun x hx => h x ((Rpn.mem_of_ofTokens hrpn).mp hx).1
    exact congrArg (Except.mapError Error.eval) hevaluate

/-- Bindings that agree give an expression the same outcome. -/
theorem evaluate_congr (h : vars.Agrees vars') (text : String) :
    evaluate text vars = evaluate text vars' := by
  rw [evaluate_eq_evaluateTokens, evaluate_eq_evaluateTokens]
  exact congrArg _ (funext fun ts => evaluateTokens_congr fun x _ => h x)

/-- What has a value has a value for every variable. -/
theorem binds_of_evaluateTokens {v : Float} (h : evaluateTokens ts vars = .ok v) {x : String}
    (hx : x ∈ variablesOf ts) : vars.binds x = true := by
  obtain ⟨rpn, hrpn, hvalue⟩ := evaluateTokens_eq_ok.mp h
  obtain ⟨last, hrun, -⟩ := bind_eq_ok.mp hvalue
  obtain ⟨hmem, hother⟩ := mem_variablesOf.mp hx
  exact Rpn.binds_of_run hrun ((Rpn.mem_of_ofTokens hrpn).mpr ⟨hmem, rfl⟩) hother

/-- Only variables can be unbound. -/
theorem mem_of_evaluateTokens_unbound {name : String}
    (h : evaluateTokens ts vars = .error (.eval (.unboundIdentifier name))) :
    name ∈ variablesOf ts ∧ vars.binds name = false := by
  obtain ⟨rpn, hrpn, hvalue⟩ := evaluateTokens_eq_evalError.mp h
  cases Rpn.reason_of_evaluate hvalue with
  | unboundIdentifier mem free other =>
    exact ⟨mem_variablesOf.mpr ⟨((Rpn.mem_of_ofTokens hrpn).mp mem).1, other⟩, free⟩

/-- No parenthesis and no comma reaches evaluation. -/
theorem evaluateTokens_ne_unexpected (t : Token) :
    evaluateTokens ts vars ≠ .error (.eval (.unexpectedToken t)) := by
  intro h
  obtain ⟨rpn, hrpn, hvalue⟩ := evaluateTokens_eq_evalError.mp h
  cases Rpn.reason_of_evaluate hvalue with
  | unexpectedToken mem punctuation =>
    have := ((Rpn.mem_of_ofTokens hrpn).mp mem).2
    simp [punctuation] at this

end ReversePolish
