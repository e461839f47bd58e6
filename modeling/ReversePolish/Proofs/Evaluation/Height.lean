import ReversePolish.Outcome
import ReversePolish.Rpn.Height

/-! # Evaluation fails where the height does
Evaluation asks of its stack only whether it holds as many values as a token takes. Hence the scan
that counts values finds the same fault, and none where evaluation has a value. -/
namespace ReversePolish

namespace Stack

variable {routine : Routine} {stack : Stack}

theorem applyRoutine_of_lt (h : stack.length < routine.arity) :
    applyRoutine routine stack = .error .stackUnderflow := by
  cases routine with
  | unary f =>
    obtain rfl : stack = [] := by simpa [Routine.arity] using h
    rfl
  | binary f =>
    match stack, h with
    | [], _ | [_], _ => rfl
    | _ :: _ :: _, h =>
      simp only [Routine.arity, List.length_cons] at h
      omega

theorem exists_applyRoutine (h : routine.arity ≤ stack.length) :
    ∃ next, applyRoutine routine stack = .ok next ∧
      next.length = stack.length - routine.arity + 1 := by
  cases routine with
  | unary f =>
    match stack, h with
    | a :: stack, _ => exact ⟨f a :: stack, rfl, by simp [Routine.arity]⟩
  | binary f =>
    match stack, h with
    | b :: a :: stack, _ => exact ⟨f a b :: stack, rfl, by simp [Routine.arity]⟩

theorem fault?_result (stack : Stack) :
    fault? stack.result =
      if stack.length = 1 then none else some (.malformedExpression stack.length) := by
  match stack with
  | [] | [_] => rfl
  | _ :: _ :: _ => simp [result]

end Stack

namespace Rpn

variable {vars : Bindings} {t : Token}

/-- A token that takes values at all takes them as the arguments of a routine. -/
theorem evalStep_of_demand {n : Nat} (h : demand vars.binds t = .ok n) :
    (n = 0 ∧ ∃ v, ∀ stack, evalStep vars stack t = .ok (v :: stack)) ∨
      ∃ routine : Routine, routine.arity = n ∧
        ∀ stack, evalStep vars stack t = Stack.applyRoutine routine stack := by
  cases t with
  | number v =>
    cases h
    exact .inl ⟨rfl, v, fun _ => rfl⟩
  | identifier name =>
    cases hv : vars.find? name with
    | some v =>
      simp only [demand, Bindings.binds, hv, Option.isSome_some, Except.ok.injEq] at h
      exact .inl ⟨h.symm, v, fun _ => by simp [evalStep, hv]⟩
    | none =>
      cases hf : Builtin.ofName? name with
      | some f =>
        simp only [demand, Bindings.binds, hv, hf, Option.isSome_none, Except.ok.injEq] at h
        exact .inr ⟨f.routine, h, fun _ => by simp [evalStep, hv, hf]⟩
      | none => simp [demand, Bindings.binds, hv, hf] at h
  | operator op =>
    cases h
    exact .inr ⟨.binary op.apply, rfl, fun _ => rfl⟩
  | leftParen | rightParen | comma => contradiction

theorem evalStep_of_demand_error {e : EvalError} (h : demand vars.binds t = .error e)
    (stack : Stack) : evalStep vars stack t = .error e := by
  cases t with
  | identifier name =>
    cases hv : vars.find? name with
    | some v => simp [demand, Bindings.binds, hv] at h
    | none =>
      cases hf : Builtin.ofName? name with
      | some f => simp [demand, Bindings.binds, hv, hf] at h
      | none => simpa [demand, Bindings.binds, evalStep, hv, hf] using h
  | number v | operator op => contradiction
  | leftParen | rightParen | comma =>
    cases h
    rfl

theorem evalStep_of_lt {n : Nat} {stack : Stack} (h : demand vars.binds t = .ok n)
    (hn : stack.length < n) : evalStep vars stack t = .error .stackUnderflow := by
  rcases evalStep_of_demand h with ⟨rfl, -⟩ | ⟨routine, rfl, hstep⟩
  · contradiction
  · rw [hstep, Stack.applyRoutine_of_lt hn]

theorem exists_evalStep {n : Nat} {stack : Stack} (h : demand vars.binds t = .ok n)
    (hn : n ≤ stack.length) :
    ∃ next, evalStep vars stack t = .ok next ∧ next.length = stack.length - n + 1 := by
  rcases evalStep_of_demand h with ⟨rfl, v, hstep⟩ | ⟨routine, rfl, hstep⟩
  · exact ⟨v :: stack, hstep stack, rfl⟩
  · rw [hstep]
    exact Stack.exists_applyRoutine hn

theorem heightFault?_length (stack : Stack) (rpn : Rpn) :
    heightFault? vars.binds stack.length rpn = fault? (run vars stack rpn >>= Stack.result) := by
  induction rpn generalizing stack with
  | nil => exact (Stack.fault?_result stack).symm
  | cons t rpn ih =>
    rw [run_cons]
    cases hd : demand vars.binds t with
    | error e =>
      rw [evalStep_of_demand_error hd]
      simp [heightFault?, hd, bind, Except.bind]
    | ok n =>
      by_cases hn : stack.length < n
      · rw [evalStep_of_lt hd hn]
        simp [heightFault?, hd, hn, bind, Except.bind]
      · obtain ⟨next, hstep, hlen⟩ := exists_evalStep hd (Nat.le_of_not_lt hn)
        rw [hstep]
        simp only [heightFault?, hd, hn, if_false, ← hlen]
        exact ih next

/-- The scan that counts values finds the fault of the evaluation. -/
theorem heightFault?_eq_fault? (rpn : Rpn) (vars : Bindings) :
    heightFault? vars.binds 0 rpn = fault? (evaluate rpn vars) :=
  heightFault?_length [] rpn

end Rpn
end ReversePolish
