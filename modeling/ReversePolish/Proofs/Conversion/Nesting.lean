import ReversePolish.Rpn.Nesting

/-! # Conversion fails where nesting does
The stack remembers the open parentheses and operators among them; only their number decides whether
conversion succeeds and what is wrong if it does not. -/
namespace ReversePolish

namespace Pending

/-- How many parentheses are open. -/
def depth (stack : List Pending) : Nat := stack.count leftParen

variable {stack below : List Pending} {out : List Token}

@[simp] theorem depth_operator (op : Operator) (stack : List Pending) :
    depth (operator op :: stack) = depth stack := rfl

@[simp] theorem depth_function (f : Builtin) (stack : List Pending) :
    depth (function f :: stack) = depth stack := rfl

@[simp] theorem depth_leftParen (stack : List Pending) :
    depth (leftParen :: stack) = depth stack + 1 := List.count_cons_self

theorem depth_of_not_mem (h : leftParen ∉ stack) : depth stack = 0 := List.count_eq_zero.mpr h

theorem depth_of_splitAtParen (h : splitAtParen stack = some (out, below)) :
    depth stack = depth below + 1 := by
  obtain ⟨above, rfl, -, hn⟩ := exists_of_splitAtParen h
  simp [depth, List.count_append, List.count_eq_zero.mpr hn]

theorem depth_yielded (op : Operator) (stack : List Pending) :
    depth (yielded op stack).2 = depth stack := by
  obtain ⟨ops, -, hs⟩ := exists_of_yielded op stack
  have hops : leftParen ∉ ops.map operator := by simp
  calc depth (yielded op stack).2
      = depth (ops.map operator ++ (yielded op stack).2) := by
        simp [depth, List.count_append, List.count_eq_zero.mpr hops]
    _ = depth stack := by rw [← hs]

theorem depth_called (stack : List Pending) : depth (called stack).2 = depth stack := by
  unfold called
  split <;> simp

end Pending

namespace Rpn
open Pending

/-- What is read and released from `stack` on until everything is released. -/
def finish (stack : List Pending) (ts : List Token) : Except ParseError Rpn := do
  let (out, last) ← consume stack ts
  return out ++ (← drain last)

theorem finish_nil (stack : List Pending) : finish stack [] = drain stack := by
  cases hd : drain stack <;> simp [finish, consume, hd, bind, Except.bind, pure, Except.pure]

theorem finish_cons {stack next : List Pending} {t : Token} {out : List Token}
    (h : step stack t = .ok (out, next)) (ts : List Token) :
    finish stack (t :: ts) = (finish next ts).map (out ++ ·) := by
  simp only [finish, consume, h, bind, Except.bind]
  cases consume next ts with
  | error e => rfl
  | ok p => cases hd : drain p.2 <;> simp [hd, pure, Except.pure, Except.map]

theorem finish_cons_error {stack : List Pending} {t : Token} {e : ParseError}
    (h : step stack t = .error e) (ts : List Token) : finish stack (t :: ts) = .error e := by
  simp [finish, consume, h, bind, Except.bind]

theorem finish_append {stack next : List Pending} {ts : List Token} {out : List Token}
    (h : consume stack ts = .ok (out, next)) (us : List Token) :
    finish stack (ts ++ us) = (finish next us).map (out ++ ·) := by
  induction ts generalizing stack out with
  | nil =>
    cases h
    cases hf : finish next us <;> simp [hf, Except.map]
  | cons t ts ih =>
    obtain ⟨now, mid, later, hstep, hs, rfl⟩ := exists_of_consume_cons h
    rw [List.cons_append, finish_cons hstep, ih hs]
    cases finish next us <;> simp [Except.map]

theorem fault?_drain (stack : List Pending) :
    fault? (drain stack) = if depth stack = 0 then none else some .mismatchedParens := by
  induction stack with
  | nil => rfl
  | cons p stack ih =>
    cases p with
    | leftParen => simp [drain]
    | operator op | function f =>
      rw [drain, fault?_map]
      · exact ih
      · simp

/-- The scan that counts open parentheses finds the fault of the conversion. -/
theorem nestingFault?_depth (stack : List Pending) (ts : List Token) :
    nestingFault? (depth stack) ts = fault? (finish stack ts) := by
  induction ts generalizing stack with
  | nil =>
    rw [finish_nil, fault?_drain]
    rfl
  | cons t ts ih =>
    cases t with
    | number value =>
      rw [finish_cons rfl, fault?_map, ← ih]
      rfl
    | identifier name =>
      have hstep : ∃ out next, step stack (.identifier name) = .ok (out, next) ∧
          depth next = depth stack := by
        simp only [step]
        split
        · exact ⟨_, _, rfl, by simp⟩
        · exact ⟨_, _, rfl, rfl⟩
      obtain ⟨out, next, h, hd⟩ := hstep
      rw [finish_cons h, fault?_map, ← ih, hd]
      rfl
    | operator op =>
      have hd : depth (.operator op :: (yielded op stack).2) = depth stack := by
        simpa using depth_yielded op stack
      rw [finish_cons rfl, fault?_map, ← ih, hd]
      rfl
    | leftParen =>
      rw [finish_cons rfl, fault?_map, ← ih, depth_leftParen]
      rfl
    | comma =>
      cases hs : splitAtParen stack with
      | none =>
        have hstep : step stack .comma = .error .misplacedComma := by simp [step, hs]
        rw [finish_cons_error hstep]
        simp [nestingFault?, depth_of_not_mem (not_mem_of_splitAtParen hs)]
      | some p =>
        have hstep : step stack .comma = .ok (p.1, .leftParen :: p.2) := by simp [step, hs]
        have hd := depth_of_splitAtParen hs
        rw [finish_cons hstep, fault?_map, ← ih]
        simp [nestingFault?, hd]
    | rightParen =>
      cases hs : splitAtParen stack with
      | none =>
        have hstep : step stack .rightParen = .error .mismatchedParens := by simp [step, hs]
        rw [finish_cons_error hstep]
        simp [nestingFault?, depth_of_not_mem (not_mem_of_splitAtParen hs)]
      | some p =>
        have hstep : step stack .rightParen = .ok (p.1 ++ (called p.2).1, (called p.2).2) := by
          simp [step, hs]
        have hd := depth_of_splitAtParen hs
        rw [finish_cons hstep, fault?_map, ← ih, depth_called]
        simp [nestingFault?, hd]

theorem nestingFault?_eq_fault? (ts : List Token) : nestingFault? 0 ts = fault? (ofTokens ts) :=
  nestingFault?_depth [] ts

end Rpn
end ReversePolish
