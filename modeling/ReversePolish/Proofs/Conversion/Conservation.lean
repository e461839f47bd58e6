import ReversePolish.Rpn

/-! # Conversion conserves tokens
Parentheses and commas are dropped, and every other token is at any time either released or waiting
on the stack. Numbers and variables never wait, so they keep their order. -/
namespace ReversePolish

/-- Parentheses and commas, which have no place in postfix order. -/
def Token.isPunctuation : Token → Bool
  | leftParen | rightParen | comma => true
  | _ => false

/-- The tokens without parentheses and commas. -/
def Token.essential (ts : List Token) : List Token := ts.filter fun t => !t.isPunctuation

/-- Numbers, and identifiers that are no function names. -/
def Token.isOperand : Token → Bool
  | number _ => true
  | identifier name => (Builtin.ofName? name).isNone
  | _ => false

/-- The numbers and variables among the tokens. -/
def Token.operands (ts : List Token) : List Token := ts.filter isOperand

namespace Pending

/-- The tokens that the stack holds back, the top one first. -/
def held (stack : List Pending) : List Token := Token.essential (stack.map token)

variable {stack below : List Pending} {out : List Token}

@[simp] theorem held_operator (op : Operator) (stack : List Pending) :
    held (operator op :: stack) = .operator op :: held stack := rfl

@[simp] theorem held_function (f : Builtin) (stack : List Pending) :
    held (function f :: stack) = .identifier f.name :: held stack := rfl

@[simp] theorem held_leftParen (stack : List Pending) : held (leftParen :: stack) = held stack :=
  rfl

theorem held_append (above below : List Pending) :
    held (above ++ below) = held above ++ held below := by
  simp [held, Token.essential]

/-- Above the nearest open parenthesis everything is held back. -/
theorem held_of_not_mem {above : List Pending} (h : leftParen ∉ above) :
    held above = above.map token := by
  induction above with
  | nil => rfl
  | cons p above ih =>
    simp only [List.mem_cons, not_or] at h
    cases p with
    | leftParen => simp at h
    | operator op | function f => simp [ih h.2, token]

theorem held_of_splitAtParen (h : splitAtParen stack = some (out, below)) :
    held stack = out ++ held below := by
  obtain ⟨above, rfl, rfl, hn⟩ := exists_of_splitAtParen h
  rw [held_append, held_of_not_mem hn, held_leftParen]

theorem held_yielded (op : Operator) (stack : List Pending) :
    (yielded op stack).1 ++ held (yielded op stack).2 = held stack := by
  obtain ⟨ops, hout, hs⟩ := exists_of_yielded op stack
  have hops : held (ops.map operator) = ops.map Token.operator := by
    rw [held_of_not_mem (by simp), List.map_map]
    rfl
  calc (yielded op stack).1 ++ held (yielded op stack).2
      = held (ops.map operator) ++ held (yielded op stack).2 := by rw [hout, hops]
    _ = held stack := by rw [← held_append, ← hs]

theorem held_called (stack : List Pending) :
    (called stack).1 ++ held (called stack).2 = held stack := by
  unfold called
  split <;> rfl

theorem isOperand_token (p : Pending) : p.token.isOperand = false := by
  cases p with
  | function f => simp [token, Token.isOperand]
  | operator op | leftParen => rfl

/-- Nothing that waits is an operand. -/
theorem operands_held (stack : List Pending) : Token.operands (held stack) = [] := by
  refine List.filter_eq_nil_iff.mpr fun t ht => ?_
  obtain ⟨p, -, rfl⟩ := List.mem_map.mp (List.mem_filter.mp ht).1
  simp [isOperand_token]

theorem operands_of_held {rest : List Token} (h : held stack = out ++ rest) :
    Token.operands out = [] := by
  have hnil := operands_held stack
  rw [h, Token.operands, List.filter_append] at hnil
  exact (List.append_eq_nil_iff.mp hnil).1

end Pending

namespace Rpn
open Pending Token

variable {stack next : List Pending} {out : List Token} {rpn : Rpn}

theorem step_perm {t : Token} (h : step stack t = .ok (out, next)) :
    (out ++ held next).Perm (held stack ++ essential [t]) := by
  cases t with
  | number value =>
    cases h
    exact List.perm_append_comm
  | identifier name =>
    simp only [step] at h
    split at h
    · rename_i f hf
      cases h
      rw [← Builtin.name_of_ofName? hf]
      exact (List.perm_append_singleton _ _).symm
    · cases h
      exact List.perm_append_comm
  | operator op =>
    cases h
    rw [← held_yielded op stack]
    exact List.perm_middle.trans (List.perm_append_singleton _ _).symm
  | leftParen =>
    cases h
    simp [essential, isPunctuation]
  | comma =>
    simp only [step] at h
    split at h
    · rename_i hs
      cases h
      simp [held_of_splitAtParen hs, essential, isPunctuation]
    · contradiction
  | rightParen =>
    simp only [step] at h
    split at h
    · rename_i below hs
      cases h
      simp [held_of_splitAtParen hs, held_called, essential, isPunctuation]
    · contradiction

theorem consume_perm {ts : List Token} (h : consume stack ts = .ok (out, next)) :
    (out ++ held next).Perm (held stack ++ essential ts) := by
  induction ts generalizing stack out with
  | nil =>
    cases h
    simp [essential]
  | cons t ts ih =>
    obtain ⟨now, mid, later, hstep, hs, rfl⟩ := exists_of_consume_cons h
    have hsplit : essential (t :: ts) = essential [t] ++ essential ts :=
      List.filter_append [t] ts
    have hnow := (step_perm hstep).append_right (essential ts)
    have hlater := (ih hs).append_left now
    rw [hsplit]
    simpa using hlater.trans (by simpa using hnow)

theorem drain_eq_held (h : drain stack = .ok rpn) : rpn = held stack := by
  induction stack generalizing rpn with
  | nil =>
    cases h
    rfl
  | cons p stack ih =>
    cases p with
    | leftParen => contradiction
    | operator op | function f =>
      obtain ⟨q, hq, rfl⟩ := map_eq_ok.mp h
      simp [ih hq, token]

theorem operands_of_step {t : Token} (h : step stack t = .ok (out, next)) :
    operands out = operands [t] := by
  cases t with
  | number value =>
    cases h
    rfl
  | identifier name =>
    simp only [step] at h
    split at h
    · rename_i f hf
      cases h
      simp [operands, isOperand, hf]
    · cases h
      rfl
  | operator op =>
    cases h
    exact operands_of_held (held_yielded op stack).symm
  | leftParen =>
    cases h
    rfl
  | comma =>
    simp only [step] at h
    split at h
    · rename_i hs
      cases h
      exact operands_of_held (held_of_splitAtParen hs)
    · contradiction
  | rightParen =>
    simp only [step] at h
    split at h
    · rename_i now below hs
      cases h
      have hheld : held stack = now ++ (called below).1 ++ held (called below).2 := by
        rw [held_of_splitAtParen hs, List.append_assoc, held_called]
      exact operands_of_held hheld
    · contradiction

theorem operands_of_consume {ts : List Token} (h : consume stack ts = .ok (out, next)) :
    operands out = operands ts := by
  induction ts generalizing stack out with
  | nil =>
    cases h
    rfl
  | cons t ts ih =>
    obtain ⟨now, mid, later, hstep, hs, rfl⟩ := exists_of_consume_cons h
    calc operands (now ++ later)
        = operands now ++ operands later := List.filter_append now later
      _ = operands [t] ++ operands ts := by rw [operands_of_step hstep, ih hs]
      _ = operands (t :: ts) := (List.filter_append [t] ts).symm

/-- The output has the tokens of the input but for parentheses and commas, each as often. -/
theorem perm_of_ofTokens {ts : List Token} (h : ofTokens ts = .ok rpn) :
    rpn.Perm (essential ts) := by
  obtain ⟨out, stack, rest, hs, hrest, rfl⟩ := exists_of_ofTokens h
  rw [drain_eq_held hrest]
  exact consume_perm hs

theorem operands_of_ofTokens {ts : List Token} (h : ofTokens ts = .ok rpn) :
    operands rpn = operands ts := by
  obtain ⟨out, stack, rest, hs, hrest, rfl⟩ := exists_of_ofTokens h
  calc operands (out ++ rest)
      = operands out ++ operands (held stack) := by
        rw [operands, List.filter_append, drain_eq_held hrest]
        rfl
    _ = operands ts := by rw [operands_held, List.append_nil, operands_of_consume hs]

/-- Whatever tokens are converted, parentheses and commas are dropped, each of the others comes out
as often as it went in, and numbers and variables keep their order. -/
theorem ofTokens_conserves {ts : List Token} (h : ofTokens ts = .ok rpn) :
    rpn.Perm (essential ts) ∧ operands rpn = operands ts :=
  ⟨perm_of_ofTokens h, operands_of_ofTokens h⟩

/-- The tokens of `2 * max(b, - 2) 2 sin` are no expression. -/
theorem ofTokens_conserves_surplus :
    ∃ rpn, ofTokens
        [.number 2, .operator .multiply, .identifier "max", .leftParen, .identifier "b", .comma,
          .operator .subtract, .number 2, .rightParen, .number 2, .identifier "sin"] = .ok rpn ∧
      rpn.Perm
        [.number 2, .operator .multiply, .identifier "max", .identifier "b", .operator .subtract,
          .number 2, .number 2, .identifier "sin"] ∧
      operands rpn = [.number 2, .identifier "b", .number 2, .number 2] := by
  have h : ofTokens
      [.number 2, .operator .multiply, .identifier "max", .leftParen, .identifier "b", .comma,
        .operator .subtract, .number 2, .rightParen, .number 2, .identifier "sin"] =
      .ok [.number 2, .identifier "b", .number 2, .operator .subtract, .identifier "max",
        .number 2, .identifier "sin", .operator .multiply] := rfl
  exact ⟨_, h, ofTokens_conserves h⟩

end Rpn
end ReversePolish
