import Mathlib.Algebra.BigOperators.Group.List.Basic
import Mathlib.Algebra.Ring.Int.Defs
import ReversePolish.Outcome
import ReversePolish.Proofs.Conversion.Conservation
import ReversePolish.Proofs.Evaluation.Height

/-! # The balance of values
Every token changes the height of the stack by a fixed amount as long as no binding hides a
function, whatever the values are. Conversion drops and moves tokens but keeps the sum, which is the
number of operands less the number of tokens that join two of them. -/
namespace ReversePolish

/-- How many more values than before the stack holds after the token. -/
def Token.gain : Token → Int
  | number _ => 1
  | identifier name =>
    match Builtin.ofName? name with
    | some f => 1 - f.arity
    | none => 1
  | operator _ => -1
  | leftParen | rightParen | comma => 0

/-- How many more values than before the stack holds after all tokens. -/
def Token.balance (ts : List Token) : Int := (ts.map gain).sum

namespace Token

variable {ts us : List Token}

@[simp] theorem balance_nil : balance [] = 0 := rfl

@[simp] theorem balance_cons (t : Token) (ts : List Token) :
    balance (t :: ts) = t.gain + balance ts := List.sum_cons

@[simp] theorem balance_append (ts us : List Token) :
    balance (ts ++ us) = balance ts + balance us := by
  simp [balance]

@[simp] theorem gain_number (v : Float) : gain (.number v) = 1 := rfl

@[simp] theorem gain_operator (op : Operator) : gain (.operator op) = -1 := rfl

@[simp] theorem gain_leftParen : gain .leftParen = 0 := rfl

@[simp] theorem gain_rightParen : gain .rightParen = 0 := rfl

@[simp] theorem gain_comma : gain .comma = 0 := rfl

theorem gain_var {name : String} (h : Builtin.ofName? name = none) :
    gain (.identifier name) = 1 := by
  simp [gain, h]

@[simp] theorem gain_name (f : Builtin) : gain (.identifier f.name) = 1 - f.arity := by
  simp [gain]

theorem gain_of_isPunctuation {t : Token} (h : t.isPunctuation = true) : t.gain = 0 := by
  cases t <;> first | rfl | contradiction

theorem balance_essential (ts : List Token) : balance (essential ts) = balance ts := by
  induction ts with
  | nil => rfl
  | cons t ts ih =>
    cases ht : t.isPunctuation with
    | true => simpa [essential, ht, gain_of_isPunctuation ht] using ih
    | false => simpa [essential, ht] using ih

/-- Operators and functions of two arguments, which leave one value where there were two. -/
def isBinary : Token → Bool
  | operator _ => true
  | identifier name =>
    match Builtin.ofName? name with
    | some f => f.arity = 2
    | none => false
  | _ => false

theorem gain_eq_sub (t : Token) :
    t.gain = (if t.isOperand then 1 else 0) - (if t.isBinary then 1 else 0) := by
  cases t with
  | identifier name =>
    cases hname : Builtin.ofName? name with
    | none => simp [gain, isOperand, isBinary, hname]
    | some f =>
      rcases f.arity_eq_one_or_two with hf | hf <;>
        simp [gain, isOperand, isBinary, hname, hf]
  | number v | operator op | leftParen | rightParen | comma => rfl

/-- Functions of one argument leave the balance as it is. -/
theorem balance_eq_counts (ts : List Token) :
    balance ts = ts.countP isOperand - ts.countP isBinary := by
  induction ts with
  | nil => rfl
  | cons t ts ih =>
    rw [balance_cons, gain_eq_sub, ih, List.countP_cons, List.countP_cons]
    split <;> split <;> omega

theorem balance_perm (h : ts.Perm us) : balance ts = balance us := (h.map gain).sum_eq

end Token

namespace Rpn
open Token

variable {bound : String → Bool} {vars : Bindings} {rpn : Rpn}

theorem balance_of_ofTokens {ts : List Token} (h : ofTokens ts = .ok rpn) :
    balance rpn = balance ts := by
  rw [balance_perm (perm_of_ofTokens h), balance_essential]

theorem gain_of_demand {t : Token} {n : Nat}
    (hf : ∀ f : Builtin, .identifier f.name = t → bound f.name = false)
    (h : demand bound t = .ok n) : t.gain = 1 - n := by
  cases t with
  | number v =>
    cases h
    rfl
  | identifier name =>
    cases hname : Builtin.ofName? name with
    | none =>
      cases hb : bound name with
      | true =>
        simp only [demand, hb, Except.ok.injEq] at h
        simp [gain, hname, ← h]
      | false => simp [demand, hb, hname] at h
    | some f =>
      obtain rfl := Builtin.name_of_ofName? hname
      simp only [demand, hf f rfl, hname, Except.ok.injEq] at h
      simp [h]
  | operator op =>
    cases h
    rfl
  | leftParen | rightParen | comma => contradiction

theorem demand_ne_malformed (bound : String → Bool) (t : Token) (r : Nat) :
    demand bound t ≠ .error (.malformedExpression r) := by
  cases t with
  | identifier name =>
    simp only [demand]
    split <;> simp
  | number v | operator op | leftParen | rightParen | comma => simp [demand]

theorem heightFault?_nil (bound : String → Bool) (r : Nat) :
    heightFault? bound r [] = none ∧ r = 1 ∨
      heightFault? bound r [] = some (.malformedExpression r) ∧ r ≠ 1 := by
  by_cases hr : r = 1
  · exact .inl ⟨if_pos hr, hr⟩
  · exact .inr ⟨if_neg hr, hr⟩

section
variable {h : Nat} {t : Token} {verdict : Option EvalError}

/-- What a scan finds at the end of the tokens it finds after the first of them. -/
theorem exists_of_heightFault?_cons
    (hv : verdict = none ∨ ∃ r, verdict = some (.malformedExpression r))
    (he : heightFault? bound h (t :: rpn) = verdict) :
    ∃ n, demand bound t = .ok n ∧ n ≤ h ∧ heightFault? bound (h - n + 1) rpn = verdict := by
  cases hd : demand bound t with
  | error e =>
    simp only [heightFault?, hd] at he
    subst he
    rcases hv with hv | ⟨r, hv⟩
    · contradiction
    · cases hv
      exact absurd hd (demand_ne_malformed bound t r)
  | ok n =>
    by_cases hn : h < n
    · simp only [heightFault?, hd, hn, if_true] at he
      subst he
      simp at hv
    · simp only [heightFault?, hd, hn, if_false] at he
      exact ⟨n, rfl, Nat.le_of_not_lt hn, he⟩

/-- A scan that gets to the end of the tokens has added their balance to the height; only one that
does not begin can end with an empty stack. -/
theorem exists_height (hf : ∀ f : Builtin, .identifier f.name ∈ rpn → bound f.name = false)
    (hv : verdict = none ∨ ∃ r, verdict = some (.malformedExpression r))
    (he : heightFault? bound h rpn = verdict) :
    ∃ r : Nat, heightFault? bound r [] = verdict ∧ (r : Int) = h + balance rpn ∧
      (r = 0 → h = 0 ∧ rpn = []) := by
  induction rpn generalizing h with
  | nil => exact ⟨h, he, by simp, by simp⟩
  | cons t rpn ih =>
    obtain ⟨n, hd, hn, hrest⟩ := exists_of_heightFault?_cons hv he
    obtain ⟨r, hr, hb, hzero⟩ := ih (fun f hm => hf f (List.mem_cons_of_mem t hm)) hrest
    have hgain := gain_of_demand (fun f hm => hf f (hm ▸ List.mem_cons_self)) hd
    refine ⟨r, hr, ?_, fun h0 => absurd (hzero h0).1 (by omega)⟩
    rw [balance_cons, hgain]
    omega

end

/-- A sequence that has a value has one value more than its tokens take. -/
theorem balance_of_evaluate {v : Float} (hf : ∀ f : Builtin, vars.binds f.name = false)
    (h : evaluate rpn vars = .ok v) : balance rpn = 1 := by
  have hnone : heightFault? vars.binds 0 rpn = none := by rw [heightFault?_eq_fault?, h, fault?_ok]
  obtain ⟨r, hr, hb, -⟩ := exists_height (fun f _ => hf f) (.inl rfl) hnone
  rcases heightFault?_nil vars.binds r with ⟨-, rfl⟩ | ⟨hne, -⟩
  · simpa using hb.symm
  · simp [hr] at hne

end Rpn
end ReversePolish
