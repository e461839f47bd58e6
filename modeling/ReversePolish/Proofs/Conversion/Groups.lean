import ReversePolish.Infix.Substitution
import ReversePolish.Proofs.Conversion.Conservation
import ReversePolish.Proofs.Conversion.Nesting

/-! # Groups convert on their own
What stands between parentheses is converted as if nothing stood around them: the open parenthesis
shields the stack below it, and the closing one releases all that waits above. A group in the place
of a variable therefore yields its own conversion in the place of the variable, whatever the other
tokens are. -/
namespace ReversePolish

namespace Pending

variable {above below : List Pending}

theorem splitAtParen_append_of_some {rest : List Pending} {out : List Token}
    (h : splitAtParen above = some (out, rest)) :
    splitAtParen (above ++ below) = some (out, rest ++ below) := by
  induction above generalizing out with
  | nil => contradiction
  | cons p above ih =>
    cases p with
    | leftParen =>
      cases h
      rfl
    | operator op | function f =>
      obtain ⟨⟨now, rest⟩, hsplit, he⟩ := Option.map_eq_some_iff.mp h
      cases he
      simp [splitAtParen, ih hsplit]

theorem yielded_append (op : Operator) (above below : List Pending) :
    yielded op (above ++ leftParen :: below) =
      ((yielded op above).1, (yielded op above).2 ++ leftParen :: below) := by
  induction above with
  | nil => rfl
  | cons p above ih =>
    cases p with
    | operator top =>
      simp only [List.cons_append, yielded, ih]
      split <;> rfl
    | function f => rfl
    | leftParen => rfl

theorem called_append (above below : List Pending) :
    called (above ++ leftParen :: below) =
      ((called above).1, (called above).2 ++ leftParen :: below) := by
  match above with
  | [] | .operator _ :: _ | .function _ :: _ | .leftParen :: _ => rfl

end Pending

namespace Rpn
open Pending Token

variable {stack next above : List Pending} {out : List Token} {us ts : List Token} {x : String}

/-- A step that goes through on a stack leaves alone what an open parenthesis covers. -/
theorem step_append {t : Token} (h : step above t = .ok (out, next)) (below : List Pending) :
    step (above ++ .leftParen :: below) t = .ok (out, next ++ .leftParen :: below) := by
  cases t with
  | number v =>
    cases h
    rfl
  | identifier name =>
    simp only [step] at h ⊢
    split at h
    · cases h
      rfl
    · cases h
      rfl
  | operator op =>
    cases h
    simp [step, yielded_append]
  | leftParen =>
    cases h
    rfl
  | comma =>
    cases hs : splitAtParen above with
    | none => simp [step, hs] at h
    | some p =>
      simp only [step, hs] at h
      cases h
      simp [step, splitAtParen_append_of_some hs]
  | rightParen =>
    cases hs : splitAtParen above with
    | none => simp [step, hs] at h
    | some p =>
      simp only [step, hs] at h
      cases h
      simp [step, splitAtParen_append_of_some hs, called_append]

theorem consume_under (h : consume above ts = .ok (out, next)) (below : List Pending) :
    consume (above ++ .leftParen :: below) ts = .ok (out, next ++ .leftParen :: below) := by
  induction ts generalizing above out with
  | nil =>
    cases h
    rfl
  | cons t ts ih =>
    obtain ⟨now, mid, later, hstep, hs, rfl⟩ := exists_of_consume_cons h
    exact consume_cons_ok (step_append hstep below) (ih hs)

theorem splitAtParen_of_drain {rest : Rpn} (h : drain above = .ok rest) (below : List Pending) :
    splitAtParen (above ++ .leftParen :: below) = some (rest, below) := by
  induction above generalizing rest with
  | nil =>
    cases h
    rfl
  | cons p above ih =>
    cases p with
    | leftParen => contradiction
    | operator op | function f =>
      obtain ⟨later, hlater, rfl⟩ := map_eq_ok.mp h
      simp [splitAtParen, ih hlater]

/-- Inside of a parenthesis everything is released or waits above the parenthesis. -/
theorem exists_of_consume_inside {rpn : Rpn} (h : ofTokens us = .ok rpn) (stack : List Pending) :
    ∃ out rest inside, consume (.leftParen :: stack) us = .ok (out, inside) ∧
      splitAtParen inside = some (rest, stack) ∧ rpn = out ++ rest := by
  obtain ⟨out, above, rest, hs, hrest, rfl⟩ := exists_of_ofTokens h
  exact ⟨out, rest, above ++ .leftParen :: stack, consume_under hs stack,
    splitAtParen_of_drain hrest stack, rfl⟩

/-- A comma releases what has been read since the parenthesis, which stays open. -/
theorem consume_comma {rpn : Rpn} (h : ofTokens us = .ok rpn) (stack : List Pending) :
    consume (.leftParen :: stack) (us ++ [.comma]) = .ok (rpn, .leftParen :: stack) := by
  obtain ⟨out, rest, inside, hin, hsplit, rfl⟩ := exists_of_consume_inside h stack
  have hcomma : step inside .comma = .ok (rest, .leftParen :: stack) := by simp [step, hsplit]
  exact consume_append_ok hin (consume_singleton hcomma)

/-- A closing parenthesis releases the same, and then the function whose arguments it closes. -/
theorem consume_rightParen {rpn : Rpn} (h : ofTokens us = .ok rpn) (stack : List Pending) :
    consume (.leftParen :: stack) (us ++ [.rightParen]) =
      .ok (rpn ++ (called stack).1, (called stack).2) := by
  obtain ⟨out, rest, inside, hin, hsplit, rfl⟩ := exists_of_consume_inside h stack
  have hclose : step inside .rightParen = .ok (rest ++ (called stack).1, (called stack).2) := by
    simp [step, hsplit]
  simpa using consume_append_ok hin (consume_singleton hclose)

/-- A group releases its own conversion, and then the function whose arguments it closes. -/
theorem consume_group {rpn : Rpn} (h : ofTokens us = .ok rpn) (stack : List Pending) :
    consume stack (group us) = .ok (rpn ++ (called stack).1, (called stack).2) := by
  have hopen : step stack .leftParen = .ok ([], .leftParen :: stack) := rfl
  simpa [group] using consume_cons_ok hopen (consume_rightParen h stack)

/-- After an operator, an open parenthesis or a comma no function waits for its parentheses. -/
theorem called_of_step {t : Token} (h : step stack t = .ok (out, next))
    (ht : t.endsOperand = false) : called next = ([], next) := by
  cases t with
  | number v | identifier name | rightParen => contradiction
  | operator op =>
    cases h
    rfl
  | leftParen =>
    cases h
    rfl
  | comma =>
    simp only [step] at h
    split at h
    · cases h
      rfl
    · contradiction

theorem not_mem_held (hx : Builtin.ofName? x = none) (stack : List Pending) :
    .identifier x ∉ held stack := by
  intro h
  obtain ⟨p, -, hp⟩ := List.mem_map.mp (List.mem_filter.mp h).1
  cases p with
  | function f =>
    obtain rfl : f.name = x := Token.identifier.inj hp
    simp at hx
  | operator op | leftParen => contradiction

/-- What a step releases has waited on the stack, apart from the token itself. -/
theorem not_mem_of_step (hx : Builtin.ofName? x = none) {t : Token} (ht : t ≠ .identifier x)
    (h : step stack t = .ok (out, next)) : .identifier x ∉ out := by
  intro hmem
  have hall := (step_perm h).mem_iff.mp (List.mem_append_left _ hmem)
  rcases List.mem_append.mp hall with hheld | hself
  · exact not_mem_held hx stack hheld
  · have := (List.mem_filter.mp hself).1
    exact ht (List.mem_singleton.mp this).symm

/-- Tokens that are converted to the same wherever the variable stands are converted in the place
of the variable. -/
theorem finish_replace {rpn : Rpn} (hx : Builtin.ofName? x = none)
    (hus : ∀ before after out next, ts = before ++ .identifier x :: after →
      consume stack before = .ok (out, next) → consume next us = .ok (rpn, next)) :
    finish stack (replace x us ts) = (finish stack ts).map (replace x rpn) := by
  induction ts generalizing stack with
  | nil =>
    rw [replace_nil, finish_nil]
    cases hd : drain stack with
    | error e => rfl
    | ok rest =>
      have hmem : .identifier x ∉ rest := drain_eq_held hd ▸ not_mem_held hx stack
      simp [Except.map, replace_of_not_mem hmem]
  | cons t ts ih =>
    -- what comes before the variable in the rest comes before it in the whole
    have hrest : ∀ now mid, step stack t = .ok (now, mid) →
        finish mid (replace x us ts) = (finish mid ts).map (replace x rpn) := by
      intro now mid hstep
      refine ih fun before after out next hts hbefore => ?_
      exact hus (t :: before) after (now ++ out) next (by rw [hts]; rfl)
        (consume_cons_ok hstep hbefore)
    by_cases ht : t = .identifier x
    · subst ht
      have hvar : step stack (.identifier x) = .ok ([.identifier x], stack) := by simp [step, hx]
      have hhere : consume stack us = .ok (rpn, stack) := hus [] ts [] stack rfl rfl
      rw [replace_cons_self, finish_append hhere, hrest _ _ hvar, finish_cons hvar]
      cases finish stack ts <;> simp [Except.map]
    · rw [replace_cons_of_ne ht]
      cases hstep : step stack t with
      | error e =>
        rw [finish_cons_error hstep, finish_cons_error hstep]
        rfl
      | ok p =>
        have hnow : replace x rpn p.1 = p.1 := replace_of_not_mem (not_mem_of_step hx ht hstep)
        rw [finish_cons hstep, finish_cons hstep, hrest _ _ hstep]
        cases finish p.2 ts <;> simp [Except.map, hnow]

/-- Where a variable stands free no function waits for its parentheses. -/
theorem called_of_standsFree {before after : List Token}
    (hts : StandsFree x (before ++ .identifier x :: after))
    (h : consume [] before = .ok (out, next)) : called next = ([], next) := by
  rcases List.eq_nil_or_concat' before with rfl | ⟨init, t, rfl⟩
  · cases h
    rfl
  · have hlast : StandsFree x (init ++ t :: .identifier x :: after) := by simpa using hts
    rw [consume_append] at h
    obtain ⟨⟨first, mid⟩, -, h⟩ := bind_eq_ok.mp h
    obtain ⟨⟨later, last⟩, hstep, h⟩ := bind_eq_ok.mp h
    cases h
    obtain ⟨now, mid', later', hstep, hnil, -⟩ := exists_of_consume_cons hstep
    cases hnil
    exact called_of_step hstep hlast.endsOperand_eq_false

/-- Putting a group in the place of a variable that stands free commutes with conversion. -/
theorem ofTokens_replace {rpn : Rpn} (hx : Builtin.ofName? x = none) (hus : ofTokens us = .ok rpn)
    (hts : StandsFree x ts) :
    ofTokens (replace x (group us) ts) = (ofTokens ts).map (replace x rpn) := by
  refine finish_replace hx fun before after out next hsplit hbefore => ?_
  have hcalled : called next = ([], next) := called_of_standsFree (hsplit ▸ hts) hbefore
  simpa [hcalled] using consume_group hus next

end Rpn
end ReversePolish
