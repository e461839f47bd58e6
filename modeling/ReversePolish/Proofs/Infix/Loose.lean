import ReversePolish.Infix
import ReversePolish.Proofs.Evaluation.Balance

/-! # Loose expressions
A grammar of tokens without a surplus: operators and commas may lack their operands and functions
their arguments, but every operand has its place. Whatever is missing lowers the balance of the
tokens, so a loose expression of full balance lacks nothing and is an infix expression. -/
namespace ReversePolish
open Token

/-- Tokens between two parentheses with the given number of commas outside inner parentheses.
`after` says whether an operand stands before them. -/
inductive Loose : Bool → Nat → List Token → Prop
  | nil (after : Bool) : Loose after 0 []
  | number (value : Float) {m : Nat} {ts : List Token} (h : Loose true m ts) :
      Loose false m (.number value :: ts)
  | var {name : String} (hname : Builtin.ofName? name = none) {m : Nat} {ts : List Token}
      (h : Loose true m ts) : Loose false m (.identifier name :: ts)
  | bare (f : Builtin) {m : Nat} {ts : List Token} (h : Loose true m ts) :
      Loose false m (.identifier f.name :: ts)
  | call {f : Builtin} {k m : Nat} {us ts : List Token} (hk : k < f.arity)
      (hu : Loose false k us) (h : Loose true m ts) :
      Loose false m (.identifier f.name :: .leftParen :: us ++ .rightParen :: ts)
  | parens {m : Nat} {us ts : List Token} (hu : Loose false 0 us) (h : Loose true m ts) :
      Loose false m (.leftParen :: us ++ .rightParen :: ts)
  | operator (after : Bool) (op : Operator) {m : Nat} {ts : List Token} (h : Loose false m ts) :
      Loose after m (.operator op :: ts)
  | comma (after : Bool) {m : Nat} {ts : List Token} (h : Loose false m ts) :
      Loose after (m + 1) (.comma :: ts)

/-- How many operands more than commas may still come: `after` an operand none. -/
def vacancy : Bool → Int
  | true => 0
  | false => 1

/-- Every operand has its place, so there are never too many of them. -/
theorem Loose.balance_le {after : Bool} {m : Nat} {ts : List Token} (h : Loose after m ts) :
    balance ts ≤ m + vacancy after := by
  induction h with
  | nil after => cases after <;> decide
  | number value h ih =>
    simp only [balance_cons, gain_number, vacancy] at ih ⊢
    omega
  | var hname h ih =>
    simp only [balance_cons, gain_var hname, vacancy] at ih ⊢
    omega
  | bare f h ih =>
    have hpos := f.arity_pos
    simp only [balance_cons, gain_name, vacancy] at ih ⊢
    omega
  | call hk hu h ihu ih =>
    simp only [List.cons_append, balance_cons, balance_append, gain_name,
      gain_leftParen, gain_rightParen, vacancy] at ihu ih ⊢
    omega
  | parens hu h ihu ih =>
    simp only [List.cons_append, balance_cons, balance_append, gain_leftParen,
      gain_rightParen, vacancy] at ihu ih ⊢
    omega
  | operator after op h ih =>
    cases after <;> simp only [balance_cons, gain_operator, vacancy] at ih ⊢ <;> omega
  | comma after h ih =>
    cases after <;> simp only [balance_cons, gain_comma, vacancy] at ih ⊢ <;> omega

/-- The tokens denote a well-formed operand. -/
def IsOperand (ts : List Token) : Prop := ∃ t, Denotes Level.primary ts t ∧ t.WellFormed

/-- The tokens denote `k` well-formed trees with commas between them. -/
def AreArguments (k : Nat) (ts : List Token) : Prop :=
  ∃ args, DenoteArguments ts args ∧ args.length = k ∧ ∀ t ∈ args, t.WellFormed

section
variable {n k m : Nat} {us ts : List Token} {op : Operator} {s t : Tree}

theorem IsOperand.number (value : Float) : IsOperand [.number value] :=
  ⟨_, .number value, Tree.wellFormed_number value⟩

theorem IsOperand.var {name : String} (h : Builtin.ofName? name = none) :
    IsOperand [.identifier name] :=
  ⟨_, .var name, Tree.wellFormed_var.mpr h⟩

theorem IsOperand.call {f : Builtin} (h : AreArguments f.arity us) :
    IsOperand (.identifier f.name :: .leftParen :: us ++ [.rightParen]) := by
  obtain ⟨args, hd, hlen, hw⟩ := h
  exact ⟨_, .call f hd, Tree.wellFormed_call.mpr ⟨hlen, hw⟩⟩

theorem IsOperand.parens (h : AreArguments 1 us) :
    IsOperand (.leftParen :: us ++ [.rightParen]) := by
  obtain ⟨args, hd, hlen, hw⟩ := h
  match args, hd with
  | [t], .one hd => exact ⟨t, .parens hd, hw t (by simp)⟩

theorem IsOperand.arguments (h : IsOperand us) : AreArguments 1 us := by
  obtain ⟨t, hd, hw⟩ := h
  exact ⟨[t], .one (hd.of_le (by decide)), rfl, by simpa using hw⟩

theorem exists_operation {ts : List Token} {t : Tree} (hu : Denotes Level.primary us s)
    (hs : s.WellFormed) (h : Denotes op.precedence ts t) (ht : t.WellFormed)
    (hleft : op.associativity = .left → Denotes (op.precedence + 1) ts t) :
    ∃ t' : Tree, Denotes op.precedence (us ++ .operator op :: ts) t' ∧ t'.WellFormed := by
  have hlevel : op.precedence + 1 ≤ Level.primary := by cases op <;> decide
  refine ⟨.operation op s t, ?_, Tree.wellFormed_operation.mpr ⟨hs, ht⟩⟩
  cases ha : op.associativity with
  | left =>
    have hu' := hu.of_le (Nat.le_of_succ_le hlevel)
    exact .left (Level.groupsLeft_iff.mpr ⟨ha, rfl⟩) hu' (hleft ha)
  | right => exact .right (Level.groupsRight_iff.mpr ⟨ha, rfl⟩) (hu.of_le hlevel) h

/-- An operand with an operator joins an expression from the left, at the place that the strength
of the operator gives it. -/
theorem exists_prepend {n : Nat} {ts : List Token} {t : Tree} (hu : Denotes Level.primary us s)
    (hs : s.WellFormed) : Denotes n ts t → n ≤ op.precedence → t.WellFormed →
      ∃ t' : Tree, Denotes n (us ++ .operator op :: ts) t' ∧ t'.WellFormed
  | .number _, hn, _ | .var _, hn, _ | .call _ _, hn, _ | .parens _, hn, _ => by
    exfalso
    cases op <;> contradiction
  | .tighter h, hn, ht => by
    -- An operator of just this level takes all the tokens for its right operand.
    rcases Nat.lt_or_eq_of_le hn with hlt | rfl
    · obtain ⟨t', hd, hw⟩ := exists_prepend hu hs h hlt ht
      exact ⟨t', .tighter hd, hw⟩
    · exact exists_operation hu hs (.tighter h) ht fun _ => h
  | .left level hl hr, hn, ht => by
    obtain ⟨hwl, hwr⟩ := Tree.wellFormed_operation.mp ht
    obtain ⟨l', hd, hw⟩ := exists_prepend hu hs hl hn hwl
    have hd' := Denotes.left level hd hr
    exact ⟨_, by simpa using hd', Tree.wellFormed_operation.mpr ⟨hw, hwr⟩⟩
  | .right level hl hr, hn, ht => by
    rcases Nat.lt_or_eq_of_le hn with hlt | heq
    · obtain ⟨hwl, hwr⟩ := Tree.wellFormed_operation.mp ht
      obtain ⟨l', hd, hw⟩ := exists_prepend hu hs hl hlt hwl
      have hd' := Denotes.right level hd hr
      exact ⟨_, by simpa using hd', Tree.wellFormed_operation.mpr ⟨hw, hwr⟩⟩
    · obtain ⟨assoc, hp⟩ := Level.groupsRight_iff.mp level
      have hright := (Operator.associativity_congr (hp.trans heq)).symm.trans assoc
      have hd := Denotes.right level hl hr
      rw [heq] at hd ⊢
      refine exists_operation hu hs hd ht fun hleft => ?_
      rw [hright] at hleft
      contradiction

theorem AreArguments.operator (op : Operator) (hu : IsOperand us) (h : AreArguments (m + 1) ts) :
    AreArguments (m + 1) (us ++ .operator op :: ts) := by
  obtain ⟨s, hs, hws⟩ := hu
  obtain ⟨args, hd, hlen, hw⟩ := h
  have hlevel : Level.expression ≤ op.precedence := by cases op <;> decide
  match args, hd with
  | [t], .one hd =>
    obtain ⟨t', hd', hw'⟩ := exists_prepend hs hws hd hlevel (hw t (by simp))
    exact ⟨[t'], .one hd', hlen, by simpa using hw'⟩
  | t :: _ :: _, .more hd hs' =>
    obtain ⟨t', hd', hw'⟩ := exists_prepend hs hws hd hlevel (hw t (by simp))
    refine ⟨t' :: _, by simpa using DenoteArguments.more hd' hs', hlen, ?_⟩
    intro x hx
    rcases List.mem_cons.mp hx with rfl | hx
    · exact hw'
    · exact hw x (List.mem_cons_of_mem _ hx)

theorem AreArguments.comma (hu : IsOperand us) (h : AreArguments (m + 1) ts) :
    AreArguments (m + 2) (us ++ .comma :: ts) := by
  obtain ⟨s, hs, hws⟩ := hu
  obtain ⟨args, hd, hlen, hw⟩ := h
  match args, hlen with
  | t :: args, hlen =>
    refine ⟨s :: t :: args, .more (hs.of_le (by decide)) hd, by simp [hlen], ?_⟩
    intro x hx
    rcases List.mem_cons.mp hx with rfl | hx
    · exact hws
    · exact hw x hx

/-- The tokens denote `m + 1` well-formed trees, `after` any operand if there is one. -/
def Complete (m : Nat) (ts : List Token) : Bool → Prop
  | false => AreArguments (m + 1) ts
  | true => ∀ us, IsOperand us → AreArguments (m + 1) (us ++ ts)

/-- A loose expression of full balance lacks nothing. -/
theorem Loose.complete {after : Bool} (h : Loose after m ts)
    (hb : balance ts = m + vacancy after) : Complete m ts after := by
  induction h with
  | nil after =>
    cases after with
    | false => contradiction
    | true => exact fun us hu => by simpa using hu.arguments
  | number value h ih =>
    simp only [balance_cons, gain_number, vacancy] at hb ih
    exact ih (by omega) _ (.number value)
  | var hname h ih =>
    simp only [balance_cons, gain_var hname, vacancy] at hb ih
    exact ih (by omega) _ (.var hname)
  | bare f h ih =>
    have hle := h.balance_le
    have hpos := f.arity_pos
    simp only [balance_cons, gain_name, vacancy] at hb hle
    omega
  | @call f k m us ts hk hu h ihu ih =>
    have hle := h.balance_le
    have hleu := hu.balance_le
    simp only [List.cons_append, balance_cons, balance_append, gain_name,
      gain_leftParen, gain_rightParen, vacancy] at *
    have hk : k + 1 = f.arity := by omega
    have hargs : AreArguments (k + 1) us := ihu (by omega)
    rw [hk] at hargs
    show AreArguments (m + 1) _
    simpa using ih (by omega) _ (.call hargs)
  | @parens m us ts hu h ihu ih =>
    have hle := h.balance_le
    have hleu := hu.balance_le
    simp only [List.cons_append, balance_cons, balance_append, gain_leftParen,
      gain_rightParen, vacancy] at *
    have hargs : AreArguments 1 us := ihu (by omega)
    show AreArguments (m + 1) _
    simpa using ih (by omega) _ (.parens hargs)
  | operator after op h ih =>
    have hle := h.balance_le
    cases after with
    | false =>
      simp only [balance_cons, gain_operator, vacancy] at hb hle
      omega
    | true =>
      simp only [balance_cons, gain_operator, vacancy] at hb ih
      exact fun us hu => .operator op hu (ih (by omega))
  | comma after h ih =>
    have hle := h.balance_le
    cases after with
    | false =>
      simp only [balance_cons, gain_comma, vacancy] at hb hle
      omega
    | true =>
      simp only [balance_cons, gain_comma, vacancy] at hb ih
      exact fun us hu => .comma hu (ih (by omega))

end

end ReversePolish
