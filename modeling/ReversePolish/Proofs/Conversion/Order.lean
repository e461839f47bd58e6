import Mathlib.Data.List.Chain
import ReversePolish.Rpn.Yard

/-! # What waits is in order
An operator is put on the stack only after everything that it yields to has been released, and
otherwise the stack shrinks or takes up something that is no operator. So of two operators on top of
each other the upper one never yields, whether or not the tokens make sense. A stack that may hold
any token holds the same at any time as the stack of the conversion, and nothing else. -/
namespace ReversePolish

/-! ## Operators on top of each other -/

namespace Operator

variable {op top : Operator} {ops : List Operator} {powers : Nat} {product sum : Option Operator}

/-- An operator stands firm on a weaker one, and a power also on a power. -/
theorem yieldsTo_eq_false_iff (op top : Operator) :
    op.yieldsTo top = false ↔
      top.precedence < op.precedence ∨ op = .power ∧ top = .power := by
  cases op <;> cases top <;> decide

theorem precedence_lt_of_ne_power (hop : op ≠ .power) (h : op.yieldsTo top = false) :
    top.precedence < op.precedence :=
  ((yieldsTo_eq_false_iff op top).mp h).resolve_right fun hpower => hop hpower.1

/-- Only a power stands firm on powers and products. -/
theorem eq_sum_of_ne_power (hop : op ≠ .power)
    (hproduct : ∀ op ∈ product, op = .multiply ∨ op = .divide)
    (h : ∀ top ∈ (List.replicate powers power ++ product.toList ++ sum.toList).head?,
      op.yieldsTo top = false) :
    List.replicate powers power ++ product.toList ++ sum.toList = sum.toList := by
  cases powers with
  | succ n =>
    have hlt : power.precedence < op.precedence := precedence_lt_of_ne_power hop (h .power rfl)
    cases op <;> contradiction
  | zero =>
    cases product with
    | none => rfl
    | some q =>
      have hlt : q.precedence < op.precedence := precedence_lt_of_ne_power hop (h q rfl)
      rcases hproduct q rfl with rfl | rfl <;> cases op <;> contradiction

theorem layered_of_isChain (h : ops.IsChain fun upper lower => upper.yieldsTo lower = false) :
    Layered ops := by
  induction ops with
  | nil => exact ⟨0, none, none, rfl, by simp, by simp⟩
  | cons op ops ih =>
    obtain ⟨hhead, htail⟩ := List.isChain_cons.mp h
    obtain ⟨powers, product, sum, rfl, hproduct, hsum⟩ := ih htail
    by_cases hop : op = .power
    · subst hop
      exact ⟨powers + 1, product, sum, rfl, hproduct, hsum⟩
    -- the powers and the product that may wait below have been released for `op`
    have hrest := eq_sum_of_ne_power hop hproduct hhead
    rw [hrest] at hhead ⊢
    cases op with
    | power => contradiction
    | multiply | divide => exact ⟨0, some _, sum, rfl, by simp, hsum⟩
    | add | subtract =>
      cases sum with
      | none => exact ⟨0, none, some _, rfl, by simp, by simp⟩
      | some q =>
        have hfirm := hhead q rfl
        rcases hsum q rfl with rfl | rfl <;> contradiction

end Operator

/-! ## The stack of the conversion -/

/-- Of two operators the upper one does not yield to the lower one. -/
def Token.Covers (upper lower : Token) : Prop :=
  ∀ op top, upper = .operator op → lower = .operator top → op.yieldsTo top = false

namespace Pending

/-- Each token on the stack covers the one below it. -/
def InOrder (stack : List Pending) : Prop := (stack.map token).IsChain Token.Covers

variable {stack next below : List Pending} {p : Pending} {out : List Token} {t : Token}

theorem inOrder_cons (h : InOrder below) (hp : ∀ q ∈ below.head?, p.token.Covers q.token) :
    InOrder (p :: below) := by
  refine List.isChain_cons.mpr ⟨fun u hu => ?_, h⟩
  rw [List.head?_map] at hu
  obtain ⟨q, hq, rfl⟩ := Option.map_eq_some_iff.mp hu
  exact hp q hq

/-- A function name or an open parenthesis may be put on any stack. -/
theorem InOrder.push (h : InOrder below) (hp : ∀ op, p ≠ .operator op) : InOrder (p :: below) := by
  refine inOrder_cons h fun q _ => ?_
  cases p with
  | operator op => exact absurd rfl (hp op)
  | function f | leftParen => rintro op top ⟨⟩

theorem InOrder.of_suffix (h : InOrder stack) (hbelow : below <:+ stack) : InOrder below :=
  List.IsChain.suffix h (hbelow.map token)

theorem suffix_of_splitAtParen (h : splitAtParen stack = some (out, below)) : below <:+ stack := by
  obtain ⟨above, rfl, -, -⟩ := exists_of_splitAtParen h
  exact (List.suffix_cons leftParen below).trans (List.suffix_append above _)

theorem yielded_suffix (op : Operator) (stack : List Pending) : (yielded op stack).2 <:+ stack := by
  obtain ⟨ops, -, hs⟩ := exists_of_yielded op stack
  exact ⟨ops.map operator, hs.symm⟩

theorem called_suffix (stack : List Pending) : (called stack).2 <:+ stack := by
  unfold called
  split
  · exact List.suffix_cons _ _
  · exact List.suffix_refl _

/-- The operator that `op` meets after releasing what it yields to makes it stop. -/
theorem covers_of_mem_yielded (op : Operator) (stack : List Pending) :
    ∀ q ∈ (yielded op stack).2.head?, (operator op).token.Covers q.token := by
  induction stack with
  | nil => simp [yielded]
  | cons p stack ih =>
    cases p with
    | operator top =>
      simp only [yielded]
      split
      · exact ih
      · rename_i hfirm
        rintro q ⟨⟩ op' top' ⟨⟩ ⟨⟩
        exact Bool.eq_false_iff.mpr hfirm
    | function f | leftParen =>
      rintro q ⟨⟩ op' top' - ⟨⟩

theorem InOrder.step (h : InOrder stack) (hstep : Rpn.step stack t = .ok (out, next)) :
    InOrder next := by
  cases t with
  | number value =>
    cases hstep
    exact h
  | identifier name =>
    simp only [Rpn.step] at hstep
    split at hstep
    · cases hstep
      exact h.push nofun
    · cases hstep
      exact h
  | operator op =>
    -- the only token that is put on the stack and can break the order
    cases hstep
    exact inOrder_cons (h.of_suffix (yielded_suffix op stack)) (covers_of_mem_yielded op stack)
  | leftParen =>
    cases hstep
    exact h.push nofun
  | comma =>
    simp only [Rpn.step] at hstep
    split at hstep
    · rename_i hs
      cases hstep
      exact (h.of_suffix (suffix_of_splitAtParen hs)).push nofun
    · contradiction
  | rightParen =>
    simp only [Rpn.step] at hstep
    split at hstep
    · rename_i below hs
      cases hstep
      exact h.of_suffix ((called_suffix below).trans (suffix_of_splitAtParen hs))
    · contradiction

theorem InOrder.consume {ts : List Token} (h : InOrder stack)
    (hs : Rpn.consume stack ts = .ok (out, next)) : InOrder next := by
  induction ts generalizing stack out with
  | nil =>
    cases hs
    exact h
  | cons t ts ih =>
    obtain ⟨now, mid, later, hstep, hlater, -⟩ := Rpn.exists_of_consume_cons hs
    exact ih (h.step hstep) hlater

end Pending

/-! ## The yard -/

namespace Yard
open Pending

theorem releaseToParen_map (released : List Token) (stack : List Pending) :
    releaseToParen released (stack.map token) =
      (splitAtParen stack).map fun (out, below) => ofStack (released ++ out) below := by
  induction stack generalizing released with
  | nil => rfl
  | cons p stack ih =>
    cases p with
    | leftParen => simp [releaseToParen, splitAtParen, token, ofStack]
    | operator op | function f =>
      simp [releaseToParen, splitAtParen, token, ih, Function.comp_def]

theorem releaseYielded_map (op : Operator) (released : List Token) (stack : List Pending) :
    releaseYielded op released (stack.map token) =
      ofStack (released ++ (yielded op stack).1) (yielded op stack).2 := by
  induction stack generalizing released with
  | nil => simp [releaseYielded, yielded, ofStack]
  | cons p stack ih =>
    cases p with
    | operator top =>
      simp only [List.map_cons, token, releaseYielded, yielded]
      split
      · simp [ih]
      · simp [ofStack, token]
    | function f | leftParen => simp [releaseYielded, yielded, token, ofStack]

theorem releaseCalled_ofStack (released : List Token) (stack : List Pending) :
    (ofStack released stack).releaseCalled =
      ofStack (released ++ (called stack).1) (called stack).2 := by
  cases stack with
  | nil => simp [ofStack, releaseCalled, called]
  | cons p stack => cases p <;> simp [ofStack, token, releaseCalled, called]

/-- The yard does with a token what the conversion does with it. -/
theorem read_ofStack (released : List Token) (stack : List Pending) (t : Token) :
    (ofStack released stack).read t =
      (Rpn.step stack t).map fun (out, next) => ofStack (released ++ out) next := by
  cases t with
  | number value => rfl
  | identifier name =>
    cases hf : Builtin.ofName? name with
    | none => simp [read, Rpn.step, hf, ofStack, Except.map]
    | some f =>
      have hname := Builtin.name_of_ofName? hf
      simp [read, Rpn.step, hf, ofStack, Except.map, token, hname]
  | operator op => simp [read, Rpn.step, releaseYielded_map, ofStack, Except.map, token]
  | leftParen => simp [read, Rpn.step, ofStack, Except.map, token]
  | comma =>
    cases hs : splitAtParen stack <;>
      simp [read, Rpn.step, releaseToParen_map, hs, ofStack, Except.map, token]
  | rightParen =>
    cases hs : splitAtParen stack with
    | none => simp [read, Rpn.step, ofStack, releaseToParen_map, hs, Except.map]
    | some p =>
      have hcalled := releaseCalled_ofStack (released ++ p.1) p.2
      simpa [read, Rpn.step, ofStack, releaseToParen_map, hs, Except.map] using hcalled

theorem readAll_ofStack (released : List Token) (stack : List Pending) (ts : List Token) :
    (ofStack released stack).readAll ts =
      (Rpn.consume stack ts).map fun (out, last) => ofStack (released ++ out) last := by
  -- what has been released before only stands in front, so the induction is over any of it
  induction ts generalizing released stack with
  | nil => simp [readAll, Rpn.consume, Except.map, pure, Except.pure]
  | cons t ts ih =>
    have hcons : (ofStack released stack).readAll (t :: ts) =
        (ofStack released stack).read t >>= fun z => z.readAll ts := List.foldlM_cons
    rw [hcons, read_ofStack, Rpn.consume]
    cases Rpn.step stack t with
    | error e => rfl
    | ok p =>
      simp only [Except.map, bind, Except.bind, ih]
      cases Rpn.consume p.2 ts <;> simp [pure, Except.pure]

theorem releaseAll_map (closing : Except ParseError Rpn) (released : List Token)
    (stack : List Pending) :
    releaseAll closing released (stack.map token) =
      (Rpn.drain stack).map (released ++ ·) := by
  induction stack generalizing released with
  | nil => simp [releaseAll, Rpn.drain, Except.map]
  | cons p stack ih =>
    cases p with
    | leftParen => rfl
    | operator op | function f =>
      simp only [List.map_cons, token, releaseAll, Rpn.drain, ih]
      cases Rpn.drain stack <;> simp [Except.map]

theorem readAll_empty (ts : List Token) :
    empty.readAll ts = (Rpn.consume [] ts).map fun (out, stack) => ofStack out stack :=
  readAll_ofStack [] [] ts

/-- The yard converts as the conversion does, and never has to answer a closing parenthesis that
waits. -/
theorem convert_eq_ofTokens (closing : Except ParseError Rpn) (ts : List Token) :
    convert closing ts = Rpn.ofTokens ts := by
  rw [convert, Rpn.ofTokens, readAll_empty]
  cases Rpn.consume [] ts with
  | error e => rfl
  | ok p =>
    simp only [Except.map, bind, Except.bind, ofStack, releaseAll_map]
    cases Rpn.drain p.2 <;> rfl

theorem kind_of_mem_map {stack : List Pending} {t : Token} (h : t ∈ stack.map token) :
    (∃ op, t = .operator op) ∨ (∃ f : Builtin, t = .identifier f.name) ∨ t = .leftParen := by
  obtain ⟨p, -, rfl⟩ := List.mem_map.mp h
  cases p with
  | operator op => exact .inl ⟨op, rfl⟩
  | function f => exact .inr (.inl ⟨f, rfl⟩)
  | leftParen => exact .inr (.inr rfl)

/-- Operators in a row stand in order if the tokens around them do. -/
theorem isChain_of_covers (above : List Token) (ops : List Operator) (below : List Token)
    (h : (above ++ ops.map Token.operator ++ below).IsChain Token.Covers) :
    ops.IsChain fun upper lower => upper.yieldsTo lower = false := by
  have hops : (ops.map Token.operator).IsChain Token.Covers :=
    h.infix (List.infix_append above _ below)
  exact List.IsChain.imp (fun _ _ hcovers => hcovers _ _ rfl rfl) ((List.isChain_map _).mp hops)

theorem orderly_of_inOrder {stack : List Pending} (h : InOrder stack) :
    Orderly (stack.map token) where
  kind _ ht := kind_of_mem_map ht
  firm above upper lower below hsplit := by
    have hrow : stack.map token = above ++ [upper, lower].map Token.operator ++ below :=
      hsplit.trans (by simp)
    have hpair := isChain_of_covers above [upper, lower] below (hrow ▸ h)
    have hfirm := List.isChain_pair.mp hpair
    exact ⟨hfirm, (Operator.yieldsTo_eq_false_iff upper lower).mp hfirm⟩
  layered above ops below hsplit :=
    Operator.layered_of_isChain (isChain_of_covers above ops below (hsplit ▸ h))

/-- Whatever tokens have been read, well-formed or not, the yard holds what the stack of the
conversion holds, and what waits is of the right kind and in order. At the end no closing
parenthesis turns up: it makes no difference what would be answered to it. -/
theorem waiting_in_order (ts : List Token) :
    (∀ before, before <+: ts →
      empty.readAll before =
          (Rpn.consume [] before).map (fun (out, stack) => ofStack out stack) ∧
        ∀ y, empty.readAll before = .ok y → Orderly y.waiting) ∧
      ∀ closing, convert closing ts = Rpn.ofTokens ts := by
  refine ⟨fun before _ => ⟨readAll_empty before, fun y h => ?_⟩,
    fun closing => convert_eq_ofTokens closing ts⟩
  rw [readAll_empty] at h
  obtain ⟨⟨out, stack⟩, hs, rfl⟩ := map_eq_ok.mp h
  have hempty : InOrder [] := List.isChain_nil
  exact orderly_of_inOrder (hempty.consume hs)

/-- In `x - max(1 + 2 * 3 ^ 4 ^), …` a power lacks its operand, and the comma stands outside of all
parentheses. -/
theorem waiting_in_order_of_malformed :
    let before : List Token :=
      [.identifier "x", .operator .subtract, .identifier "max", .leftParen, .number 1,
        .operator .add, .number 2, .operator .multiply, .number 3, .operator .power, .number 4,
        .operator .power]
    let ts : List Token := before ++ [.rightParen, .comma]
    let waiting : List Token :=
      [.operator .power, .operator .power, .operator .multiply, .operator .add, .leftParen,
        .identifier "max", .operator .subtract]
    before <+: ts ∧
      empty.readAll before =
        .ok ⟨[.identifier "x", .number 1, .number 2, .number 3, .number 4], waiting⟩ ∧
      Orderly waiting ∧ Operator.Layered [.power, .power, .multiply, .add] ∧
      convert (.ok []) ts = Rpn.ofTokens ts ∧ Rpn.ofTokens ts = .error .misplacedComma := by
  intro before ts waiting
  have hinit : before <+: ts := List.prefix_append _ _
  have hread : empty.readAll before =
      .ok ⟨[.identifier "x", .number 1, .number 2, .number 3, .number 4], waiting⟩ := rfl
  obtain ⟨hstates, hconvert⟩ := waiting_in_order ts
  have horderly : Orderly waiting := (hstates before hinit).2 _ hread
  have hlayered := horderly.layered [] [.power, .power, .multiply, .add]
    [.leftParen, .identifier "max", .operator .subtract] rfl
  exact ⟨hinit, hread, horderly, hlayered, hconvert _, rfl⟩

end Yard

end ReversePolish
