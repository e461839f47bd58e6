import ReversePolish.Infix
import ReversePolish.Infix.Shadowing

/-! # Conversion follows the infix grammar
Tokens that denote a tree are brought into the postorder of the tree. On the way some operators are
still waiting, all of them at least as strong as the level of the tokens; the statement proved by
induction on the derivation says so over any stack that leaves these operators alone. The name of a
function that is not called may wait on top of them. It is released where a variable would stand,
unless an operator is put on top of it. -/
namespace ReversePolish.Rpn
open Token

/-- What waits on top of this stack lets every operator of level `n` pass and is no function that
could take the next parentheses for its own. -/
def Supports (n : Nat) : List Pending → Prop
  | .operator top :: _ => ∀ op : Operator, n ≤ op.precedence → op.yieldsTo top = false
  | .function _ :: _ => False
  | _ => True

/-- Reading `ts` on this stack releases `rpn` but for operators of precedence `n` or more, which
wait on top of the stack as it was before. -/
def Yields (n : Nat) (stack : List Pending) (ts : List Token) (rpn : Rpn) : Prop :=
  ∃ (out : List Token) (ops : List Operator),
    consume stack ts = .ok (out, ops.map Pending.operator ++ stack) ∧
      out ++ ops.map Token.operator = rpn ∧ ∀ op ∈ ops, n ≤ op.precedence

variable {n m : Nat} {stack : List Pending} {ts us : List Token} {rpn l r : Rpn}

theorem Supports.tighter (h : Supports n stack) : Supports (n + 1) stack := by
  unfold Supports at h ⊢
  split
  · exact fun op hop => h op (Nat.le_of_succ_le hop)
  · exact h
  · trivial

theorem Supports.called (h : Supports n stack) : Pending.called stack = ([], stack) := by
  unfold Supports at h
  split at h
  · rfl
  · exact h.elim
  · unfold Pending.called
    split <;> simp_all

/-- An operator releases the waiting operators that it yields to, and no more. -/
theorem Supports.yielded {op : Operator} {ops : List Operator} (h : Supports op.precedence stack)
    (hy : ∀ top ∈ ops, op.yieldsTo top = true) :
    Pending.yielded op (ops.map Pending.operator ++ stack) = (ops.map Token.operator, stack) := by
  induction ops with
  | nil =>
    unfold Supports at h
    split at h
    · simp [Pending.yielded, h op (Nat.le_refl _)]
    · exact h.elim
    · unfold Pending.yielded
      split <;> simp_all
  | cons top ops ih =>
    have ht := hy top (by simp)
    have hi := ih fun o ho => hy o (by simp [ho])
    simp [Pending.yielded, ht, hi]

theorem Yields.of_consume (h : consume stack ts = .ok (rpn, stack)) : Yields n stack ts rpn :=
  ⟨rpn, [], h, by simp, by simp⟩

theorem Yields.looser (h : Yields (n + 1) stack ts rpn) : Yields n stack ts rpn := by
  obtain ⟨out, ops, hc, he, hp⟩ := h
  exact ⟨out, ops, hc, he, fun op hop => Nat.le_of_succ_le (hp op hop)⟩

/-- An operator after an operand releases what waits for the operand, and waits itself. -/
theorem Yields.consume_operator {op : Operator} (hl : Yields m stack ts l)
    (hs : Supports op.precedence stack)
    (hy : ∀ top : Operator, m ≤ top.precedence → op.yieldsTo top = true) :
    consume stack (ts ++ [.operator op]) = .ok (l, .operator op :: stack) := by
  obtain ⟨out, ops, hc, rfl, hp⟩ := hl
  have hstep : step (ops.map Pending.operator ++ stack) (.operator op) =
      .ok (ops.map Token.operator, .operator op :: stack) := by
    simp [step, hs.yielded fun top ht => hy top (hp top ht)]
  exact consume_append_ok hc (consume_singleton hstep)

/-- Two operands with an operator between them, which releases what waits after the first. -/
theorem Yields.operation {op : Operator} (hs : Supports op.precedence stack)
    (hl : Yields m stack ts l)
    (hy : ∀ top : Operator, m ≤ top.precedence → op.yieldsTo top = true)
    (hr : Yields n (.operator op :: stack) us r) (hn : op.precedence ≤ n) :
    Yields op.precedence stack (ts ++ .operator op :: us) (l ++ r ++ [.operator op]) := by
  obtain ⟨out, ops, hc, rfl, hp⟩ := hr
  refine ⟨l ++ out, ops ++ [op], ?_, by simp, ?_⟩
  · simpa using consume_append_ok (hl.consume_operator hs hy) hc
  · intro o ho
    rcases List.mem_append.mp ho with ho | ho
    · exact Nat.le_trans hn (hp o ho)
    · simp_all

/-- An operator that waits lets stronger operators pass. -/
theorem supports_operator {op : Operator} (h : op.precedence < n) (stack : List Pending) :
    Supports n (.operator op :: stack) := by
  intro o ho
  rw [Bool.eq_false_iff, ne_eq, Operator.yieldsTo_iff]
  omega

theorem supports_operator_of_right {op : Operator} (assoc : op.associativity = .right)
    (h : op.precedence ≤ n) (stack : List Pending) : Supports n (.operator op :: stack) := by
  intro o ho
  rw [Bool.eq_false_iff, ne_eq, Operator.yieldsTo_iff]
  rintro (hlt | ⟨hleft, he⟩)
  · omega
  · rw [Operator.associativity_congr he, assoc] at hleft
    contradiction

/-- Reading `ts` on this stack releases `rpn` but for what waits above the stack, and leaves no
parenthesis open. -/
def Settles (stack : List Pending) (ts : List Token) (rpn : Rpn) : Prop :=
  ∃ (out : List Token) (above : List Pending),
    consume stack ts = .ok (out, above ++ stack) ∧ out ++ above.map Pending.token = rpn ∧
      .leftParen ∉ above

theorem Yields.settles (h : Yields n stack ts rpn) : Settles stack ts rpn := by
  obtain ⟨out, ops, hc, rfl, -⟩ := h
  have htoken : (ops.map Pending.operator).map Pending.token = ops.map Token.operator := by
    rw [List.map_map]
    rfl
  exact ⟨out, ops.map Pending.operator, hc, by rw [htoken], by simp⟩

/-- A comma releases what waits after an argument and keeps the parenthesis open. -/
theorem Settles.comma (hl : Settles (.leftParen :: stack) ts l)
    (hr : Settles (.leftParen :: stack) us r) :
    Settles (.leftParen :: stack) (ts ++ .comma :: us) (l ++ r) := by
  obtain ⟨out, above, hc, rfl, hn⟩ := hl
  obtain ⟨out', above', hc', rfl, hn'⟩ := hr
  have hstep : step (above ++ .leftParen :: stack) .comma =
      .ok (above.map Pending.token, .leftParen :: stack) := by
    simp [step, Pending.splitAtParen_append hn]
  refine ⟨out ++ (above.map Pending.token ++ out'), above', ?_, by simp, hn'⟩
  exact consume_append_ok hc (consume_cons_ok hstep hc')

/-- The closing parenthesis releases all that waits behind the opening one, and then the function
that the parentheses belong to. -/
theorem Settles.consume_parens (h : Settles (.leftParen :: stack) ts rpn) :
    consume stack (.leftParen :: ts ++ [.rightParen]) =
      .ok (rpn ++ (Pending.called stack).1, (Pending.called stack).2) := by
  obtain ⟨out, above, hc, rfl, hn⟩ := h
  have hopen : step stack .leftParen = .ok ([], .leftParen :: stack) := rfl
  have hclose : step (above ++ .leftParen :: stack) .rightParen =
      .ok (above.map Pending.token ++ (Pending.called stack).1, (Pending.called stack).2) := by
    simp [step, Pending.splitAtParen_append hn]
  simpa using consume_cons_ok hopen (consume_append_ok hc (consume_singleton hclose))

theorem drain_of_not_mem {above : List Pending} (h : .leftParen ∉ above) :
    drain above = .ok (above.map Pending.token) := by
  induction above with
  | nil => rfl
  | cons p above ih =>
    simp only [List.mem_cons, not_or] at h
    cases p with
    | leftParen => simp at h
    | operator op | function f => simp [drain, ih h.2, Except.map]

theorem Settles.ofTokens (h : Settles [] ts rpn) : ofTokens ts = .ok rpn := by
  obtain ⟨out, above, hc, rfl, hn⟩ := h
  simp [Rpn.ofTokens, hc, drain_of_not_mem hn, bind, Except.bind, pure, Except.pure]

/-- Reading `ts` on this stack releases `rpn` but for what waits above the stack. Unless `ts` ends
with a function name, this is nothing but operators of precedence `n` or more. -/
structure Leaves (n : Nat) (stack : List Pending) (ts : List Token) (rpn : Rpn) : Prop where
  settles : Settles stack ts rpn
  yields : endsWithName ts = false → Yields n stack ts rpn

theorem Yields.leaves (h : Yields n stack ts rpn) : Leaves n stack ts rpn :=
  ⟨h.settles, fun _ => h⟩

theorem Leaves.of_consume (h : consume stack ts = .ok (rpn, stack)) : Leaves n stack ts rpn :=
  (Yields.of_consume h).leaves

theorem Leaves.looser (h : Leaves (n + 1) stack ts rpn) : Leaves n stack ts rpn :=
  ⟨h.settles, fun hend => (h.yields hend).looser⟩

theorem leaves_var (n : Nat) (stack : List Pending) (name : String) :
    Leaves n stack [.identifier name] [.identifier name] := by
  cases hf : Builtin.ofName? name with
  | none => exact .of_consume (consume_singleton (by simp [step, hf]))
  | some f =>
    have hname := Builtin.name_of_ofName? hf
    have hstep : step stack (.identifier name) = .ok ([], .function f :: stack) := by
      simp [step, hf]
    refine ⟨⟨[], [.function f], consume_singleton hstep, ?_, by simp⟩, fun hend => ?_⟩
    · simp [Pending.token, hname]
    · simp [endsWithName, isFunctionName, hf] at hend

/-- The operator between two operands does not meet a function name after the first one. -/
theorem Leaves.operation {op : Operator} (hnames : NamesSealed (ts ++ .operator op :: us))
    (hs : Supports op.precedence stack) (hl : Leaves m stack ts l)
    (hy : ∀ top : Operator, m ≤ top.precedence → op.yieldsTo top = true)
    (hr : Leaves n (.operator op :: stack) us r) (hn : op.precedence ≤ n) :
    Leaves op.precedence stack (ts ++ .operator op :: us) (l ++ r ++ [.operator op]) := by
  have hl := hl.yields hnames.endsWithName_eq_false
  refine ⟨?_, fun hend => ?_⟩
  · obtain ⟨out, above, hc, rfl, hnot⟩ := hr.settles
    refine ⟨l ++ out, above ++ [.operator op], ?_, by simp [Pending.token], by simp [hnot]⟩
    simpa using consume_append_ok (hl.consume_operator hs hy) hc
  · rw [endsWithName_append_operator] at hend
    exact .operation hs hl hy (hr.yields hend) hn

mutual

theorem leaves_of_denotes {n : Nat} {ts : List Token} {t : Tree} (stack : List Pending) :
    Denotes n ts t → NamesSealed ts → Supports n stack → Leaves n stack ts t.postorder
  | .number value, _, _ => .of_consume (consume_singleton rfl)
  | .var name, _, _ => leaves_var _ stack name
  | .call f h, hn, _ => by
    have hin := NamesSealed.left hn.tail.tail
    have hargs := settles_of_denoteArguments (.function f :: stack) h hin
    have hname : step stack (.identifier f.name) = .ok ([], .function f :: stack) := by
      simp [step]
    refine .of_consume ?_
    simpa [Pending.called, Tree.postorder] using consume_cons_ok hname hargs.consume_parens
  | .parens h, hn, hs => by
    have hin := leaves_of_denotes (.leftParen :: stack) h (NamesSealed.left hn.tail) trivial
    refine .of_consume ?_
    simpa [hs.called] using hin.settles.consume_parens
  | .tighter h, hn, hs => (leaves_of_denotes stack h hn hs.tighter).looser
  | .left level hl hr, hn, hs => by
    obtain ⟨assoc, hp⟩ := Level.groupsLeft_iff.mp level
    have hstack := supports_operator (Nat.lt_succ_of_le (Nat.le_of_eq hp)) stack
    have hl := leaves_of_denotes stack hl hn.left hs
    have hr := leaves_of_denotes _ hr hn.right hstack
    subst hp
    exact .operation hn hs hl (fun _ => Operator.yieldsTo_of_left assoc) hr (Nat.le_succ _)
  | .right level hl hr, hn, hs => by
    obtain ⟨assoc, hp⟩ := Level.groupsRight_iff.mp level
    have hstack := supports_operator_of_right assoc (Nat.le_of_eq hp) stack
    have hl := leaves_of_denotes stack hl hn.left hs.tighter
    have hr := leaves_of_denotes _ hr hn.right hstack
    subst hp
    exact .operation hn hs hl (fun _ => Operator.yieldsTo_of_lt) hr (Nat.le_refl _)

theorem settles_of_denoteArguments {ts : List Token} {args : List Tree} (stack : List Pending) :
    DenoteArguments ts args → NamesSealed ts →
      Settles (.leftParen :: stack) ts (Tree.postorders args)
  | .none, _ => ⟨[], [], rfl, rfl, List.not_mem_nil⟩
  | .one h, hn => by
    simpa [Tree.postorders] using (leaves_of_denotes (.leftParen :: stack) h hn trivial).settles
  | .more h hs, hn =>
    (leaves_of_denotes (.leftParen :: stack) h hn.left trivial).settles.comma
      (settles_of_denoteArguments stack hs hn.right)

end

/-- Tokens that denote a tree become its postorder, whatever the names of its variables are, if no
operator directly follows a function name. -/
theorem ofTokens_of_namesSealed {t : Tree} (h : Denotes Level.expression ts t)
    (hnames : NamesSealed ts) : ofTokens ts = .ok t.postorder :=
  (leaves_of_denotes [] h hnames trivial).settles.ofTokens

/-! ## Variables that are no function names -/

mutual

theorem namesSealed_of_denotes {n : Nat} {ts : List Token} {t : Tree} :
    Denotes n ts t → (∀ x ∈ t.vars, Builtin.ofName? x = none) →
      NamesSealed ts ∧ endsWithName ts = false
  | .number value, _ => ⟨namesSealed_singleton _, rfl⟩
  | .var name, hv => by
    have hname := hv name (by simp [Tree.vars])
    exact ⟨namesSealed_singleton _, by simp [endsWithName, isFunctionName, hname]⟩
  | .call f h, hv => by
    have hargs := namesSealed_of_denoteArguments h hv
    have hclosed := hargs.append (namesSealed_singleton .rightParen) fun _ => rfl
    have hopen := hclosed.cons (t := .leftParen) rfl
    exact ⟨List.isChain_cons_cons.mpr ⟨fun _ => rfl, hopen⟩, endsWithName_concat _ _⟩
  | .parens h, hv => by
    have hclosed := (namesSealed_of_denotes h hv).1.append (namesSealed_singleton .rightParen)
      fun _ => rfl
    exact ⟨hclosed.cons rfl, endsWithName_concat _ _⟩
  | .tighter h, hv => namesSealed_of_denotes h hv
  | .left _ hl hr, hv | .right _ hl hr, hv => by
    obtain ⟨hleft, hlast⟩ := namesSealed_of_denotes hl fun x hx => hv x (by simp [Tree.vars, hx])
    obtain ⟨hright, hend⟩ := namesSealed_of_denotes hr fun x hx => hv x (by simp [Tree.vars, hx])
    refine ⟨hleft.append (hright.cons rfl) fun hname => ?_, ?_⟩
    · simp [hlast] at hname
    · rw [endsWithName_append_operator, hend]

theorem namesSealed_of_denoteArguments {ts : List Token} {args : List Tree} :
    DenoteArguments ts args → (∀ x ∈ Tree.varsAll args, Builtin.ofName? x = none) → NamesSealed ts
  | .none, _ => List.isChain_nil
  | .one h, hv => (namesSealed_of_denotes h fun x hx => hv x (by simp [Tree.varsAll, hx])).1
  | .more h hs, hv => by
    have hfirst := (namesSealed_of_denotes h fun x hx => hv x (by simp [Tree.varsAll, hx])).1
    have hothers := namesSealed_of_denoteArguments hs
      fun x hx => hv x (by rw [Tree.varsAll]; simp [hx])
    exact hfirst.append (hothers.cons rfl) fun _ => rfl

end

/-- Tokens that denote a tree whose variables are no function names become its postorder, however
many arguments its calls have. -/
theorem ofTokens_eq_postorder {t : Tree} (h : Denotes Level.expression ts t)
    (hv : ∀ x ∈ t.vars, Builtin.ofName? x = none) : ofTokens ts = .ok t.postorder :=
  ofTokens_of_namesSealed h (namesSealed_of_denotes h hv).1

/-- A call of `max` with one argument is converted like any other. -/
theorem ofTokens_power_chain :
    Denotes Level.expression
        [.identifier "a", .operator .power, .identifier "max", .leftParen, .number 2, .rightParen,
          .operator .power, .identifier "b"]
        (.operation .power (.var "a") (.operation .power (.call .max [.number 2]) (.var "b"))) ∧
      (∀ x ∈ (Tree.operation .power (.var "a")
          (.operation .power (.call .max [.number 2]) (.var "b"))).vars,
        Builtin.ofName? x = none) ∧
      ofTokens
        [.identifier "a", .operator .power, .identifier "max", .leftParen, .number 2, .rightParen,
          .operator .power, .identifier "b"] =
        .ok [.identifier "a", .number 2, .identifier "max", .identifier "b", .operator .power,
          .operator .power] := by
  have hcall : Denotes Level.primary [.identifier "max", .leftParen, .number 2, .rightParen]
      (.call .max [.number 2]) :=
    .call .max (.one (.tighter (.tighter (.tighter (.number 2)))))
  have ht := @Denotes.right _ .power [_] _ _ _ .power (.var "a")
    (.right .power hcall (.tighter (.var "b")))
  have hv : ∀ x ∈ (Tree.operation .power (.var "a")
      (.operation .power (.call .max [.number 2]) (.var "b"))).vars,
      Builtin.ofName? x = none := by decide
  exact ⟨.tighter (.tighter ht), hv, ofTokens_eq_postorder (.tighter (.tighter ht)) hv⟩

end ReversePolish.Rpn
