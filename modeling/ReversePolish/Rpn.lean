import ReversePolish.Outcome
import ReversePolish.Token

/-! # From infix to postfix order
The tokens of an infix expression are read once from left to right. Operands pass straight through;
operators, function names and open parentheses wait on a stack until the tokens that follow decide
that they are applied. Only parentheses and commas are checked here; whether every operator finds
its operands shows when the result is evaluated. -/
namespace ReversePolish

/-- Tokens in postfix order, each operator or function after its operands. -/
abbrev Rpn := List Token

inductive ParseError where
  | misplacedComma
  | mismatchedParens
  deriving DecidableEq, Repr

def ParseError.message : ParseError → String
  | misplacedComma => "Misplaced comma"
  | mismatchedParens => "Mismatched parentheses"

/-- What may wait on the stack. -/
inductive Pending where
  | operator (op : Operator)
  | function (f : Builtin)
  | leftParen
  deriving DecidableEq, Repr

namespace Pending

/-- The token that was put on the stack. -/
def token : Pending → Token
  | operator op => .operator op
  | function f => .identifier f.name
  | leftParen => .leftParen

/-- What stands above the nearest open parenthesis and the stack below that parenthesis; `none` if
no parenthesis is open. -/
def splitAtParen : List Pending → Option (List Token × List Pending)
  | [] => none
  | leftParen :: below => some ([], below)
  | p :: stack => (splitAtParen stack).map fun (out, below) => (p.token :: out, below)

/-- The operators on top that are applied before `op`, and the stack below them. -/
def yielded (op : Operator) : List Pending → List Token × List Pending
  | operator top :: stack =>
    if op.yieldsTo top then
      let (out, below) := yielded op stack
      (.operator top :: out, below)
    else ([], operator top :: stack)
  | stack => ([], stack)

/-- The function whose arguments have just been closed, if one stands on top. -/
def called : List Pending → List Token × List Pending
  | function f :: stack => ([.identifier f.name], stack)
  | stack => ([], stack)

theorem splitAtParen_append {above : List Pending} (h : leftParen ∉ above) (below : List Pending) :
    splitAtParen (above ++ leftParen :: below) = some (above.map token, below) := by
  induction above with
  | nil => rfl
  | cons p above ih =>
    simp only [List.mem_cons, not_or] at h
    cases p with
    | leftParen => simp at h
    | operator op | function f => simp [splitAtParen, ih h.2]

theorem exists_of_splitAtParen {stack below : List Pending} {out : List Token}
    (h : splitAtParen stack = some (out, below)) :
    ∃ above, stack = above ++ leftParen :: below ∧ out = above.map token ∧ leftParen ∉ above := by
  induction stack generalizing out with
  | nil => simp [splitAtParen] at h
  | cons p stack ih =>
    cases p with
    | leftParen =>
      cases h
      exact ⟨[], rfl, rfl, List.not_mem_nil⟩
    | operator op | function f =>
      obtain ⟨⟨now, below⟩, hq, he⟩ := Option.map_eq_some_iff.mp h
      cases he
      obtain ⟨above, rfl, rfl, hn⟩ := ih hq
      exact ⟨_ :: above, rfl, rfl, by simp [hn]⟩

theorem not_mem_of_splitAtParen {stack : List Pending} (h : splitAtParen stack = none) :
    leftParen ∉ stack := by
  induction stack with
  | nil => exact List.not_mem_nil
  | cons p stack ih =>
    cases p with
    | leftParen => simp [splitAtParen] at h
    | operator op | function f => simpa using ih (Option.map_eq_none_iff.mp h)

theorem exists_of_yielded (op : Operator) (stack : List Pending) :
    ∃ ops : List Operator, (yielded op stack).1 = ops.map Token.operator ∧
      stack = ops.map operator ++ (yielded op stack).2 := by
  fun_induction yielded op stack with
  | case1 top stack _ out below he ih =>
    obtain ⟨ops, hout, hs⟩ := ih
    rw [he] at hout hs
    exact ⟨top :: ops, by simpa using hout, by simpa using hs⟩
  | case2 => exact ⟨[], rfl, rfl⟩
  | case3 => exact ⟨[], rfl, rfl⟩

end Pending

namespace Rpn

/-- What a token releases to the output, and the stack that it leaves. -/
def step (stack : List Pending) : Token → Except ParseError (List Token × List Pending)
  | .number value => .ok ([.number value], stack)
  | .identifier name =>
    match Builtin.ofName? name with
    | some f => .ok ([], .function f :: stack)
    | none => .ok ([.identifier name], stack)
  | .operator op =>
    let (out, below) := Pending.yielded op stack
    .ok (out, .operator op :: below)
  | .leftParen => .ok ([], .leftParen :: stack)
  | .comma =>
    match Pending.splitAtParen stack with
    | some (out, below) => .ok (out, .leftParen :: below)
    | none => .error .misplacedComma
  | .rightParen =>
    match Pending.splitAtParen stack with
    | some (out, below) =>
      let (call, rest) := Pending.called below
      .ok (out ++ call, rest)
    | none => .error .mismatchedParens

/-- At the end of the tokens everything that waits is released; an open parenthesis has no partner.
-/
def drain : List Pending → Except ParseError Rpn
  | [] => .ok []
  | .leftParen :: _ => .error .mismatchedParens
  | p :: stack => (drain stack).map (p.token :: ·)

/-- What the tokens release when they are read from `stack` on, and the stack after them. -/
def consume (stack : List Pending) : List Token → Except ParseError (List Token × List Pending)
  | [] => .ok ([], stack)
  | t :: ts => do
    let (out, next) ← step stack t
    let (later, last) ← consume next ts
    return (out ++ later, last)

def ofTokens (ts : List Token) : Except ParseError Rpn := do
  let (out, stack) ← consume [] ts
  return out ++ (← drain stack)

theorem consume_append (stack : List Pending) (ts us : List Token) :
    consume stack (ts ++ us) = do
      let (out, next) ← consume stack ts
      let (later, last) ← consume next us
      return (out ++ later, last) := by
  induction ts generalizing stack with
  | nil =>
    cases h : consume stack us <;> simp [consume, h, bind, Except.bind, pure, Except.pure]
  | cons t ts ih =>
    simp only [List.cons_append, consume]
    cases h : step stack t with
    | error e => rfl
    | ok p =>
      simp only [ih, bind, Except.bind]
      cases consume p.2 ts with
      | error e => rfl
      | ok q => cases h : consume q.2 us <;> simp [pure, Except.pure, h, List.append_assoc]

section
variable {stack next last : List Pending} {out later : List Token}

theorem consume_cons_ok {t : Token} {ts : List Token} (h : step stack t = .ok (out, next))
    (hs : consume next ts = .ok (later, last)) :
    consume stack (t :: ts) = .ok (out ++ later, last) := by
  simp [consume, h, hs, bind, Except.bind, pure, Except.pure]

theorem exists_of_consume_cons {t : Token} {ts : List Token}
    (h : consume stack (t :: ts) = .ok (out, last)) :
    ∃ now next later, step stack t = .ok (now, next) ∧ consume next ts = .ok (later, last) ∧
      out = now ++ later := by
  obtain ⟨⟨now, next⟩, hstep, h⟩ := bind_eq_ok.mp h
  obtain ⟨⟨later, last'⟩, hs, h⟩ := bind_eq_ok.mp h
  cases h
  exact ⟨now, next, later, hstep, hs, rfl⟩

theorem consume_singleton {t : Token} (h : step stack t = .ok (out, next)) :
    consume stack [t] = .ok (out, next) := by
  simpa using consume_cons_ok h (rfl : consume next [] = .ok ([], next))

theorem consume_append_ok {ts us : List Token} (h : consume stack ts = .ok (out, next))
    (hs : consume next us = .ok (later, last)) :
    consume stack (ts ++ us) = .ok (out ++ later, last) := by
  simp [consume_append, h, hs, bind, Except.bind, pure, Except.pure]

end

theorem exists_of_ofTokens {ts : List Token} {rpn : Rpn} (h : ofTokens ts = .ok rpn) :
    ∃ out stack rest, consume [] ts = .ok (out, stack) ∧ drain stack = .ok rest ∧
      rpn = out ++ rest := by
  obtain ⟨⟨out, stack⟩, hs, h⟩ := bind_eq_ok.mp h
  obtain ⟨rest, hrest, h⟩ := bind_eq_ok.mp h
  cases h
  exact ⟨out, stack, rest, hs, hrest, rfl⟩

end Rpn
end ReversePolish
