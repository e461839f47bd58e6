import ReversePolish.Rpn.Evaluation
import ReversePolish.Token.Scan

/-! # Expressions as text
A text is scanned into tokens, brought into postfix order and evaluated; the first of the three that
fails decides the outcome. -/
namespace ReversePolish

/-- Why an expression has no value. -/
inductive Error where
  | lex (e : LexError)
  | parse (e : ParseError)
  | eval (e : EvalError)
  /-- What was typed for a variable is no numeral. -/
  | invalidValue (name input : String)
  deriving DecidableEq

def Error.message : Error → String
  | lex e => "Lex error: " ++ e.message
  | parse e => "Parse error: " ++ e.message
  | eval e => "Evaluation error: " ++ e.message
  | invalidValue name input => "Invalid value " ++ Text.quoted input ++ s!" for variable '{name}'"

/-- The tokens of an expression in postfix order. -/
def parse (text : String) : Except Error Rpn := do
  let tokens ← (tokenize text).mapError .lex
  (Rpn.ofTokens tokens).mapError .parse

/-- The value of an expression. -/
def evaluate (text : String) (vars : Bindings) : Except Error Float := do
  let rpn ← parse text
  (rpn.evaluate vars).mapError .eval

/-- The value of an expression that is given by its tokens. -/
def evaluateTokens (ts : List Token) (vars : Bindings) : Except Error Float := do
  let rpn ← (Rpn.ofTokens ts).mapError .parse
  (rpn.evaluate vars).mapError .eval

theorem evaluate_eq_evaluateTokens (text : String) (vars : Bindings) :
    evaluate text vars = (tokenize text).mapError .lex >>= fun ts => evaluateTokens ts vars := by
  simp only [evaluate, parse, evaluateTokens]
  cases (tokenize text).mapError Error.lex with
  | error e => rfl
  | ok ts => rfl

theorem evaluate_eq_of_tokenize {text : String} {ts : List Token} (h : tokenize text = .ok ts)
    (vars : Bindings) : evaluate text vars = evaluateTokens ts vars := by
  rw [evaluate_eq_evaluateTokens, h]
  rfl

theorem parse_eq_ok {text : String} {rpn : Rpn} :
    parse text = .ok rpn ↔ ∃ ts, tokenize text = .ok ts ∧ Rpn.ofTokens ts = .ok rpn := by
  simp only [parse, bind_eq_ok, mapError_eq_ok]

/-- An expression has a value if none of the three steps fails. -/
theorem evaluate_eq_ok {text : String} {vars : Bindings} {v : Float} :
    evaluate text vars = .ok v ↔
      ∃ ts rpn, tokenize text = .ok ts ∧ Rpn.ofTokens ts = .ok rpn ∧ rpn.evaluate vars = .ok v := by
  simp only [evaluate, parse, bind_eq_ok, mapError_eq_ok]
  constructor
  · rintro ⟨rpn, ⟨ts, hts, hrpn⟩, hv⟩
    exact ⟨ts, rpn, hts, hrpn, hv⟩
  · rintro ⟨ts, rpn, hts, hrpn, hv⟩
    exact ⟨rpn, ⟨ts, hts, hrpn⟩, hv⟩

section
variable {ts : List Token} {vars : Bindings}

theorem evaluateTokens_eq_ok {v : Float} :
    evaluateTokens ts vars = .ok v ↔
      ∃ rpn, Rpn.ofTokens ts = .ok rpn ∧ rpn.evaluate vars = .ok v := by
  simp only [evaluateTokens, bind_eq_ok, mapError_eq_ok]

theorem evaluateTokens_eq_evalError {e : EvalError} :
    evaluateTokens ts vars = .error (.eval e) ↔
      ∃ rpn, Rpn.ofTokens ts = .ok rpn ∧ rpn.evaluate vars = .error e := by
  simp only [evaluateTokens, bind_eq_error, mapError_eq_error, mapError_eq_ok]
  constructor
  · rintro (⟨e', -, he⟩ | ⟨rpn, hrpn, e', hvalue, he⟩)
    · contradiction
    · cases he
      exact ⟨rpn, hrpn, hvalue⟩
  · rintro ⟨rpn, hrpn, hvalue⟩
    exact .inr ⟨rpn, hrpn, e, hvalue, rfl⟩

end

end ReversePolish
