import Mathlib.Data.List.Dedup
import ReversePolish.Calculator

/-! # Order of last use
Which texts a calculator has been asked for since it was last cleared, told from the requests alone,
and which of them are the latest ones. -/
namespace ReversePolish.Calculator

/-- The text that a request is about. -/
def Request.text? : Request → Option String
  | .compile text | .evaluate text _ | .batch text _ => some text
  | .clear => none

/-- The texts that count as used after one more request. A text that has no postfix form is not
used; whether its form then has a value does not matter. -/
def used (texts : List String) (request : Request) : List String :=
  match request.text? with
  | none => []
  | some text =>
    match parse text with
    | .ok _ => texts ++ [text]
    | .error _ => texts

/-- The texts used since the last clearing, as often as they were used, the latest at the end. -/
def history (requests : List Request) : List String := requests.foldl used []

/-- The `n` texts used last, each of them once, the latest first. -/
def latest (n : Nat) (texts : List String) : List String := texts.dedup.reverse.take n

end ReversePolish.Calculator
