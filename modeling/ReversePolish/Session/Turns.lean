import ReversePolish.Session.Conversation

/-! # Turns
A turn is one question for an expression and all that follows from the answer: the questions for the
values of its variables and the line that tells the outcome. Some answers keep the calculator from
being asked at all. -/
namespace ReversePolish
open Text

/-- Of these replies the last and no other could not be read. -/
def Text.BreakOff (replies : List Reply) : Prop :=
  ∃ before, replies = before ++ [.malformed] ∧ .malformed ∉ before

/-- A prompt and the answer to it. -/
def Utterance.ofQuestion (q : String × Reply) : List Utterance := [said q.1, heard q.2]

namespace Session

/-- What was read as an expression, the names that were asked for with what was read as their
values, and the outcome that was told, if any was. -/
structure Turn where
  entry : Reply
  values : List (String × Reply)
  outcome : Option (Except Error Float)

namespace Turn

/-- The prompts of the turn, each with its answer. -/
def questions (t : Turn) : List (String × Reply) :=
  ("Enter expression: ", t.entry) :: t.values.map fun v => (question v.1, v.2)

def replies (t : Turn) : List Reply := t.questions.map Prod.snd

/-- All that is said and heard in the turn. -/
def exchange (t : Turn) : List Utterance :=
  t.questions.flatMap Utterance.ofQuestion ++
    (t.outcome.map fun outcome => Utterance.said (outcomeLine outcome)).toList

end Turn

/-- What keeps an expression from being evaluated: it cannot be scanned, or one of the answers for
its variables is no numeral, is not there or cannot be read. -/
inductive Hindrance (text : String) (answers : List Reply) : Prop
  | unscanned {e : LexError} (scan : tokenize text = .error e)
  | refused {line : String} (heard : .line line ∈ answers)
      (failed : Numeral.read? (trim line).toList = none)
  | ended (heard : .ended ∈ answers)
  | malformed (heard : .malformed ∈ answers)

/-- What keeps a request for one expression from having it evaluated, when this was heard. -/
inductive Hindered : Request → List Reply → Prop
  | evaluate {text : String} {answers : List Reply} (h : Hindrance text answers) :
      Hindered (.evaluate text) answers
  | entry {first : Reply} {answers : List Reply} (h : first = .ended ∨ first = .malformed) :
      Hindered .runOnce (first :: answers)
  | runOnce {line : String} {answers : List Reply} (h : Hindrance (trim line) answers) :
      Hindered .runOnce (.line line :: answers)

/-- The names that are asked for as long as all answers are numerals. -/
def unbound (bindings : Bindings) (text : String) : List String :=
  match freeVariables text with
  | .error _ => []
  | .ok names => names.filter fun name => !bindings.binds name

/-- The prompts of a request for one expression, if its first line is this and all answers are
numerals. -/
def prompts (bindings : Bindings) (first : Reply) : Request → List String
  | .evaluate text => (unbound bindings text).map question
  | .runOnce =>
    "Enter expression: " :: match first with
      | .line line => (unbound bindings (trim line)).map question
      | _ => []
  | .run => []

/-- These prompts were answered by the first lines of the input, of which only the last was not
UTF-8. Nothing else was written, the answer is the error, and the next line is the one after. -/
structure Broken {α : Type} (input : List UInt8) (prompts : List String) (p : Played (Outcome α)) :
    Prop where
  answer : p.value.answer = .error .invalidUtf8
  exchange : p.exchange = (prompts.zip p.replies).flatMap Utterance.ofQuestion
  output : p.output = String.join prompts
  enough : prompts.length ≤ (lines input).length
  replies : p.replies = ((lines input).take prompts.length).map decodeLine
  breaks : BreakOff p.replies
  rest : p.rest = afterLines prompts.length input
  following : lines p.rest = (lines input).drop prompts.length

end Session
end ReversePolish
