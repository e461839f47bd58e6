import ReversePolish.Calculator
import ReversePolish.Dialogue
import ReversePolish.Text.WhiteSpace

/-! # Sessions
A session asks for expressions and for the values of their variables, and writes the results. Values
typed for one expression are forgotten after it; only the bindings given in advance and what the
calculator remembers last from one expression to the next. -/
namespace ReversePolish
open Text

inductive InputError where
  | invalidUtf8
  deriving DecidableEq, Repr

def InputError.message : InputError → String
  | invalidUtf8 => "stream did not contain valid UTF-8"

structure Session where
  /-- Variables with a value given in advance, for which nobody is asked. -/
  bindings : Bindings
  calculator : Calculator

/-- The outcome of one turn and the session that goes on from there. -/
structure Session.Outcome (α : Type) where
  answer : Except InputError α
  session : Session

namespace Session

/-- How asking for the values of variables ends. -/
inductive Values where
  | complete (vars : Bindings)
  /-- The text typed for this variable is no numeral. -/
  | invalid (name input : String)
  | malformed

def expressionPrompt : String := "Enter expression: "

def valuePrompt (name : String) : String := s!"Enter value for {name}: "

def resultLine (value : Float) : String := "Result: " ++ Layout.full.text value ++ "\n"

def errorLine : String := "Error: Invalid expression\n"

/-- What was typed, without blanks at its ends; nothing is typed after the end of the input. -/
def typed : Reply → String
  | .line text => trim text
  | _ => ""

/-- Asks for the value of each name that is not bound yet, and stops at the first that has none. -/
def askValues (vars : Bindings) : List String → Dialogue Values
  | [] => .finish (.complete vars)
  | name :: names =>
    if vars.binds name then askValues vars names
    else .say (valuePrompt name) <| .ask fun reply =>
      if reply = .malformed then .finish .malformed
      else
        match Numeral.read? (typed reply).toList with
        | some value => .note (.valueRead name value) (askValues (vars.bind name value) names)
        | none => .finish (.invalid name (typed reply))

/-- Writes the outcome of an expression. The cause of a failure is reported, not written. -/
def conclude (s : Session) (text : String) : Except Error Float → Dialogue (Outcome (Option Float))
  | .ok value => .say (resultLine value) <| .finish ⟨.ok (some value), s⟩
  | .error e => .note (.failed text e) <| .say errorLine <| .finish ⟨.ok none, s⟩

/-- Evaluates an expression after asking for the values of its unbound variables. -/
def evaluate (s : Session) (text : String) : Dialogue (Outcome (Option Float)) :=
  match freeVariables text with
  | .error e => s.conclude text (.error (.lex e))
  | .ok names => do
    match ← askValues s.bindings names with
    | .malformed => return ⟨.error .invalidUtf8, s⟩
    | .invalid name input => s.conclude text (.error (.invalidValue name input))
    | .complete vars =>
      let r := s.calculator.evaluate text vars
      .noteAll r.events (conclude { s with calculator := r.calculator } text r.answer)

/-- Asks for one expression and evaluates it unless it is blank. The answer says whether there was a
line to read. -/
def runOnce (s : Session) : Dialogue (Outcome Bool) :=
  .say expressionPrompt <| .ask fun
    | .ended => .finish ⟨.ok false, s⟩
    | .malformed => .finish ⟨.error .invalidUtf8, s⟩
    | .line text => do
      if trim text = "" then return ⟨.ok true, s⟩
      let turn ← s.evaluate (trim text)
      return ⟨turn.answer.map fun _ => true, turn.session⟩

/-- A turn after which the session goes on has read at least one line. -/
theorem runOnce_rest_length_lt {s : Session} {input : List UInt8}
    (h : (s.runOnce.play input).value.answer = .ok true) :
    (s.runOnce.play input).rest.length < input.length := by
  simp only [runOnce, Dialogue.play, Played.after] at h ⊢
  split at h
  · simp [Dialogue.play] at h
  · simp [Dialogue.play] at h
  · rename_i text hr
    exact Nat.lt_of_le_of_lt (Dialogue.play_rest_length_le _ _)
      (readLine_length_lt (by simp [hr]))

/-- Turn after turn until the input ends or holds a line that cannot be read. -/
def run (s : Session) (input : List UInt8) : Played (Outcome Unit) :=
  let turn := s.runOnce.play input
  match _h : turn.value.answer with
  | .ok true => (run turn.value.session turn.rest).after turn.transcript
  | .ok false => ⟨⟨.ok (), turn.value.session⟩, turn.transcript, turn.rest⟩
  | .error e => ⟨⟨.error e, turn.value.session⟩, turn.transcript, turn.rest⟩
termination_by input.length
decreasing_by exact runOnce_rest_length_lt _h

/-- What a session can be asked to do. -/
inductive Request where
  | runOnce
  | run
  | evaluate (text : String)

inductive Answer where
  | more (more : Bool)
  | done
  | value (value : Option Float)

/-- One request to a session over an input. -/
def serve (s : Session) (input : List UInt8) : Request → Played (Outcome Answer)
  | .runOnce => answered .more (s.runOnce.play input)
  | .run => answered (fun _ => .done) (s.run input)
  | .evaluate text => answered .value ((s.evaluate text).play input)
where
  answered {α : Type} (f : α → Answer) (p : Played (Outcome α)) : Played (Outcome Answer) :=
    { p with value := ⟨p.value.answer.map f, p.value.session⟩ }

/-- Requests served one after another, each over the input that those before it have left. -/
def serveAll (s : Session) (input : List UInt8) : List Request → List (Played (Outcome Answer))
  | [] => []
  | request :: requests =>
    let p := s.serve input request
    p :: p.value.session.serveAll p.rest requests

/-- The input that is left when requests have been served one after another. -/
def inputAfter (s : Session) (input : List UInt8) : List Request → List UInt8
  | [] => input
  | request :: requests =>
    let p := s.serve input request
    p.value.session.inputAfter p.rest requests

end Session
end ReversePolish
