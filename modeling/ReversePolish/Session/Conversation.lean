import ReversePolish.Session

/-! # Conversations
What passes between a session and the one who types, said without a dialogue: whose values are asked
for, which lines answer, and which line tells the outcome. -/
namespace ReversePolish
open Text

/-- What follows the first `n` lines. After the last line there is nothing. -/
def Text.afterLines : Nat → List UInt8 → List UInt8
  | 0, input => input
  | n + 1, input => afterLines n ((input.dropWhile (· != 10)).drop 1)

/-- The lines of an input, each without the newline that ends it, which is the byte 10. -/
def Text.lines (input : List UInt8) : List (List UInt8) :=
  if _h : input = [] then []
  else input.takeWhile (· != 10) :: lines ((input.dropWhile (· != 10)).drop 1)
termination_by input.length
decreasing_by exact afterLine_length_lt _h

theorem Text.afterLines_zero (input : List UInt8) : afterLines 0 input = input := rfl

theorem Text.afterLines_succ (n : Nat) (input : List UInt8) :
    afterLines (n + 1) input = afterLines n (afterLine input) := rfl

theorem Text.lines_of_ne_nil {input : List UInt8} (h : input ≠ []) :
    lines input = firstLine input :: lines (afterLine input) := by
  rw [lines, dif_neg h]
  rfl

/-- What `n` requests for a line are answered with. -/
def Text.firstReplies : Nat → List UInt8 → List Reply
  | 0, _ => []
  | n + 1, input => (readLine input).1 :: firstReplies n (afterLine input)

/-- The pairs bound in their order, over the bindings that there are. -/
def Bindings.bindAll (b : Bindings) (pairs : List (String × Float)) : Bindings :=
  pairs.foldl (fun b p => b.bind p.1 p.2) b

/-- The line that was heard. -/
def Utterance.reply? : Utterance → Option Reply
  | heard reply => some reply
  | _ => none

namespace Played

variable {α : Type}

/-- What was heard, in its order. -/
def replies (p : Played α) : List Reply := p.transcript.filterMap Utterance.reply?

/-- All that was said and heard, without the events. -/
def exchange (p : Played α) : List Utterance := p.transcript.filter fun u => u.event?.isNone

@[simp] theorem after_value (us : List Utterance) (p : Played α) : (p.after us).value = p.value :=
  rfl

theorem exchange_after (us : List Utterance) (p : Played α) :
    (p.after us).exchange = us.filter (fun u => u.event?.isNone) ++ p.exchange :=
  List.filter_append us p.transcript

/-- Events are no part of the exchange. -/
theorem exchange_after_noted (events : List Event) (p : Played α) :
    (p.after (events.map .noted)).exchange = p.exchange := by
  simp [exchange_after, Utterance.event?]

theorem output_after (us : List Utterance) (p : Played α) :
    (p.after us).output = String.join (us.map Utterance.output) ++ p.output := by
  simp [output, after, String.join_append]

/-- Events write nothing. -/
theorem output_eq_exchange (p : Played α) :
    p.output = String.join (p.exchange.map Utterance.output) := by
  unfold output exchange
  induction p.transcript with
  | nil => rfl
  | cons u us ih =>
    cases u with
    | noted event => simpa [Utterance.output, Utterance.event?] using ih
    | said text | heard reply => simp [Utterance.event?, ih]

end Played

namespace Session

/-- How the value of a name is asked for. -/
def question (name : String) : String := "Enter value for " ++ name ++ ": "

@[simp] theorem expressionPrompt_eq : expressionPrompt = "Enter expression: " := rfl

@[simp] theorem valuePrompt_eq (name : String) : valuePrompt name = question name := rfl

/-- The names are asked for one after another, and each question is answered by the next line. -/
def questions : List String → List UInt8 → List Utterance
  | [], _ => []
  | name :: names, input =>
    .said (question name) :: .heard (readLine input).1 :: questions names (afterLine input)

/-- What is typed in answer to a question when `n` questions have been answered before. White space
at its ends does not count, and nothing is typed after the end of the input. -/
def typedAfter (n : Nat) (input : List UInt8) : String :=
  match (readLine (afterLines n input)).1 with
  | .line text => trim text
  | _ => ""

theorem typed_readLine (n : Nat) (input : List UInt8) :
    typed (readLine (afterLines n input)).1 = typedAfter n input := rfl

def valueAfter (n : Nat) (input : List UInt8) : Option Float :=
  Numeral.read? (typedAfter n input).toList

/-- The line that tells the outcome of an expression. -/
def outcomeLine : Except Error Float → String
  | .ok value => "Result: " ++ Layout.full.text value ++ "\n"
  | .error _ => "Error: Invalid expression\n"

/-- An expression was dealt with like this: the values of `asked` were asked for, in ascending order
and each answered by one line, and after that the outcome was written. -/
structure Conducted (input : List UInt8) (asked : List String) (outcome : Except Error Float)
    (p : Played (Outcome (Option Float))) : Prop where
  ascending : asked.Pairwise (· < ·)
  exchange : p.exchange = questions asked input ++ [.said (outcomeLine outcome)]
  output : p.output = String.join (asked.map question) ++ outcomeLine outcome
  rest : p.rest = afterLines asked.length input
  answer : p.value.answer = .ok outcome.toOption

/-- What becomes of an expression when this is typed: the names whose values are asked for, and how
it comes out, unless an answer cannot be read. -/
inductive ComesOut (bindings : Bindings) (text : String) (input : List UInt8) :
    List String → Except InputError (Except Error Float) → Prop
  /-- It cannot be scanned. -/
  | unscanned {e : LexError} (scan : freeVariables text = .error e) :
      ComesOut bindings text input [] (.ok (.error (.lex e)))
  /-- All answers are numerals. -/
  | computed {names unbound : List String} {values : List Float}
      (scan : freeVariables text = .ok names)
      (free : names.filter (fun name => !bindings.binds name) = unbound)
      (read : (List.range unbound.length).map (valueAfter · input) = values.map some) :
      ComesOut bindings text input unbound
        (.ok (ReversePolish.evaluate text (bindings.bindAll (unbound.zip values))))
  /-- The answer for `name` is the first that is no numeral. -/
  | refused {names unbound : List String} {n : Nat} {name : String}
      (scan : freeVariables text = .ok names)
      (free : names.filter (fun name => !bindings.binds name) = unbound)
      (here : unbound[n]? = some name) (before : ∀ m < n, (valueAfter m input).isSome)
      (failed : valueAfter n input = none)
      (readable : (readLine (afterLines n input)).1 ≠ .malformed) :
      ComesOut bindings text input (unbound.take (n + 1))
        (.ok (.error (.invalidValue name (typedAfter n input))))
  /-- The answers before are numerals, and this one is not UTF-8. -/
  | unreadable {names unbound : List String} {n : Nat} {name : String}
      (scan : freeVariables text = .ok names)
      (free : names.filter (fun name => !bindings.binds name) = unbound)
      (here : unbound[n]? = some name) (before : ∀ m < n, (valueAfter m input).isSome)
      (malformed : (readLine (afterLines n input)).1 = .malformed) :
      ComesOut bindings text input (unbound.take (n + 1)) (.error .invalidUtf8)

/-- What a request shows to the outside: its answer, what it wrote and the input that it left. -/
structure View where
  answer : Except InputError Answer
  output : String
  rest : List UInt8

def view (p : Played (Outcome Answer)) : View := ⟨p.value.answer, p.output, p.rest⟩

end Session
end ReversePolish
