import ReversePolish.Event
import ReversePolish.Text.Lines

/-! # Dialogues
A dialogue is a conversation with someone who answers with lines of text. It is a finite tree: it
writes a text, reports an event, or asks for a line and goes on according to the reply. `play` holds
it against an input of bytes and keeps all that was said, heard and reported. -/
namespace ReversePolish
open Text

inductive Dialogue (α : Type) where
  | finish (value : α)
  | say (text : String) (next : Dialogue α)
  | note (event : Event) (next : Dialogue α)
  | ask (next : Reply → Dialogue α)

inductive Utterance where
  | said (text : String)
  | heard (reply : Reply)
  | noted (event : Event)
  deriving DecidableEq

namespace Utterance

/-- The text that an utterance writes. -/
def output : Utterance → String
  | said text => text
  | _ => ""

def event? : Utterance → Option Event
  | noted event => some event
  | _ => none

end Utterance

/-- The outcome of a dialogue, all that was uttered, and the input that was not read. -/
structure Played (α : Type) where
  value : α
  transcript : List Utterance
  rest : List UInt8

namespace Played

variable {α : Type}

def output (p : Played α) : String := String.join (p.transcript.map Utterance.output)

def events (p : Played α) : List Event := p.transcript.filterMap Utterance.event?

/-- The same outcome after something else was uttered. -/
def after (us : List Utterance) (p : Played α) : Played α :=
  { p with transcript := us ++ p.transcript }

end Played

namespace Dialogue

variable {α β : Type}

protected def bind : Dialogue α → (α → Dialogue β) → Dialogue β
  | finish value, f => f value
  | say text next, f => say text (next.bind f)
  | note event next, f => note event (next.bind f)
  | ask next, f => ask fun reply => (next reply).bind f

instance : Monad Dialogue where
  pure := finish
  bind := Dialogue.bind

def noteAll (events : List Event) (next : Dialogue α) : Dialogue α := events.foldr note next

def play : Dialogue α → List UInt8 → Played α
  | finish value, input => ⟨value, [], input⟩
  | say text next, input => (next.play input).after [.said text]
  | note event next, input => (next.play input).after [.noted event]
  | ask next, input =>
    ((next (readLine input).1).play (readLine input).2).after [.heard (readLine input).1]

theorem play_bind (d : Dialogue α) (f : α → Dialogue β) (input : List UInt8) :
    (d >>= f).play input =
      ((f (d.play input).value).play (d.play input).rest).after (d.play input).transcript := by
  show (d.bind f).play input = _
  induction d generalizing input with
  | finish => rfl
  | say _ _ ih => simp [Dialogue.bind, play, ih, Played.after]
  | note _ _ ih => simp [Dialogue.bind, play, ih, Played.after]
  | ask _ ih => simp [Dialogue.bind, play, ih, Played.after]

theorem play_noteAll (events : List Event) (d : Dialogue α) (input : List UInt8) :
    (noteAll events d).play input = (d.play input).after (events.map .noted) := by
  induction events with
  | nil => rfl
  | cons event events ih =>
    have hnote : (noteAll (event :: events) d).play input =
        ((noteAll events d).play input).after [.noted event] := rfl
    rw [hnote, ih]
    rfl

/-- A dialogue reads its input forward. -/
theorem play_rest_length_le (d : Dialogue α) (input : List UInt8) :
    (d.play input).rest.length ≤ input.length := by
  induction d generalizing input with
  | finish => exact Nat.le_refl _
  | say _ _ ih => exact ih input
  | note _ _ ih => exact ih input
  | ask _ ih => exact Nat.le_trans (ih _ _) (readLine_length_le input)

end Dialogue
end ReversePolish
