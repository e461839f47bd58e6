import ReversePolish.CommandLine
import ReversePolish.Session.Conversation

/-! # What the command line promises
How a binding is written, and how the program ends that has evaluated an expression. Neither speaks
of the arguments one by one nor of a session. -/
namespace ReversePolish.CommandLine
open Session

/-- The argument holds a name and a numeral, and the first equals sign is between them. White space
around either is no part of it. -/
def Gives (arg name : String) (value : Float) : Prop :=
  ∃ before after, arg.toList = before ++ '=' :: after ∧ '=' ∉ before ∧
    name = .ofList (Text.trimmed before) ∧ Numeral.read? (Text.trimmed after) = some value

/-- How the program ends that has asked for these values before the expression came out. -/
def Exit.after (asked : List String) (outcome : Except InputError (Except Error Float)) : Exit :=
  let prompts := String.join (asked.map question)
  match outcome with
  | .ok (.ok value) => { code := 0, stdout := prompts ++ outcomeLine (.ok value) }
  | .ok (.error e) => { code := 1, stdout := prompts ++ outcomeLine (.error e) }
  | .error .invalidUtf8 =>
    { code := 1, stdout := prompts, stderr := "Error: stream did not contain valid UTF-8\n" }

end ReversePolish.CommandLine
