import ReversePolish.CommandLine

/-! # The program
Standard input is read line by line while a dialogue goes on, and a prompt is written out before the
program waits for an answer. -/
namespace ReversePolish.Terminal
open Text CommandLine

/-- The rest of a line of which these bytes have been read, the latest first. -/
partial def readReply (stdin : IO.FS.Stream) (bytes : List UInt8) : IO Reply := do
  match (← stdin.read 1).toList with
  | [] => return if bytes = [] then .ended else decodeLine bytes.reverse
  | byte :: _ =>
    if byte = newline then return decodeLine bytes.reverse else readReply stdin (byte :: bytes)

/-- Events are not shown. -/
def perform {α : Type} (stdin stdout : IO.FS.Stream) : Dialogue α → IO α
  | .finish value => return value
  | .say text next => do
    stdout.putStr text
    stdout.flush
    perform stdin stdout next
  | .note _ next => perform stdin stdout next
  | .ask next => do
    let reply ← readReply stdin []
    perform stdin stdout (next reply)

partial def converse (stdin stdout : IO.FS.Stream) (s : Session) :
    IO (Except InputError Unit) := do
  let turn ← perform stdin stdout s.runOnce
  match turn.answer with
  | .ok true => converse stdin stdout turn.session
  | .ok false => return .ok ()
  | .error e => return .error e

def leave (exit : Exit) : IO UInt32 := do
  (← IO.getStdout).putStr exit.stdout
  (← IO.getStderr).putStr exit.stderr
  return exit.code.toUInt32

end ReversePolish.Terminal

open ReversePolish ReversePolish.CommandLine ReversePolish.Terminal in
def main (args : List String) : IO UInt32 := do
  let stdin ← IO.getStdin
  let stdout ← IO.getStdout
  match plan args with
  | .report exit => leave exit
  | .evaluate session text =>
    let outcome ← perform stdin stdout (session.evaluate text)
    leave (concludeExpression outcome.answer)
  | .converse session => leave (concludeSession (← converse stdin stdout session))
