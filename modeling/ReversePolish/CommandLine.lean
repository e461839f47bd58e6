import ReversePolish.CommandLine.Arguments
import ReversePolish.Session

/-! # The command line
The arguments decide on one of three things: to write something and exit, to evaluate one
expression, or to hold a session until the input ends. -/
namespace ReversePolish.CommandLine

/-- What a program leaves behind. -/
structure Exit where
  code : UInt8
  stdout : String := ""
  stderr : String := ""
  deriving DecidableEq, Repr

inductive Plan where
  | report (exit : Exit)
  | evaluate (session : Session) (text : String)
  | converse (session : Session)

def versionLine : String := "rpncalc-rs 0.1.0\n"

def usageLine : String := "Usage: rpncalc [OPTIONS] [EXPRESSION]\n"

def helpText : String :=
  "Evaluate arithmetic expressions via postfix notation\n\n" ++ usageLine ++ "\n" ++
  "Arguments:\n" ++
  "  [EXPRESSION]  Expression to evaluate; starts an interactive session when omitted\n\n" ++
  "Options:\n" ++
  "  -v, --var <NAME=VALUE>         Bind a variable instead of being prompted for it\n" ++
  "      --postfix                  Print the postfix form instead of evaluating\n" ++
  "      --functions                List the built-in functions and exit\n" ++
  "      --cache-size <CACHE_SIZE>  Number of compiled expressions to keep [default: 100]\n" ++
  "  -h, --help                     Print help\n" ++
  "  -V, --version                  Print version\n"

/-- Whether a character of an argument is repeated in a message: of the controls only blanks are. -/
def isShown (c : Char) : Bool :=
  (' ' ≤ c && c ≠ '\x7f') || c = '\t' || c = '\n' || c = '\x0c' || c = '\r'

def usageText (e : UsageError) : String :=
  "error: " ++ .ofList (e.message.toList.filter isShown) ++ "\n\n" ++ usageLine ++
    "\nFor more information, try '--help'.\n"

def stopped : Stop → Exit
  | .help => { code := 0, stdout := helpText }
  | .version => { code := 0, stdout := versionLine }
  | .usage e => { code := 2, stderr := usageText e }

def failure (message : String) : Exit := { code := 1, stderr := "Error: " ++ message ++ "\n" }

def functionList : String := String.join (Builtin.all.map fun f => f.signature ++ "\n")

/-- The session that the options ask for. -/
def Options.session (o : Options) : Session where
  bindings := .ofList o.vars
  calculator := .ofSize (o.cacheSize.getD Calculator.defaultSize)

def Options.plan (o : Options) : Plan :=
  if o.functions then .report { code := 0, stdout := functionList }
  else if o.rpn then
    match o.expression with
    | none => .report (failure "--postfix needs an expression")
    | some text =>
      match parse text with
      | .ok rpn => .report { code := 0, stdout := Token.line rpn ++ "\n" }
      | .error e => .report (failure e.message)
  else
    match o.expression with
    | some text => .evaluate o.session text
    | none => .converse o.session

def plan (args : List String) : Plan :=
  match readArguments args with
  | .ok options => options.plan
  | .error stop => .report (stopped stop)

/-- How a program ends whose output has been written: `succeeded` judges what it came to. -/
def conclude {α : Type} (succeeded : α → Bool) : Except InputError α → Exit
  | .ok value => { code := if succeeded value then 0 else 1 }
  | .error e => failure e.message

/-- An expression succeeds if it has a value. -/
def concludeExpression : Except InputError (Option Float) → Exit := conclude Option.isSome

/-- A session that reaches the end of its input succeeds whatever its expressions came to. -/
def concludeSession : Except InputError Unit → Exit := conclude fun _ => true

/-- All that a plan writes and the code it ends with, over an input that is known in advance. -/
def Plan.run : Plan → List UInt8 → Exit
  | report exit, _ => exit
  | evaluate session text, input =>
    let p := (session.evaluate text).play input
    { concludeExpression p.value.answer with stdout := p.output }
  | converse session, input =>
    let p := session.run input
    { concludeSession p.value.answer with stdout := p.output }

def run (args : List String) (input : List UInt8) : Exit := (plan args).run input

end ReversePolish.CommandLine
