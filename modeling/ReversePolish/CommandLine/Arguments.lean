import ReversePolish.CommandLine.Options

/-! # Reading the arguments
Arguments are read from left to right. An option may carry its value in the same argument or take
the next one; a value that stands in an argument of its own is checked when the next option or the
expression comes, or at the end, so that an argument nobody expects is reported before it. -/
namespace ReversePolish.CommandLine

inductive UsageError where
  | unexpectedArgument (arg : String)
  | unexpectedValue (value : String) (opt : Opt)
  | missingValue (opt : Opt)
  | repeated (opt : Opt)
  | invalidValue (value : String) (opt : Opt) (reason : String)
  deriving DecidableEq, Repr

def UsageError.message : UsageError → String
  | unexpectedArgument arg => s!"unexpected argument '{arg}' found"
  | unexpectedValue value opt =>
    s!"unexpected value '{value}' for '{opt.display}' found; no more were expected"
  | missingValue opt => s!"a value is required for '{opt.display}' but none was supplied"
  | repeated opt => s!"the argument '{opt.display}' cannot be used multiple times"
  | invalidValue value opt reason => s!"invalid value '{value}' for '{opt.display}': {reason}"

/-- Why the arguments are not read to their end. -/
inductive Stop where
  | help
  | version
  | usage (e : UsageError)
  deriving DecidableEq, Repr

/-- The options with one more applied to them. -/
def Options.apply (o : Options) (opt : Opt) (value? : Option String) : Except Stop Options :=
  match opt, value? with
  | .help, _ => .error .help
  | .version, _ => .error .version
  | .rpn, _ => if o.rpn then .error (.usage (.repeated opt)) else .ok { o with rpn := true }
  | .functions, _ =>
    if o.functions then .error (.usage (.repeated opt)) else .ok { o with functions := true }
  | .var, some value =>
    match readBinding value with
    | .ok pair => .ok { o with vars := o.vars ++ [pair] }
    | .error reason => .error (.usage (.invalidValue value opt reason))
  | .cacheSize, some value =>
    if o.cacheSize.isSome then .error (.usage (.repeated opt))
    else match readSize value with
      | .ok size => .ok { o with cacheSize := some size }
      | .error reason => .error (.usage (.invalidValue value opt reason))
  | _, none => .error (.usage (.missingValue opt))

/-- What has been read of the arguments. -/
structure Reader where
  options : Options := {}
  /-- An option that has been read but not applied yet, with the value that followed it. -/
  pending : Option (Opt × Option String) := none
  /-- Whether `--` has been read, after which no argument is an option. -/
  literal : Bool := false

namespace Reader

/-- Applies the option that waits for this. -/
def settle (r : Reader) : Except Stop Reader :=
  match r.pending with
  | none => .ok r
  | some (opt, value?) => do
    return { r with options := ← r.options.apply opt value?, pending := none }

def takeOption (r : Reader) (opt : Opt) (value? : Option String) : Except Stop Reader := do
  let r ← r.settle
  return { r with options := ← r.options.apply opt value? }

/-- Leaves an option waiting for the next argument. -/
def awaitValue (r : Reader) (opt : Opt) : Except Stop Reader := do
  return { ← r.settle with pending := some (opt, none) }

def takeExpression (r : Reader) (arg : String) : Except Stop Reader :=
  if r.options.expression.isSome then .error (.usage (.unexpectedArgument arg))
  else do
    let r ← r.settle
    return { r with options := { r.options with expression := some arg } }

/-- An argument with two dashes, which have been removed. -/
def takeLong (r : Reader) (cs : List Char) : Except Stop Reader :=
  let name := String.ofList (cs.takeWhile (· != '='))
  match Opt.ofLong? name, cs.dropWhile (· != '=') with
  | none, _ => .error (.usage (.unexpectedArgument ("--" ++ name)))
  | some opt, [] => if opt.takesValue then r.awaitValue opt else r.takeOption opt none
  | some opt, _ :: value =>
    if opt.takesValue then r.takeOption opt (some (.ofList value))
    else .error (.usage (.unexpectedValue (.ofList value) opt))

/-- An argument with one dash, which has been removed: letters for options without value, the last
of which may be one with a value. -/
def takeShort (r : Reader) : List Char → Except Stop Reader
  | [] => .ok r
  | c :: cs =>
    match Opt.ofShort? c with
    | none => .error (.usage (.unexpectedArgument (.ofList ['-', c])))
    | some opt =>
      if opt.takesValue then
        match cs with
        | [] => r.awaitValue opt
        | '=' :: value => r.takeOption opt (some (.ofList value))
        | value => r.takeOption opt (some (.ofList value))
      else do
        takeShort (← r.takeOption opt none) cs

/-- One argument. A dash alone is no option. -/
def take (r : Reader) (arg : String) : Except Stop Reader :=
  if r.literal then r.takeExpression arg
  else
    match arg.toList with
    | ['-', '-'] => .ok { r with literal := true }
    | '-' :: '-' :: cs => r.takeLong cs
    | '-' :: c :: cs => r.takeShort (c :: cs)
    | _ =>
      match r.pending with
      | some (opt, none) => .ok { r with pending := some (opt, some arg) }
      | _ => r.takeExpression arg

end Reader

def readArguments (args : List String) : Except Stop Options := do
  let r ← args.foldlM Reader.take {}
  return (← r.settle).options

end ReversePolish.CommandLine
