import ReversePolish.Decimal.Numeral
import ReversePolish.Text.WhiteSpace

/-! # Options
The options of the command line, how they are spelled, and how the text of a value is read. -/
namespace ReversePolish.CommandLine

inductive Opt where
  | var
  | rpn
  | functions
  | cacheSize
  | help
  | version
  deriving DecidableEq, Repr

namespace Opt

def all : List Opt := [var, rpn, functions, cacheSize, help, version]

def long : Opt → String
  | var => "var"
  | rpn => "postfix"
  | functions => "functions"
  | cacheSize => "cache-size"
  | help => "help"
  | version => "version"

def short? : Opt → Option Char
  | var => some 'v'
  | help => some 'h'
  | version => some 'V'
  | _ => none

/-- The word that stands for the value of an option that takes one. -/
def valueName? : Opt → Option String
  | var => some "NAME=VALUE"
  | cacheSize => some "CACHE_SIZE"
  | _ => none

def takesValue (o : Opt) : Bool := o.valueName?.isSome

/-- The option as messages show it. -/
def display (o : Opt) : String :=
  match o.valueName? with
  | some value => s!"--{o.long} <{value}>"
  | none => s!"--{o.long}"

def ofLong? (name : String) : Option Opt := all.find? (·.long = name)

def ofShort? (c : Char) : Option Opt := all.find? (·.short? = some c)

end Opt

/-- What the arguments ask for. -/
structure Options where
  expression : Option String := none
  /-- The pairs given with `--var`, in their order. -/
  vars : List (String × Float) := []
  rpn : Bool := false
  functions : Bool := false
  cacheSize : Option Nat := none

/-- A name and a value joined by an equals sign, with blanks allowed around both. -/
def readBinding (text : String) : Except String (String × Float) :=
  let name := text.toList.takeWhile (· != '=')
  match text.toList.dropWhile (· != '=') with
  | [] => .error s!"expected NAME=VALUE, got '{text}'"
  | _ :: value =>
    match Text.trimmed value with
    | [] =>
      .error s!"invalid value for '{String.ofList name}': cannot parse float from empty string"
    | digits =>
      match Numeral.read? digits with
      | some x => .ok (.ofList (Text.trimmed name), x)
      | none => .error s!"invalid value for '{String.ofList name}': invalid float literal"

/-- Decimal digits, with a plus sign allowed before them, for a number below `2 ^ 64`. -/
def readSize (text : String) : Except String Nat :=
  match text.toList with
  | [] => .error "cannot parse integer from empty string"
  | '+' :: c :: cs => digits (c :: cs)
  | cs => digits cs
where
  digits (cs : List Char) : Except String Nat :=
    cs.foldlM (fun n c =>
      let m := 10 * n + (c.toNat - '0'.toNat)
      if !c.isDigit then .error "invalid digit found in string"
      else if UInt64.size ≤ m then .error "number too large to fit in target type"
      else .ok m) 0

end ReversePolish.CommandLine
