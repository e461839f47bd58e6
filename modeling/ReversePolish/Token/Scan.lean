import ReversePolish.Decimal.Numeral
import ReversePolish.Text.Alphabetic
import ReversePolish.Text.WhiteSpace
import ReversePolish.Token

/-! # From text to tokens
The text is read from left to right. White space separates tokens and is dropped; a run of digits
and points is one number and a run of letters, digits and underscores is one identifier, each as
long as possible; the other tokens are single characters. The first piece that is no token stops the
scan with its position, counted in characters. -/
namespace ReversePolish

inductive LexError where
  | unknownCharacter (position : Nat) (character : Char)
  | malformedNumber (position : Nat) (text : String)
  deriving DecidableEq, Repr

def LexError.message : LexError → String
  | unknownCharacter position character =>
    s!"Unknown character '{character}' at position {position}"
  | malformedNumber position text => s!"Malformed number '{text}' at position {position}"

namespace Token

def isNumeric (c : Char) : Bool := c.isDigit || c = '.'

def startsName (c : Char) : Bool := Text.isAlphabetic c || c = '_'

def continuesName (c : Char) : Bool := startsName c || c.isDigit

/-- The tokens of the characters that begin at `position`. -/
def scan (position : Nat) : List Char → Except LexError (List Token)
  | [] => .ok []
  | c :: rest =>
    if Text.isWhiteSpace c then scan (position + 1) rest
    else if isNumeric c then
      let run := c :: rest.takeWhile isNumeric
      match Numeral.read? run with
      | none => .error (.malformedNumber position (.ofList run))
      | some value =>
        (scan (position + run.length) (rest.dropWhile isNumeric)).map (number value :: ·)
    else if startsName c then
      let run := c :: rest.takeWhile continuesName
      (scan (position + run.length) (rest.dropWhile continuesName)).map
        (identifier (.ofList run) :: ·)
    else
      match ofChar? c with
      | none => .error (.unknownCharacter position c)
      | some t => (scan (position + 1) rest).map (t :: ·)
termination_by cs => cs.length
decreasing_by
  all_goals
    have hn := (List.dropWhile_sublist isNumeric (l := rest)).length_le
    have hc := (List.dropWhile_sublist continuesName (l := rest)).length_le
    simp only [List.length_cons]
    omega

end Token

def tokenize (text : String) : Except LexError (List Token) := Token.scan 0 text.toList

/-- Puts a name into an ascending list of names in which none stands twice. -/
def insertName (name : String) : List String → List String
  | [] => [name]
  | first :: names =>
    if name < first then name :: first :: names
    else if name = first then first :: names
    else first :: insertName name names

/-- The identifiers among the tokens that are no function names, ascending and without repetition.
-/
def variablesOf (ts : List Token) : List String :=
  ts.foldr (fun t names => match t with
    | .identifier name => if Builtin.ofName? name = none then insertName name names else names
    | _ => names) []

def freeVariables (text : String) : Except LexError (List String) := (tokenize text).map variablesOf

theorem mem_insertName {x name : String} {names : List String} :
    x ∈ insertName name names ↔ x = name ∨ x ∈ names := by
  induction names with
  | nil => simp [insertName]
  | cons first names ih =>
    simp only [insertName]
    split
    · simp
    · split
      · simp_all
      · simp only [List.mem_cons, ih]
        constructor <;> rintro (h | h | h) <;> simp [h]

theorem mem_variablesOf {name : String} {ts : List Token} :
    name ∈ variablesOf ts ↔ .identifier name ∈ ts ∧ Builtin.ofName? name = none := by
  induction ts with
  | nil => simp [variablesOf]
  | cons t ts ih =>
    rw [show variablesOf (t :: ts) = match t with
      | .identifier name =>
        if Builtin.ofName? name = none then insertName name (variablesOf ts) else variablesOf ts
      | _ => variablesOf ts from rfl]
    cases t with
    | identifier n =>
      dsimp only
      split
      · simp only [mem_insertName, ih, List.mem_cons, Token.identifier.injEq]
        grind
      · simp only [ih, List.mem_cons, Token.identifier.injEq]
        grind
    | _ => simp [ih]

end ReversePolish
