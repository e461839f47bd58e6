import ReversePolish.Builtin
import ReversePolish.Decimal.Layout
import ReversePolish.Operator
import ReversePolish.Text.Quoted

/-! # Tokens
The pieces of an expression, in infix as in postfix order, with the two ways of writing them: `text`
as they stand in an expression, and `listing` with the kind of each token spelled out. -/
namespace ReversePolish

inductive Token where
  | number (value : Float)
  /-- A variable or a function; which one is decided where the token is used. -/
  | identifier (name : String)
  | operator (op : Operator)
  | leftParen
  | rightParen
  | comma
  deriving DecidableEq

namespace Token

def text : Token → String
  | number value => Layout.plain.text value
  | identifier name => name
  | operator op => op.symbol.toString
  | leftParen => "("
  | rightParen => ")"
  | comma => ","

/-- Operators, parentheses and commas are written with one character, which is a token by itself. -/
def ofChar? : Char → Option Token
  | '(' => some leftParen
  | ')' => some rightParen
  | ',' => some comma
  | c => (Operator.ofSymbol? c).map operator

/-- The tokens one after another with a blank between each two. -/
def line (ts : List Token) : String := " ".intercalate (ts.map text)

end Token

def Operator.listing : Operator → String
  | add => "Add"
  | subtract => "Subtract"
  | multiply => "Multiply"
  | divide => "Divide"
  | power => "Power"

def Token.listing : Token → String
  | number value => "Number(" ++ Layout.full.text value ++ ")"
  | identifier name => "Identifier(" ++ Text.quoted name ++ ")"
  | operator op => "Operator(" ++ op.listing ++ ")"
  | leftParen => "LeftParen"
  | rightParen => "RightParen"
  | comma => "Comma"

end ReversePolish
