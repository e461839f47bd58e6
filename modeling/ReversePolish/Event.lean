import ReversePolish.Expression

/-! # Log events
What the parts of the library have to report beside their results, in the order in which it happens,
and the line in which each event is written. -/
namespace ReversePolish

inductive Event where
  | tokenizing (text : String)
  | tokenized (tokens : List Token)
  | converted (rpn : Rpn)
  /-- A token has been evaluated and has left this stack. -/
  | stepped (token : Token) (stack : Stack)
  | evaluated (value : Float)
  /-- The postfix form of a text was at hand. -/
  | cacheHit (text : String)
  | batch (text : String) (contexts : Nat)
  /-- A value was typed for a variable. -/
  | valueRead (name : String) (value : Float)
  | failed (text : String) (error : Error)
  deriving DecidableEq

/-- The entries between brackets, separated by commas. -/
def bracketed (entries : List String) : String := "[" ++ ", ".intercalate entries ++ "]"

/-- The level of the event and its message. -/
def Event.line : Event → String
  | tokenizing text => "DEBUG Tokenizing expression: " ++ text
  | tokenized tokens => "DEBUG Tokens: " ++ bracketed (tokens.map Token.listing)
  | converted rpn => "DEBUG Postfix: " ++ Token.line rpn
  | stepped token stack =>
    "TRACE " ++ token.text ++ " -> " ++ bracketed (stack.reverse.map Layout.full.text)
  | evaluated value => "DEBUG Evaluated to " ++ Layout.plain.text value
  | cacheHit text => "DEBUG Cache hit: " ++ text
  | batch text contexts => s!"DEBUG Evaluating '{text}' against {contexts} contexts"
  | valueRead name value => s!"DEBUG {name} = " ++ Layout.plain.text value
  | failed text error => s!"WARN '{text}' failed: " ++ error.message

end ReversePolish
