import ReversePolish.Token.Scan

/-! # Lexemes
How the tokens of a text lie in it, said without a scanner. Each token has lexemes, the characters
it is written with; a `Division` cuts a text into lexemes and the white space around them, and is
valid if no lexeme could be made longer by the character that follows it. A text that cannot be
divided can be divided up to a `Fault`. -/
namespace ReversePolish

/-- The same error in a text that has `k` more characters before it. -/
def LexError.shift (k : Nat) : LexError → LexError
  | unknownCharacter position character => unknownCharacter (position + k) character
  | malformedNumber position text => malformedNumber (position + k) text

/-- The characters that the operators are written with. -/
inductive Operator.IsWritten : Operator → Char → Prop
  | add : IsWritten .add '+'
  | subtract : IsWritten .subtract '-'
  | multiply : IsWritten .multiply '*'
  | divide : IsWritten .divide '/'
  | power : IsWritten .power '^'

theorem Operator.isWritten_iff {op : Operator} {c : Char} : op.IsWritten c ↔ op.symbol = c := by
  constructor
  · intro h
    cases h <;> rfl
  · rintro rfl
    cases op <;> constructor

namespace Token

/-- The tokens of one character. -/
inductive Single : Token → Char → Prop
  | operator {op : Operator} {c : Char} (h : op.IsWritten c) : Single (.operator op) c
  | leftParen : Single .leftParen '('
  | rightParen : Single .rightParen ')'
  | comma : Single .comma ','

/-- The characters of numbers. -/
def InNumber (c : Char) : Prop := c.isDigit = true ∨ c = '.'

/-- The characters that names begin with. -/
def BeginsName (c : Char) : Prop := Text.isAlphabetic c = true ∨ c = '_'

/-- The characters of names. -/
def InName (c : Char) : Prop := BeginsName c ∨ c.isDigit = true

instance (c : Char) : Decidable (InNumber c) :=
  inferInstanceAs (Decidable (c.isDigit = true ∨ c = '.'))

instance (c : Char) : Decidable (BeginsName c) :=
  inferInstanceAs (Decidable (Text.isAlphabetic c = true ∨ c = '_'))

instance (c : Char) : Decidable (InName c) :=
  inferInstanceAs (Decidable (BeginsName c ∨ c.isDigit = true))

/-! ## What the scanner takes for such characters -/

section
variable {t : Token} {c : Char}

@[simp] theorem ofChar?_symbol (op : Operator) : ofChar? op.symbol = some (.operator op) := by
  cases op <;> decide

theorem single_iff : Single t c ↔ ofChar? c = some t := by
  constructor
  · intro h
    cases h with
    | @operator op c h =>
      obtain rfl := Operator.isWritten_iff.mp h
      exact ofChar?_symbol op
    | leftParen | rightParen | comma => rfl
  · intro h
    unfold ofChar? at h
    split at h
    · cases h
      exact .leftParen
    · cases h
      exact .rightParen
    · cases h
      exact .comma
    · obtain ⟨op, ho, rfl⟩ := Option.map_eq_some_iff.mp h
      exact .operator (Operator.isWritten_iff.mpr (Operator.symbol_of_ofSymbol? ho))

theorem isNumeric_iff : isNumeric c = true ↔ InNumber c := by
  simp [isNumeric, InNumber]

theorem startsName_iff : startsName c = true ↔ BeginsName c := by
  simp [startsName, BeginsName]

theorem continuesName_iff : continuesName c = true ↔ InName c := by
  simp [continuesName, InName, startsName_iff]

end

/-! ## Divisions -/

/-- A token is written with these characters. -/
inductive Lexeme : Token → List Char → Prop
  | number {cs : List Char} {value : Float} (digit : ∃ c ∈ cs, c.isDigit = true)
      (numeric : ∀ c ∈ cs, InNumber c) (point : cs.count '.' ≤ 1)
      (read : Numeral.read? cs = some value) : Lexeme (.number value) cs
  | identifier {c : Char} {cs : List Char} (first : BeginsName c) (rest : ∀ d ∈ cs, InName d) :
      Lexeme (.identifier (.ofList (c :: cs))) (c :: cs)
  | single {c : Char} {t : Token} (h : Single t c) : Lexeme t [c]

/-- The token has a lexeme: its number is finite and has no sign, or its name is one by its
characters. -/
def Legible : Token → Prop
  | number value => value.isFinite = true ∧ Binary64.isNegative value = false
  | identifier name => ∃ c cs, name.toList = c :: cs ∧ BeginsName c ∧ ∀ d ∈ cs, InName d
  | _ => True

/-- A delimiter with the tokens it stands for: white space for none, another one for itself. -/
inductive Delimits : Char → List Token → Prop
  | space {c : Char} (h : Text.isWhiteSpace c = true) : Delimits c []
  | single {c : Char} {t : Token} (h : Single t c) : Delimits c [t]

/-- The character could not stand in a lexeme of the token after its last character. -/
def EndsBefore (t : Token) (c : Char) : Prop :=
  match t with
  | .number _ => ¬InNumber c
  | .identifier _ => ¬InName c
  | _ => True

/-- A lexeme with its token and the white space before it. -/
structure Piece where
  blank : List Char
  token : Token
  lexeme : List Char

def Piece.chars (p : Piece) : List Char := p.blank ++ p.lexeme

/-- Pieces one after another, and the white space after the last. -/
structure Division where
  pieces : List Piece
  trail : List Char

namespace Division

def chars (d : Division) : List Char := d.pieces.flatMap Piece.chars ++ d.trail

def tokens (d : Division) : List Token := d.pieces.map Piece.token

def IsBlank (cs : List Char) : Prop := ∀ c ∈ cs, Text.isWhiteSpace c = true

instance (cs : List Char) : Decidable (IsBlank cs) :=
  decidable_of_decidable_of_iff (List.all_eq_true (l := cs) (p := Text.isWhiteSpace))

/-- What should be white space is, every lexeme belongs to its token, and none could be longer. -/
def Valid : Division → Prop
  | ⟨[], trail⟩ => IsBlank trail
  | ⟨p :: ps, trail⟩ =>
    IsBlank p.blank ∧ Lexeme p.token p.lexeme ∧
      (∀ c, (chars ⟨ps, trail⟩).head? = some c → EndsBefore p.token c) ∧ Valid ⟨ps, trail⟩
termination_by d => d.pieces.length

/-- The token whose lexeme reaches to the end of the text; none if the text ends with white space or
has no lexeme. -/
def atEnd? : Division → Option Token
  | ⟨pieces, []⟩ => pieces.getLast?.map Piece.token
  | ⟨_, _ :: _⟩ => none

/-- The lexeme that reaches to the end of the text does not go on in the characters after it. -/
def StopsBefore (d : Division) (rest : List Char) : Prop :=
  ∀ t c, d.atEnd? = some t → rest.head? = some c → EndsBefore t c

/-- The division is one of the characters up to `rest`, which begins with no part of a lexeme. -/
structure Covers (d : Division) (cs rest : List Char) : Prop where
  valid : d.Valid
  split : d.chars ++ rest = cs
  stops : d.StopsBefore rest

end Division

/-- The characters begin with something that is neither white space nor a lexeme, and this is the
error that it causes at a position. -/
inductive Fault : List Char → (Nat → LexError) → Prop
  | unknown {c : Char} {cs : List Char} (space : Text.isWhiteSpace c = false)
      (numeric : ¬InNumber c) (name : ¬BeginsName c) (single : ∀ t, ¬Single t c) :
      Fault (c :: cs) (.unknownCharacter · c)
  | malformed {run rest : List Char} (nonempty : run ≠ []) (numeric : ∀ c ∈ run, InNumber c)
      (ends : ∀ c, rest.head? = some c → ¬InNumber c) (read : Numeral.read? run = none) :
      Fault (run ++ rest) (.malformedNumber · (.ofList run))

end Token

end ReversePolish
