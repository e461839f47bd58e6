import ReversePolish.Decimal.Plain
import ReversePolish.Infix
import ReversePolish.Token.Lexeme

/-! # Spellings of trees
Which characters write a tree in infix order, said without tokens. The levels are those of the infix
grammar: parentheses may stand around every operand and must stand where the level asks for them.
White space may stand before and after everything, and nowhere is any needed. -/
namespace ReversePolish
open Token

mutual

/-- The characters write the tree at this level. -/
inductive Spells : Nat → List Char → Tree → Prop
  | number {cs : List Char} (h : Numeral.IsPlain cs) :
      Spells Level.primary cs (.number (Numeral.value cs h))
  | var {c : Char} {cs : List Char} (first : BeginsName c) (rest : ∀ d ∈ cs, InName d) :
      Spells Level.primary (c :: cs) (.var (.ofList (c :: cs)))
  | call (f : Builtin) {gap cs : List Char} {args : List Tree} (blank : Division.IsBlank gap)
      (h : SpellsArguments cs args) :
      Spells Level.primary (f.name.toList ++ gap ++ '(' :: cs ++ [')']) (.call f args)
  | parens {cs : List Char} {t : Tree} (h : Spells Level.expression cs t) :
      Spells Level.primary ('(' :: cs ++ [')']) t
  | spaced {n : Nat} {before cs after : List Char} {t : Tree} (blank : Division.IsBlank before)
      (h : Spells n cs t) (blank' : Division.IsBlank after) : Spells n (before ++ cs ++ after) t
  | tighter {n : Nat} {cs : List Char} {t : Tree} (h : Spells (n + 1) cs t) : Spells n cs t
  | left {n : Nat} {op : Operator} {c : Char} {cs ds : List Char} {l r : Tree}
      (level : Level.GroupsLeft n op) (written : op.IsWritten c) (hl : Spells n cs l)
      (hr : Spells (n + 1) ds r) : Spells n (cs ++ c :: ds) (.operation op l r)
  | right {n : Nat} {op : Operator} {c : Char} {cs ds : List Char} {l r : Tree}
      (level : Level.GroupsRight n op) (written : op.IsWritten c) (hl : Spells (n + 1) cs l)
      (hr : Spells n ds r) : Spells n (cs ++ c :: ds) (.operation op l r)

/-- The characters between the parentheses of a call write its arguments. -/
inductive SpellsArguments : List Char → List Tree → Prop
  | none {gap : List Char} (blank : Division.IsBlank gap) : SpellsArguments gap []
  | one {cs : List Char} {t : Tree} (h : Spells Level.expression cs t) : SpellsArguments cs [t]
  | more {cs ds : List Char} {t u : Tree} {args : List Tree} (h : Spells Level.expression cs t)
      (hs : SpellsArguments ds (u :: args)) : SpellsArguments (cs ++ ',' :: ds) (t :: u :: args)

end

end ReversePolish
