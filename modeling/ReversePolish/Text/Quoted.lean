import ReversePolish.Text.GraphemeExtend
import ReversePolish.Text.Invisible

/-! # Quoted text
A text between double quotes, in which every character that would end the text, vanish from sight or
join its neighbour is replaced by an escape. -/
namespace ReversePolish.Text

def escape (c : Char) : List Char :=
  match c with
  | '\x00' => ['\\', '0']
  | '\t' => ['\\', 't']
  | '\n' => ['\\', 'n']
  | '\r' => ['\\', 'r']
  | '"' => ['\\', '"']
  | '\\' => ['\\', '\\']
  | _ =>
    if c ≠ ' ' && (isInvisible c || isGraphemeExtend c) then
      '\\' :: 'u' :: '\x7b' :: Nat.toDigits 16 c.toNat ++ ['\x7d']
    else [c]

def quoted (s : String) : String := .ofList ('"' :: s.toList.flatMap escape ++ ['"'])

end ReversePolish.Text
