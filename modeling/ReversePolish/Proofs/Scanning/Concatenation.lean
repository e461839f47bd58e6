import ReversePolish.Proofs.Scanning.Division

/-! # Texts with a delimiter between them
A delimiter keeps two texts apart: together they have the tokens of the one and those of the other,
or the error of the first that has one. In the second text it stands further on by the characters
before that text. -/
namespace ReversePolish
open Token

variable {d : Char} {mid : List Token}

/-- Beginning elsewhere moves the position of an error and changes nothing else. -/
theorem scan_add (pos k : Nat) (cs : List Char) :
    scan (pos + k) cs = (scan pos cs).mapError (.shift k) := by
  -- Both scans follow the same division, which knows no positions.
  obtain ⟨d, rest, hd, ⟨rfl, hscan⟩ | ⟨fault, hfault, hscan⟩⟩ := Division.exists_covers pos cs
  · rw [hscan, hd.scan_eq, scan]
    simp [Except.map, Except.mapError]
  · have hshift : fault (pos + d.chars.length + k) = (fault (pos + d.chars.length)).shift k := by
      cases hfault <;> rfl
    rw [hscan, hd.scan_eq, hfault.scan_eq, Nat.add_right_comm, hshift]
    rfl

theorem Token.Delimits.isDelimiter_eq_true (h : Delimits d mid) : isDelimiter d = true := by
  cases h with
  | space h => simp [Token.isDelimiter, h]
  | single h => simp [Token.isDelimiter, single_iff.mp h]

theorem Token.Delimits.toList_ofChar? (h : Delimits d mid) : (ofChar? d).toList = mid := by
  cases h with
  | space h => rw [ofChar?_of_isWhiteSpace h, Option.toList_none]
  | single h => rw [single_iff.mp h, Option.toList_some]

theorem tokenize_push_append (h : Delimits d mid) (a b : String) :
    tokenize (a.push d ++ b) = do
      let ts ← tokenize a
      let us ← (tokenize b).mapError (.shift (a.length + 1))
      return ts ++ mid ++ us := by
  have hchars : (a.push d ++ b).toList = a.toList ++ d :: b.toList := by simp
  have hafter : scan (0 + a.toList.length + 1) b.toList =
      (tokenize b).mapError (.shift (a.length + 1)) := by
    rw [Nat.add_assoc, scan_add, String.length_toList]
    rfl
  rw [tokenize, hchars, scan_append_delimiter h.isDelimiter_eq_true, hafter, h.toList_ofChar?]
  rfl

/-- Texts on the two sides of a delimiter are scanned independently. -/
theorem tokenize_append_delimiter (h : Delimits d mid) (a b : String) :
    (∀ e, tokenize a = .error e → tokenize (a.push d ++ b) = .error e) ∧
      (∀ ts e, tokenize a = .ok ts → tokenize b = .error e →
        tokenize (a.push d ++ b) = .error (e.shift (a.length + 1))) ∧
      ∀ ts us, tokenize a = .ok ts → tokenize b = .ok us →
        tokenize (a.push d ++ b) = .ok (ts ++ mid ++ us) := by
  rw [tokenize_push_append h]
  refine ⟨?_, ?_, ?_⟩
  · intro e ha
    rw [ha]
    rfl
  · intro ts e ha hb
    rw [ha, hb]
    rfl
  · intro ts us ha hb
    rw [ha, hb]
    rfl

/-- The wide blank is one character of three bytes. -/
theorem tokenize_append_delimiter_each_outcome :
    tokenize ("#".push '^' ++ "1.2.3") = .error (.unknownCharacter 0 '#') ∧
      tokenize ("é".push '\u3000' ++ "x1.2.3") = .error (.malformedNumber 4 ".2.3") ∧
      tokenize ("é".push '^' ++ "y") =
        .ok [.identifier "é", .operator .power, .identifier "y"] := by
  have hpower : Delimits '^' [.operator .power] := .single (.operator .power)
  have hblank : Delimits '\u3000' [] := .space (by decide +kernel)
  have hletter : tokenize "é" = .ok [.identifier "é"] := by decide +kernel
  obtain ⟨hfirst, -, -⟩ := tokenize_append_delimiter hpower "#" "1.2.3"
  obtain ⟨-, hsecond, -⟩ := tokenize_append_delimiter hblank "é" "x1.2.3"
  obtain ⟨-, -, hboth⟩ := tokenize_append_delimiter hpower "é" "y"
  exact ⟨hfirst _ (by decide +kernel), hsecond _ (.malformedNumber 2 ".2.3") hletter
    (by decide +kernel), hboth _ [.identifier "y"] hletter (by decide +kernel)⟩

end ReversePolish
