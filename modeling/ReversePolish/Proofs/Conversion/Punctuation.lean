import Mathlib.Data.List.Induction
import ReversePolish.Proofs.Conversion.Conservation
import ReversePolish.Proofs.Conversion.Nesting

/-! # Punctuation decides conversion
The first comma or closing parenthesis outside of all parentheses makes conversion fail, and so does
a parenthesis that stays open. Nothing else does, and no token but parentheses and commas has a say
in it. -/
namespace ReversePolish.Rpn
open Token

variable {ts before : List Token} {t : Token}

/-! ## The first token that offends -/

theorem sheltered_nil : Sheltered [] := by
  intro before t after h
  simp at h

theorem sheltered_concat : Sheltered (ts ++ [t]) ↔ Sheltered ts ∧ ¬Offends ts t := by
  constructor
  · intro h
    refine ⟨fun before u after hts => h before u (after ++ [t]) (by simp [hts]), ?_⟩
    exact h ts t [] rfl
  · rintro ⟨hts, ht⟩ before u after h
    rcases List.eq_nil_or_concat after with rfl | ⟨later, last, rfl⟩
    · obtain ⟨rfl, he⟩ := List.append_inj' h rfl
      cases he
      exact ht
    · have hsplit : ts ++ [t] = (before ++ u :: later) ++ [last] := by simpa using h
      exact hts before u later (List.append_inj' hsplit rfl).1

theorem sheltered_or_exists_offends (ts : List Token) :
    Sheltered ts ∨
      ∃ before t after, ts = before ++ t :: after ∧ Sheltered before ∧ Offends before t := by
  induction ts using List.reverseRecOn with
  | nil => exact .inl sheltered_nil
  | append_singleton ts t ih =>
    rcases ih with hts | ⟨before, u, after, rfl, hbefore, hu⟩
    · by_cases ht : Offends ts t
      · exact .inr ⟨ts, t, [], rfl, hts, ht⟩
      · exact .inl (sheltered_concat.mpr ⟨hts, ht⟩)
    · exact .inr ⟨before, u, after ++ [t], by simp, hbefore, hu⟩

/-! ## The scan -/

/-- How many parentheses are open after the token. -/
def depthAfter (depth : Nat) : Token → Nat
  | .leftParen => depth + 1
  | .rightParen => depth - 1
  | _ => depth

theorem nesting_concat {depth : Nat} (hdepth : nesting ts = depth) (ht : ¬Offends ts t) :
    nesting (ts ++ [t]) = depthAfter depth t := by
  have hsplit : nesting (ts ++ [t]) = nesting ts + nesting [t] := by
    simp only [nesting, List.count_append]
    omega
  rw [hsplit, hdepth]
  cases t with
  | rightParen =>
    have hpos : depth ≠ 0 := fun hzero => ht ⟨.inr rfl, by simp [hdepth, hzero]⟩
    have hclose : nesting [.rightParen] = -1 := rfl
    rw [hclose, depthAfter]
    omega
  | number v | identifier name | operator op | leftParen | comma => simp [nesting, depthAfter]

theorem nestingFault?_cons {depth : Nat} (hdepth : nesting before = depth)
    (ht : ¬Offends before t) (ts : List Token) :
    nestingFault? depth (t :: ts) = nestingFault? (depthAfter depth t) ts := by
  cases t with
  | comma | rightParen =>
    have hpos : depth ≠ 0 := by simpa [Offends, hdepth] using ht
    simp [nestingFault?, depthAfter, hpos]
  | number v | identifier name | operator op | leftParen => rfl

/-- As long as no token offends, the scan counts how many parentheses are open. -/
theorem exists_depth_of_sheltered (h : Sheltered before) :
    ∃ depth : Nat, nesting before = depth ∧
      ∀ ts, nestingFault? 0 (before ++ ts) = nestingFault? depth ts := by
  induction before using List.reverseRecOn with
  | nil => exact ⟨0, rfl, fun ts => rfl⟩
  | append_singleton before t ih =>
    obtain ⟨hbefore, ht⟩ := sheltered_concat.mp h
    obtain ⟨depth, hdepth, hscan⟩ := ih hbefore
    refine ⟨depthAfter depth t, nesting_concat hdepth ht, fun ts => ?_⟩
    rw [List.append_assoc, List.singleton_append, hscan, nestingFault?_cons hdepth ht]

theorem nestingFault?_of_offends (hbefore : Sheltered before) (ht : Offends before t)
    (after : List Token) :
    nestingFault? 0 (before ++ t :: after) =
      some (if t = .comma then .misplacedComma else .mismatchedParens) := by
  obtain ⟨depth, hdepth, hscan⟩ := exists_depth_of_sheltered hbefore
  obtain ⟨hkind, hzero⟩ := ht
  obtain rfl : depth = 0 := by omega
  rw [hscan]
  rcases hkind with rfl | rfl <;> simp [nestingFault?]

theorem nestingFault?_of_sheltered (h : Sheltered ts) :
    0 ≤ nesting ts ∧
      nestingFault? 0 ts = if nesting ts = 0 then none else some .mismatchedParens := by
  obtain ⟨depth, hdepth, hscan⟩ := exists_depth_of_sheltered h
  have hend := hscan []
  rw [List.append_nil] at hend
  rw [hend, hdepth]
  simp [nestingFault?]

theorem nestingFault?_eq_misplacedComma :
    nestingFault? 0 ts = some .misplacedComma ↔
      ∃ before after, ts = before ++ .comma :: after ∧ Sheltered before ∧ nesting before = 0 := by
  constructor
  · intro h
    rcases sheltered_or_exists_offends ts with hts | ⟨before, t, after, rfl, hbefore, ht⟩
    · rw [(nestingFault?_of_sheltered hts).2] at h
      split at h <;> contradiction
    · rw [nestingFault?_of_offends hbefore ht] at h
      obtain ⟨rfl | rfl, hzero⟩ := ht
      · exact ⟨before, after, rfl, hbefore, hzero⟩
      · contradiction
  · rintro ⟨before, after, rfl, hbefore, hzero⟩
    exact nestingFault?_of_offends hbefore ⟨.inl rfl, hzero⟩ after

theorem nestingFault?_eq_mismatchedParens :
    nestingFault? 0 ts = some .mismatchedParens ↔
      (∃ before after, ts = before ++ .rightParen :: after ∧ Sheltered before ∧
        nesting before = 0) ∨ Sheltered ts ∧ 0 < nesting ts := by
  constructor
  · intro h
    rcases sheltered_or_exists_offends ts with hts | ⟨before, t, after, rfl, hbefore, ht⟩
    · obtain ⟨hnonneg, hscan⟩ := nestingFault?_of_sheltered hts
      have hopen : nesting ts ≠ 0 := fun hzero => by simp [hscan, hzero] at h
      exact .inr ⟨hts, by omega⟩
    · rw [nestingFault?_of_offends hbefore ht] at h
      obtain ⟨rfl | rfl, hzero⟩ := ht
      · contradiction
      · exact .inl ⟨before, after, rfl, hbefore, hzero⟩
  · rintro (⟨before, after, rfl, hbefore, hzero⟩ | ⟨hts, hopen⟩)
    · exact nestingFault?_of_offends hbefore ⟨.inr rfl, hzero⟩ after
    · rw [(nestingFault?_of_sheltered hts).2, if_neg (by omega)]

theorem nestingFault?_eq_none :
    nestingFault? 0 ts = none ↔ Sheltered ts ∧ nesting ts = 0 := by
  constructor
  · intro h
    rcases sheltered_or_exists_offends ts with hts | ⟨before, t, after, rfl, hbefore, ht⟩
    · refine ⟨hts, ?_⟩
      by_contra hopen
      simp [(nestingFault?_of_sheltered hts).2, hopen] at h
    · simp [nestingFault?_of_offends hbefore ht] at h
  · rintro ⟨hts, hzero⟩
    rw [(nestingFault?_of_sheltered hts).2, if_pos hzero]

/-- The scan passes over everything but parentheses and commas. -/
theorem nestingFault?_filter (depth : Nat) (ts : List Token) :
    nestingFault? depth (ts.filter isPunctuation) = nestingFault? depth ts := by
  induction ts generalizing depth with
  | nil => rfl
  | cons t ts ih => cases t <;> simp [List.filter_cons, isPunctuation, nestingFault?, ih]

/-! ## The outcome of a conversion -/

/-- Conversion fails at the first comma or closing parenthesis that stands outside of all
parentheses, and else if one is left open; it succeeds in all other cases. The other tokens are
free. -/
theorem ofTokens_decided_by_punctuation (ts : List Token) :
    (ofTokens ts = .error .misplacedComma ↔
        ∃ before after, ts = before ++ .comma :: after ∧ Sheltered before ∧
          nesting before = 0) ∧
      (ofTokens ts = .error .mismatchedParens ↔
        (∃ before after, ts = before ++ .rightParen :: after ∧ Sheltered before ∧
          nesting before = 0) ∨ Sheltered ts ∧ 0 < nesting ts) ∧
      ((∃ rpn, ofTokens ts = .ok rpn) ↔ Sheltered ts ∧ nesting ts = 0) ∧
      ∀ us : List Token, us.filter isPunctuation = ts.filter isPunctuation →
        fault? (ofTokens us) = fault? (ofTokens ts) := by
  refine ⟨?_, ?_, ?_, fun us h => ?_⟩
  · rw [← fault?_eq_some, ← nestingFault?_eq_fault?, nestingFault?_eq_misplacedComma]
  · rw [← fault?_eq_some, ← nestingFault?_eq_fault?, nestingFault?_eq_mismatchedParens]
  · rw [← fault?_eq_none, ← nestingFault?_eq_fault?, nestingFault?_eq_none]
  · rw [← nestingFault?_eq_fault?, ← nestingFault?_eq_fault?, ← nestingFault?_filter, h,
      nestingFault?_filter]

end ReversePolish.Rpn
