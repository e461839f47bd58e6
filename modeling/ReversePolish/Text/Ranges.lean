/-! # Classes of characters as tables
A class is a list of closed ranges of code points in ascending order, and looking a code point up
stops at the first range that does not end before it. -/
namespace ReversePolish.Text

/-- The class holds the code points from `first` to `last` of each of its ranges. -/
def inRanges (code : Nat) : List (Nat × Nat) → Bool
  | [] => false
  | (first, last) :: ranges => if code ≤ last then first ≤ code else inRanges code ranges

theorem mem_of_inRanges {code : Nat} {ranges : List (Nat × Nat)} (h : inRanges code ranges = true) :
    ∃ r ∈ ranges, r.1 ≤ code ∧ code ≤ r.2 := by
  induction ranges with
  | nil => simp [inRanges] at h
  | cons r ranges ih =>
    simp only [inRanges] at h
    split at h
    · exact ⟨r, by simp, by simpa using h, by assumption⟩
    · obtain ⟨s, hs, hb⟩ := ih h
      exact ⟨s, by simp [hs], hb⟩

/-- Two tables without a common code point. -/
def Apart (ranges others : List (Nat × Nat)) : Prop :=
  ∀ r ∈ ranges, ∀ s ∈ others, r.2 < s.1 ∨ s.2 < r.1

instance (ranges others : List (Nat × Nat)) : Decidable (Apart ranges others) :=
  inferInstanceAs (Decidable (∀ r ∈ ranges, ∀ s ∈ others, r.2 < s.1 ∨ s.2 < r.1))

theorem Apart.inRanges_eq_false {code : Nat} {ranges others : List (Nat × Nat)}
    (h : Apart ranges others) (hc : inRanges code ranges = true) :
    inRanges code others = false := by
  rw [Bool.eq_false_iff]
  intro ho
  obtain ⟨r, hr, hr1, hr2⟩ := mem_of_inRanges hc
  obtain ⟨s, hs, hs1, hs2⟩ := mem_of_inRanges ho
  rcases h r hr s hs with hlt | hlt <;> omega

end ReversePolish.Text
