import Mathlib.Algebra.Ring.Nat
import ReversePolish.Decimal.Shortest

/-! # Rounding to doubles
A whole number of steps is not rounded, so the exact value of a double reads back as that double,
and with it the shortest decimal. What is too large reads back as infinity, so the shortest decimal
of a finite double has no large exponent. -/
namespace ReversePolish

namespace Binary64

variable {bits num den : Nat}

theorem nearest_le (num den : Nat) : nearest num den ≤ infinity := Nat.min_le_right _ _

theorem roundDiv_mul (k : Nat) (h : 0 < den) : roundDiv (k * den) den = k := by
  simp [roundDiv, Nat.mul_div_cancel k h, h]

theorem log2_mul_two_pow {m : Nat} (hlow : 2 ^ 52 ≤ m) (hhigh : m < 2 ^ 53) (k : Nat) :
    (m * 2 ^ k).log2 = 52 + k := by
  have hk := Nat.two_pow_pos k
  rw [Nat.log2_eq_iff (Nat.ne_of_gt (Nat.mul_pos (by omega) hk)), Nat.add_right_comm, Nat.pow_add,
    Nat.pow_add]
  exact ⟨Nat.mul_le_mul_right _ hlow, Nat.mul_lt_mul_of_pos_right hhigh hk⟩

/-- Magnitudes with exponent zero count their steps themselves. -/
theorem steps_of_lt (h : bits < 2 ^ 52) : steps bits = bits := by
  have hfield : bits >>> 52 = 0 := by
    rw [Nat.shiftRight_eq_div_pow]
    omega
  exact if_pos hfield

theorem steps_of_le (h : 2 ^ 52 ≤ bits) :
    steps bits = (2 ^ 52 + bits % 2 ^ 52) * 2 ^ (bits / 2 ^ 52 - 1) := by
  have hfield : bits >>> 52 = bits / 2 ^ 52 := Nat.shiftRight_eq_div_pow bits 52
  have hne : bits >>> 52 ≠ 0 := by omega
  rw [steps, if_neg hne, Nat.shiftLeft_eq, hfield, Nat.one_shiftLeft]

theorem roundDiv_steps (bits : Nat) (h : 0 < den) :
    let shift := (steps bits).log2 - 52
    roundDiv (steps bits * den) (den <<< shift) + shift <<< 52 = bits := by
  intro shift
  rcases Nat.lt_or_ge bits (2 ^ 52) with hlt | hle
  · have hshift : shift = 0 := by
      have hlog : bits.log2 ≤ 52 := by
        rcases Nat.eq_zero_or_pos bits with rfl | hpos
        · simp
        · exact Nat.le_of_lt ((Nat.log2_lt (Nat.ne_of_gt hpos)).mpr hlt)
      simp only [shift, steps_of_lt hlt]
      omega
    rw [hshift, steps_of_lt hlt, Nat.shiftLeft_zero, roundDiv_mul bits h, Nat.zero_shiftLeft,
      Nat.add_zero]
  · have hsteps := steps_of_le hle
    have hshift : shift = bits / 2 ^ 52 - 1 := by
      simp only [shift, hsteps]
      rw [log2_mul_two_pow (by omega) (by omega)]
      omega
    have hround : roundDiv (steps bits * den) (den <<< shift) = 2 ^ 52 + bits % 2 ^ 52 := by
      rw [hsteps, ← hshift, Nat.shiftLeft_eq, Nat.mul_assoc, Nat.mul_comm _ den]
      exact roundDiv_mul _ (Nat.mul_pos h (Nat.two_pow_pos _))
    rw [hround, hshift, Nat.shiftLeft_eq]
    omega

/-- A whole number of steps is not rounded. -/
theorem nearest_of_steps (hbits : bits ≤ infinity) (hden : 0 < den)
    (h : num <<< 1074 = steps bits * den) : nearest num den = bits := by
  simp only [nearest, h, Nat.mul_div_cancel _ hden, roundDiv_steps bits hden]
  exact Nat.min_eq_left hbits

theorem le_log2_shiftLeft {k : Nat} (h : 2 ^ k ≤ num) (n : Nat) : k + n ≤ (num <<< n).log2 := by
  have hpos : num <<< n ≠ 0 := by
    rw [Nat.shiftLeft_eq]
    exact Nat.ne_of_gt (Nat.mul_pos (Nat.lt_of_lt_of_le (Nat.two_pow_pos k) h) (Nat.two_pow_pos n))
  rw [Nat.le_log2 hpos, Nat.shiftLeft_eq, Nat.pow_add]
  exact Nat.mul_le_mul_right _ h

/-- Large numbers are nearest to infinity. -/
theorem nearest_of_two_pow_le {k : Nat} (hk : 1025 ≤ k) (h : 2 ^ k ≤ num) :
    nearest num 1 = infinity := by
  have hlog := le_log2_shiftLeft h 1074
  have hshift : infinity ≤ ((num <<< 1074).log2 - 52) <<< 52 := by
    rw [infinity, Nat.shiftLeft_eq, Nat.shiftLeft_eq]
    exact Nat.mul_le_mul_right _ (by omega)
  simp only [nearest, Nat.div_one]
  exact Nat.min_eq_right (Nat.le_trans hshift (Nat.le_add_left _ _))

end Binary64

namespace Decimal

variable {bits : Nat} {d : Decimal}

theorem magnitude_le (d : Decimal) : d.magnitude ≤ Binary64.infinity := Binary64.nearest_le _ _

theorem bounded_eq_self (hlow : -5000 ≤ d.exponent) (hhigh : d.exponent ≤ 5000) :
    d.bounded = d := by
  have hexponent :
      max (-(5000 + (Nat.log2 d.significand : Int))) (min 5000 d.exponent) = d.exponent := by omega
  rw [bounded, hexponent]

/-- A power of two in the denominator is a power of ten with one of five in the numerator. -/
theorem numerator_shiftLeft (n k : Nat) :
    numerator ⟨n * Nat.pow 5 k, -k⟩ <<< k = n * denominator ⟨n * Nat.pow 5 k, -k⟩ := by
  have hten : Nat.pow 5 k * 2 ^ k = Nat.pow 10 k := (Nat.mul_pow 5 2 k).symm
  have hnum : numerator ⟨n * Nat.pow 5 k, -k⟩ = n * Nat.pow 5 k := by simp [numerator]
  rw [Nat.shiftLeft_eq, hnum, Nat.mul_assoc, hten, denominator, Int.neg_neg, Int.toNat_natCast]

/-- The exact value of a magnitude reads back. -/
theorem magnitude_exact (h : bits ≤ Binary64.infinity) : (exact bits).magnitude = bits := by
  have hexponent : (exact bits).exponent = -1074 := rfl
  have hbounded : (exact bits).bounded = exact bits :=
    bounded_eq_self (by rw [hexponent]; decide) (by rw [hexponent]; decide)
  have hcast : (-1074 : Int) = -(1074 : Nat) := rfl
  rw [magnitude, hbounded]
  refine Binary64.nearest_of_steps h (denominator_pos _) ?_
  rw [exact, hcast]
  -- powers with this exponent are not to be computed
  generalize 1074 = k
  exact numerator_shiftLeft _ k

theorem exponent_stripZeros {d : Decimal} (h : d.stripZeros.significand = 0) :
    d.stripZeros.exponent = 0 := by
  fun_induction stripZeros d with
  | case1 d hzero => rfl
  | case2 d hzero hmod ih => exact ih h
  | case3 d hzero hmod => exact absurd h hzero

theorem two_pow_le_numerator {significand : Nat} (h : significand ≠ 0) (k : Nat) :
    2 ^ k ≤ numerator ⟨significand, k⟩ :=
  calc 2 ^ k ≤ 10 ^ k := Nat.pow_le_pow_left (by decide) k
    _ ≤ significand * 10 ^ k := Nat.le_mul_of_pos_left _ (Nat.pos_of_ne_zero h)

/-- Beyond these exponents a number is no finite double. -/
theorem exponent_le_of_magnitude_lt (hd : d.significand ≠ 0)
    (h : d.magnitude < Binary64.infinity) : d.exponent ≤ 5000 := by
  by_contra hgt
  have hexponent :
      max (-(5000 + (Nat.log2 d.significand : Int))) (min 5000 d.exponent) = 5000 := by omega
  have hbounded : d.bounded = ⟨d.significand, 5000⟩ := by rw [bounded, hexponent]
  have hden : d.bounded.denominator = 1 := by rw [hbounded]; rfl
  have htwo : 2 ^ 5000 ≤ d.bounded.numerator := by
    rw [hbounded]
    exact two_pow_le_numerator hd 5000
  have hinfinity : d.magnitude = Binary64.infinity := by
    rw [magnitude, hden]
    exact Binary64.nearest_of_two_pow_le (by decide) htwo
  exact absurd h (by rw [hinfinity]; exact Nat.lt_irrefl _)

theorem neighbours_eq_stripZeros {e : Decimal} {dropped : Nat} (h : e ∈ neighbours d dropped) :
    ∃ d', e = stripZeros d' := by
  unfold neighbours at h
  dsimp only at h
  split at h
  all_goals
    rw [List.mem_cons, List.mem_singleton] at h
    rcases h with rfl | rfl <;> exact ⟨_, rfl⟩

/-- The shortest decimal is one that reads back, or else the exact value. -/
theorem shortest_cases (bits : Nat) :
    (shortest bits).magnitude = bits ∧ (∃ d, shortest bits = stripZeros d) ∨
      shortest bits = exact bits := by
  unfold shortest
  dsimp only
  cases hfound : (List.range 17).findSome? fun n =>
      (neighbours (exact bits) ((exact bits).digits.length - (n + 1))).find?
        (·.magnitude = bits) with
  | none => exact .inr rfl
  | some d =>
    obtain ⟨n, -, hn⟩ := List.exists_of_findSome?_eq_some hfound
    have hreads := List.find?_some hn
    exact .inl ⟨by simpa using hreads, neighbours_eq_stripZeros (List.mem_of_find?_eq_some hn)⟩

theorem magnitude_shortest (h : bits ≤ Binary64.infinity) : (shortest bits).magnitude = bits := by
  rcases shortest_cases bits with ⟨hreads, -⟩ | hexact
  · exact hreads
  · rw [hexact, magnitude_exact h]

theorem exponent_shortest_le (h : bits < Binary64.infinity) : (shortest bits).exponent ≤ 5000 := by
  rcases shortest_cases bits with ⟨hreads, d, hd⟩ | hexact
  · by_cases hzero : (shortest bits).significand = 0
    · rw [hd] at hzero ⊢
      rw [exponent_stripZeros hzero]
      decide
    · exact exponent_le_of_magnitude_lt hzero (by rwa [hreads])
  · rw [hexact]
    show (-1074 : Int) ≤ 5000
    decide

end Decimal
end ReversePolish
