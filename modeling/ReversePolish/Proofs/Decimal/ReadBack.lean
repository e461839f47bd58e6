import ReversePolish.Decimal.Layout
import ReversePolish.Decimal.Plain
import ReversePolish.Proofs.Decimal.Patterns
import ReversePolish.Proofs.Decimal.Rounding

/-! # Written doubles read back
The plain layout sets the digits of a decimal out in place, and reading takes the same digits up
again: the decimal itself, or the same number with its zeros written out. -/
namespace ReversePolish

namespace Numeral

theorem ofDigits_toDigits (n : Nat) : ofDigits (Nat.toDigits 10 n) = n :=
  Nat.ofDigitChars_ten_toDigits

theorem ofDigits_append_zeros (ds : List Char) (n : Nat) :
    ofDigits (ds ++ List.replicate n '0') = ofDigits ds * Nat.pow 10 n :=
  calc ofDigits (ds ++ List.replicate n '0')
      = Nat.ofDigitChars 10 (List.replicate n '0') (ofDigits ds) := Nat.ofDigitChars_append 0
    _ = 10 ^ n * ofDigits ds := Nat.ofDigitChars_replicate_zero
    _ = ofDigits ds * Nat.pow 10 n := Nat.mul_comm _ _

theorem ofDigits_zeros_append (n : Nat) (ds : List Char) :
    ofDigits (List.replicate n '0' ++ ds) = ofDigits ds :=
  calc ofDigits (List.replicate n '0' ++ ds)
      = Nat.ofDigitChars 10 ds (Nat.ofDigitChars 10 (List.replicate n '0') 0) :=
        Nat.ofDigitChars_append 0
    _ = ofDigits ds := by rw [Nat.ofDigitChars_replicate_zero, Nat.mul_zero]; rfl

variable {whole fraction : List Char}

theorem readDigits?_whole (hdigits : ∀ c ∈ whole, c.isDigit = true) (hne : whole ≠ []) :
    readDigits? whole = some ⟨ofDigits whole, 0⟩ := by
  have htake : whole.takeWhile Char.isDigit = whole := List.takeWhile_eq_self_iff.mpr hdigits
  have hdrop : whole.dropWhile Char.isDigit = [] := List.dropWhile_eq_nil_iff.mpr hdigits
  simp [readDigits?, htake, hdrop, hne]

variable (whole fraction) in
theorem readDigits?_fraction (hwhole : ∀ c ∈ whole, c.isDigit = true)
    (hfraction : ∀ c ∈ fraction, c.isDigit = true) (hne : whole ++ fraction ≠ []) :
    readDigits? (whole ++ '.' :: fraction) =
      some ⟨ofDigits (whole ++ fraction), -fraction.length⟩ := by
  have htake : (whole ++ '.' :: fraction).takeWhile Char.isDigit = whole := by
    simp [List.takeWhile_append_of_pos hwhole]
  have hdrop : (whole ++ '.' :: fraction).dropWhile Char.isDigit = '.' :: fraction := by
    simp [List.dropWhile_append_of_pos hwhole]
  have hall : fraction.all Char.isDigit = true := List.all_eq_true.mpr hfraction
  have hsome : whole = [] → fraction ≠ [] := by simpa using hne
  simpa [readDigits?, htake, hdrop, hall] using hsome

end Numeral

namespace Decimal

variable {d : Decimal}

theorem isDigit_of_mem_digits {c : Char} (h : c ∈ d.digits) : c.isDigit = true :=
  Nat.isDigit_of_mem_toDigits (by decide) (by decide) h

theorem digits_ne_nil (d : Decimal) : d.digits ≠ [] := Nat.toDigits_ne_nil

/-- The same number without an exponent. -/
theorem magnitude_whole (hlow : 0 ≤ d.exponent) (hhigh : d.exponent ≤ 5000) :
    magnitude ⟨d.significand * Nat.pow 10 d.exponent.toNat, 0⟩ = d.magnitude := by
  have hden : denominator ⟨d.significand * Nat.pow 10 d.exponent.toNat, 0⟩ = d.denominator := by
    have hzero : (-d.exponent).toNat = 0 := by omega
    rw [denominator, denominator, hzero]
    rfl
  have hwhole : bounded ⟨d.significand * Nat.pow 10 d.exponent.toNat, 0⟩ =
      ⟨d.significand * Nat.pow 10 d.exponent.toNat, 0⟩ :=
    bounded_eq_self (by simp) (by simp)
  rw [magnitude, magnitude, hwhole, bounded_eq_self (by omega) hhigh, hden]
  exact congrArg (Binary64.nearest · d.denominator) (Nat.mul_one _)

end Decimal

namespace Layout
open Numeral

variable {d : Decimal}

theorem isDigit_of_mem_zeros {n : Nat} {c : Char} (h : c ∈ List.replicate n '0') :
    c.isDigit = true := by
  rw [List.eq_of_mem_replicate h]
  rfl

/-- All digits stand after the point, with zeros before them. -/
theorem readDigits?_leading (h : d.point ≤ 0) :
    readDigits? ('0' :: '.' :: List.replicate (-d.point).toNat '0' ++ d.digits) = some d := by
  have hpoint : d.point = d.digits.length + d.exponent := rfl
  have hfraction : ∀ c ∈ List.replicate (-d.point).toNat '0' ++ d.digits, c.isDigit = true := by
    intro c hc
    exact (List.mem_append.mp hc).elim isDigit_of_mem_zeros Decimal.isDigit_of_mem_digits
  have hread := readDigits?_fraction ['0'] _ (by simp) hfraction (by simp)
  have hsignificand : ofDigits (['0'] ++ (List.replicate (-d.point).toNat '0' ++ d.digits)) =
      d.significand := by
    have hsucc : ['0'] ++ (List.replicate (-d.point).toNat '0' ++ d.digits) =
        List.replicate ((-d.point).toNat + 1) '0' ++ d.digits := rfl
    rw [hsucc, ofDigits_zeros_append]
    exact ofDigits_toDigits _
  have hexponent :
      -((List.replicate (-d.point).toNat '0' ++ d.digits).length : Int) = d.exponent := by
    simp only [List.length_append, List.length_replicate]
    omega
  rwa [hsignificand, hexponent] at hread

/-- All digits stand before the point, with zeros after them. -/
theorem readDigits?_whole_digits (d : Decimal) :
    readDigits? (d.digits ++ List.replicate d.exponent.toNat '0') =
      some ⟨d.significand * Nat.pow 10 d.exponent.toNat, 0⟩ := by
  have hall : ∀ c ∈ d.digits ++ List.replicate d.exponent.toNat '0', c.isDigit = true := by
    intro c hc
    exact (List.mem_append.mp hc).elim Decimal.isDigit_of_mem_digits isDigit_of_mem_zeros
  have hvalue : ofDigits d.digits = d.significand := ofDigits_toDigits _
  rw [readDigits?_whole hall (by simp [d.digits_ne_nil]), ofDigits_append_zeros, hvalue]

/-- The point stands among the digits. -/
theorem readDigits?_among_digits (hlow : 0 ≤ d.point) (hhigh : d.point ≤ d.digits.length) :
    readDigits? (d.digits.take d.point.toNat ++ '.' :: d.digits.drop d.point.toNat) = some d := by
  have hpoint : d.point = d.digits.length + d.exponent := rfl
  have hvalue : ofDigits d.digits = d.significand := ofDigits_toDigits _
  have hread := readDigits?_fraction (d.digits.take d.point.toNat) (d.digits.drop d.point.toNat)
    (fun c hc => Decimal.isDigit_of_mem_digits (List.mem_of_mem_take hc))
    (fun c hc => Decimal.isDigit_of_mem_digits (List.mem_of_mem_drop hc))
    (by simp [d.digits_ne_nil])
  have hexponent : -((d.digits.drop d.point.toNat).length : Int) = d.exponent := by
    rw [List.length_drop]
    omega
  rwa [List.take_append_drop, hvalue, hexponent] at hread

/-- Set out in place, a decimal is read as it is, or without its exponent if that adds zeros. -/
theorem readDigits?_inPlace (d : Decimal) :
    readDigits? (plain.inPlace d) = some d ∨ 0 ≤ d.exponent ∧
      readDigits? (plain.inPlace d) = some ⟨d.significand * Nat.pow 10 d.exponent.toNat, 0⟩ := by
  have hpoint : d.point = d.digits.length + d.exponent := rfl
  unfold inPlace
  split
  · rename_i hleading
    exact .inl (readDigits?_leading hleading)
  · split
    · rename_i hwhole
      refine .inr ⟨by omega, ?_⟩
      simpa [plain] using readDigits?_whole_digits d
    · exact .inl (readDigits?_among_digits (by omega) (by omega))

theorem digital_inPlace (d : Decimal) : Digital (plain.inPlace d) := by
  intro c hc
  have hdigits : c ∈ d.digits → c.isDigit = true := Decimal.isDigit_of_mem_digits
  unfold inPlace at hc
  split at hc
  · simp only [List.cons_append, List.mem_cons, List.mem_append, List.mem_replicate] at hc
    rcases hc with rfl | rfl | ⟨-, rfl⟩ | hc
    · exact .inl rfl
    · exact .inr rfl
    · exact .inl rfl
    · exact .inl (hdigits hc)
  · split at hc
    · have hwhole : c ∈ d.digits ++ List.replicate d.exponent.toNat '0' := by simpa [plain] using hc
      rcases List.mem_append.mp hwhole with hc | hc
      · exact .inl (hdigits hc)
      · exact .inl (isDigit_of_mem_zeros hc)
    · simp only [List.mem_append, List.mem_cons] at hc
      rcases hc with hc | rfl | hc
      · exact .inl (hdigits (List.mem_of_mem_take hc))
      · exact .inr rfl
      · exact .inl (hdigits (List.mem_of_mem_drop hc))

theorem write_infinity (layout : Layout) :
    layout.write (Binary64.ofMagnitude Binary64.infinity) = ['i', 'n', 'f'] := by
  have hnan : ¬(Binary64.ofMagnitude Binary64.infinity).isNaN = true := by decide +kernel
  have hneg := Bool.eq_false_iff.mp (Binary64.isNegative_ofMagnitude (Nat.le_refl _))
  have hmagnitude := Binary64.magnitude_ofMagnitude (Nat.le_refl Binary64.infinity)
  rw [write, if_neg hnan, if_neg hneg, if_pos hmagnitude, List.nil_append]

theorem decimal_plain (d : Decimal) : plain.decimal d = plain.inPlace d := if_pos rfl

section
variable {x : Float} (hfinite : x.isFinite = true) (hsign : Binary64.isNegative x = false)
include hfinite hsign

theorem write_plain : plain.write x = plain.inPlace (.shortest (Binary64.magnitude x)) := by
  have hlt := Binary64.isFinite_iff.mp hfinite
  have hnan := Bool.eq_false_iff.mp (Binary64.isNaN_of_isFinite hfinite)
  have hneg := Bool.eq_false_iff.mp hsign
  rw [write, if_neg hnan, if_neg hneg, if_neg (Nat.ne_of_lt hlt), List.nil_append, decimal_plain]

theorem digital_write : Digital (plain.write x) := by
  rw [write_plain hfinite hsign]
  exact digital_inPlace _

/-- A finite double without a sign reads back as it was written. -/
theorem read?_write : read? (plain.write x) = some x := by
  have hlt := Binary64.isFinite_iff.mp hfinite
  have hbits := Decimal.magnitude_shortest (Nat.le_of_lt hlt)
  have hback : Decimal.toFloat (.shortest (Binary64.magnitude x)) = x := by
    rw [Decimal.toFloat, hbits, Binary64.ofMagnitude_magnitude hsign]
  rw [write_plain hfinite hsign, (digital_inPlace _).read?]
  rcases readDigits?_inPlace (.shortest (Binary64.magnitude x)) with hread | ⟨hlow, hread⟩
  · rw [hread, Option.map_some, hback]
  · have hwhole := Decimal.magnitude_whole hlow (Decimal.exponent_shortest_le hlt)
    rw [hread, Option.map_some, Decimal.toFloat, hwhole]
    exact congrArg some hback

end

end Layout
end ReversePolish
