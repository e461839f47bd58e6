import Mathlib.Data.List.TakeWhile
import ReversePolish.Decimal.Numeral

/-! # Plain numerals
The numerals of expressions: digits with at most one point. Unlike numerals in general they have
neither sign nor exponent, and every one of them has a value. -/
namespace ReversePolish.Numeral

/-- Digits with at most one point among them, and at least one digit. -/
def IsPlain (cs : List Char) : Prop :=
  (∃ c ∈ cs, c.isDigit = true) ∧ (∀ c ∈ cs, c.isDigit = true ∨ c = '.') ∧ cs.count '.' ≤ 1

instance (cs : List Char) : Decidable (IsPlain cs) :=
  decidable_of_iff
    (cs.any Char.isDigit = true ∧ cs.all (fun c => c.isDigit || c = '.') = true ∧ cs.count '.' ≤ 1)
    (by simp [IsPlain])

theorem toLower_of_isDigit {c : Char} (h : c.isDigit = true) : c.toLower = c := by
  simp only [Char.isDigit, Bool.and_eq_true, decide_eq_true_eq] at h
  have hle := UInt32.le_iff_toNat_le.mp h.2
  unfold Char.toLower
  split
  · rename_i hu
    have hge := UInt32.le_iff_toNat_le.mp hu.1
    simp at hle hge
    omega
  · rfl

variable {cs : List Char}

theorem isSome_readDigits? (h : IsPlain cs) : (readDigits? cs).isSome = true := by
  obtain ⟨⟨c, hc, hd⟩, hn, hp⟩ := h
  have hcs := List.takeWhile_append_dropWhile (p := Char.isDigit) (l := cs)
  have hhead := List.head?_dropWhile_not Char.isDigit cs
  unfold readDigits?
  cases hr : cs.dropWhile Char.isDigit with
  | nil =>
    rw [hr, List.append_nil] at hcs
    simp [hcs, List.ne_nil_of_mem hc]
  | cons d rest =>
    rw [hr] at hcs hhead
    simp only [List.head?_cons] at hhead
    have hpoint : d = '.' := by
      have := hn d (by rw [← hcs]; simp)
      simpa [hhead] using this
    have hrest : rest.all Char.isDigit = true := by
      rw [List.all_eq_true]
      intro x hx
      rcases hn x (by rw [← hcs]; simp [hx]) with h | rfl
      · exact h
      · have hone : 0 < rest.count '.' := List.count_pos_iff.mpr hx
        rw [← hcs, hpoint, List.count_append, List.count_cons_self] at hp
        omega
    have hdigits : cs.takeWhile Char.isDigit = [] → rest ≠ [] := by
      rintro hw rfl
      rw [← hcs, hw, hpoint, List.nil_append, List.mem_singleton] at hc
      subst hc
      contradiction
    simpa [hpoint, hrest] using hdigits

/-- Digits and points only. -/
def Digital (cs : List Char) : Prop := ∀ c ∈ cs, c.isDigit = true ∨ c = '.'

/-- Words and signs have other characters than digits and points. -/
theorem Digital.ne {c : Char} {w : List Char} (h : Digital cs) (hc : c ∈ w)
    (hd : c.isDigit = false ∧ c ≠ '.') : cs ≠ w := by
  rintro rfl
  simpa [hd] using h c hc

theorem Digital.map_toLower (h : Digital cs) : cs.map Char.toLower = cs := by
  have hid : cs.map Char.toLower = cs.map id := by
    refine List.map_congr_left fun c hc => ?_
    rcases h c hc with hd | rfl
    · exact toLower_of_isDigit hd
    · rfl
  simpa using hid

theorem Digital.readDecimal? (h : Digital cs) : readDecimal? cs = readDigits? cs := by
  have hall : ∀ c ∈ cs, (!(c = 'e' || c = 'E')) = true := by
    intro c hc
    rcases h c hc with hd | rfl
    · simp only [Bool.not_eq_true', Bool.or_eq_false_iff, decide_eq_false_iff_not]
      constructor <;> rintro rfl <;> contradiction
    · rfl
  have hmarks := List.dropWhile_eq_nil_iff.mpr hall
  simp only [Numeral.readDecimal?, hmarks]

theorem Digital.readUnsigned? (h : Digital cs) :
    readUnsigned? cs = (readDigits? cs).map Decimal.toFloat := by
  have hword (w : String) (c : Char) (hc : c ∈ w.toList) (hd : c.isDigit = false ∧ c ≠ '.') :
      String.ofList cs ≠ w := by
    intro he
    exact h.ne hc hd (by simp [← he])
  have hinf := hword "inf" 'i' (by decide) (by decide)
  have hinfinity := hword "infinity" 'i' (by decide) (by decide)
  have hnan := hword "nan" 'n' (by decide) (by decide)
  simp [Numeral.readUnsigned?, h.map_toLower, hinf, hinfinity, hnan, h.readDecimal?]

/-- Of digits and points neither a sign nor a word nor an exponent is read. -/
theorem Digital.read? (h : Digital cs) : read? cs = (readDigits? cs).map Decimal.toFloat := by
  unfold Numeral.read?
  split
  · exact absurd rfl (h.ne (c := '-') (by simp) (by decide))
  · exact absurd rfl (h.ne (c := '+') (by simp) (by decide))
  · exact h.readUnsigned?

theorem IsPlain.isSome_read? (h : IsPlain cs) : (read? cs).isSome = true := by
  have hd : Digital cs := h.2.1
  rw [hd.read?, Option.isSome_map]
  exact isSome_readDigits? h

theorem count_point_of_isDigit {ds : List Char} (h : ∀ c ∈ ds, c.isDigit = true) :
    ds.count '.' = 0 :=
  List.count_eq_zero.mpr fun hp => by simpa using h '.' hp

/-- Only plain numerals are read from digits and points. -/
theorem Digital.isPlain_of_readDigits? {d : Decimal} (h : Digital cs)
    (hr : readDigits? cs = some d) : IsPlain cs := by
  have hcs := List.takeWhile_append_dropWhile (p := Char.isDigit) (l := cs)
  have hwhole : ∀ c ∈ cs.takeWhile Char.isDigit, c.isDigit = true := fun c hc =>
    List.mem_takeWhile_imp hc
  unfold readDigits? at hr
  cases ht : cs.dropWhile Char.isDigit with
  | nil =>
    rw [ht, List.append_nil] at hcs
    have hne : cs ≠ [] := by
      rintro rfl
      simp at hr
    rw [hcs] at hwhole
    obtain ⟨c, hc⟩ := List.exists_mem_of_ne_nil cs hne
    exact ⟨⟨c, hc, hwhole c hc⟩, h, by simp [count_point_of_isDigit hwhole]⟩
  | cons c rest =>
    simp only [ht, Option.bind_eq_some_iff, Option.ite_none_right_eq_some, Bool.and_eq_true,
      decide_eq_true_eq, List.all_eq_true, Option.some.injEq] at hr
    obtain ⟨ds, ⟨⟨rfl, hds⟩, rfl⟩, hr⟩ := hr
    have hne : cs.takeWhile Char.isDigit ++ rest ≠ [] := by
      intro he
      simp [he] at hr
    obtain ⟨c, hc⟩ := List.exists_mem_of_ne_nil _ hne
    have hdigit : c.isDigit = true := (List.mem_append.mp hc).elim (hwhole c) (hds c)
    have hmem : c ∈ cs := by
      rw [← hcs, ht]
      rcases List.mem_append.mp hc with hc | hc <;> simp [hc]
    have hcount : cs.count '.' = 1 := by
      rw [← hcs, ht, List.count_append, List.count_cons_self, count_point_of_isDigit hwhole,
        count_point_of_isDigit hds]
    exact ⟨⟨c, hmem, hdigit⟩, h, hcount.le⟩

theorem Digital.isPlain_of_read? {x : Float} (h : Digital cs) (hr : Numeral.read? cs = some x) :
    IsPlain cs := by
  rw [h.read?] at hr
  obtain ⟨d, hd, -⟩ := Option.map_eq_some_iff.mp hr
  exact h.isPlain_of_readDigits? hd

/-- Of digits and points nothing is read if there is no digit or a second point. -/
theorem Digital.read?_eq_none_iff (h : Digital cs) :
    Numeral.read? cs = none ↔ (∀ c ∈ cs, c.isDigit = false) ∨ 1 < cs.count '.' := by
  constructor
  · intro hnone
    by_cases hdigit : ∃ c ∈ cs, c.isDigit = true
    · refine .inr (Nat.lt_of_not_le fun hle => ?_)
      have hplain : IsPlain cs := ⟨hdigit, h, hle⟩
      simpa [hnone] using hplain.isSome_read?
    · exact .inl fun c hc => Bool.eq_false_iff.mpr fun hd => hdigit ⟨c, hc, hd⟩
  · intro hfaulty
    cases hr : Numeral.read? cs with
    | none => rfl
    | some x =>
      obtain ⟨⟨c, hc, hd⟩, -, hle⟩ := h.isPlain_of_read? hr
      rcases hfaulty with hnone | hmany
      · simp [hnone c hc] at hd
      · omega

/-- The double that a plain numeral is read as. -/
def value (cs : List Char) (h : IsPlain cs) : Float := (read? cs).get h.isSome_read?

theorem read?_eq_value (h : IsPlain cs) : read? cs = some (value cs h) :=
  (Option.some_get _).symm

end ReversePolish.Numeral
