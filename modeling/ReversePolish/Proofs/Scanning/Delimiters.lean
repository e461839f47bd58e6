import ReversePolish.Token.Lexeme

/-! # Scanning up to a delimiter
White space and the tokens of one character cut a text in two: no number and no name reaches across
them, so what stands before a delimiter and what stands after it are scanned independently. -/
namespace ReversePolish.Token
open Text

/-- White space and the tokens of one character end every number and every name before them. -/
def isDelimiter (c : Char) : Bool := isWhiteSpace c || (ofChar? c).isSome

section
variable {c : Char}

/-- The code points of the point and of the digits. -/
def numericRanges : List (Nat × Nat) := [(0x2E, 0x2E), (0x30, 0x39)]

theorem inRanges_of_isNumeric (h : isNumeric c = true) : inRanges c.toNat numericRanges = true := by
  simp only [isNumeric, Bool.or_eq_true, decide_eq_true_eq] at h
  rcases h with h | rfl
  · simp only [Char.isDigit, Bool.and_eq_true, decide_eq_true_eq] at h
    have hge : 48 ≤ c.toNat := UInt32.le_iff_toNat_le.mp h.1
    have hle : c.toNat ≤ 57 := UInt32.le_iff_toNat_le.mp h.2
    simp [numericRanges, inRanges, hge, hle]
    omega
  · decide

theorem isWhiteSpace_of_isNumeric (h : isNumeric c = true) : isWhiteSpace c = false :=
  Apart.inRanges_eq_false (by decide) (inRanges_of_isNumeric h)

theorem isAlphabetic_of_isNumeric (h : isNumeric c = true) : isAlphabetic c = false :=
  Apart.inRanges_eq_false (by decide +kernel) (inRanges_of_isNumeric h)

theorem isAlphabetic_of_isWhiteSpace (h : isWhiteSpace c = true) : isAlphabetic c = false :=
  Apart.inRanges_eq_false (by decide +kernel) h

theorem isNumeric_of_startsName (h : startsName c = true) : isNumeric c = false := by
  rw [Bool.eq_false_iff]
  intro hn
  simp only [startsName, isAlphabetic_of_isNumeric hn, Bool.false_or, decide_eq_true_eq] at h
  subst h
  contradiction

theorem startsName_of_isNumeric (h : isNumeric c = true) : startsName c = false := by
  rw [Bool.eq_false_iff]
  intro hs
  simp [isNumeric_of_startsName hs] at h

/-- A name goes on with what could start one and with digits. -/
theorem continuesName_eq_false (hs : startsName c = false) (hn : isNumeric c = false) :
    continuesName c = false := by
  simp only [isNumeric, Bool.or_eq_false_iff] at hn
  simp [continuesName, hs, hn]

theorem startsName_of_continuesName (h : continuesName c = false) : startsName c = false := by
  simp only [continuesName, Bool.or_eq_false_iff] at h
  exact h.1

theorem isWhiteSpace_of_startsName (h : startsName c = true) : isWhiteSpace c = false := by
  rw [Bool.eq_false_iff]
  intro hw
  simp only [startsName, isAlphabetic_of_isWhiteSpace hw, Bool.false_or, decide_eq_true_eq] at h
  subst h
  contradiction

theorem classes_of_isWhiteSpace (h : isWhiteSpace c = true) :
    isNumeric c = false ∧ continuesName c = false := by
  have hn : isNumeric c = false := by
    rw [Bool.eq_false_iff]
    intro hn
    simp [isWhiteSpace_of_isNumeric hn] at h
  have hs : startsName c = false := by
    rw [Bool.eq_false_iff]
    intro hs
    simp [isWhiteSpace_of_startsName hs] at h
  exact ⟨hn, continuesName_eq_false hs hn⟩

theorem classes_of_single {t : Token} (h : Single t c) :
    isWhiteSpace c = false ∧ isNumeric c = false ∧ continuesName c = false := by
  cases h with
  | operator h => cases h <;> decide
  | leftParen | rightParen | comma => decide

theorem classes_of_isDelimiter (h : isDelimiter c = true) :
    isNumeric c = false ∧ continuesName c = false := by
  simp only [isDelimiter, Bool.or_eq_true, Option.isSome_iff_exists] at h
  rcases h with h | ⟨t, h⟩
  · exact classes_of_isWhiteSpace h
  · exact (classes_of_single (single_iff.mpr h)).2

theorem ofChar?_of_isWhiteSpace (h : isWhiteSpace c = true) : ofChar? c = none := by
  cases ho : ofChar? c with
  | none => rfl
  | some t => simp [(classes_of_single (single_iff.mpr ho)).1] at h

end

section
variable {α : Type} {p : α → Bool} {d : α}

theorem takeWhile_append_stop (h : p d = false) (a b : List α) :
    (a ++ d :: b).takeWhile p = a.takeWhile p := by
  rw [List.takeWhile_append, List.takeWhile_cons_of_neg (by simp [h])]
  split
  · rename_i hl
    rw [List.append_nil, (List.takeWhile_prefix p).eq_of_length hl]
  · rfl

theorem dropWhile_append_stop (h : p d = false) (a b : List α) :
    (a ++ d :: b).dropWhile p = a.dropWhile p ++ d :: b := by
  rw [List.dropWhile_append, List.dropWhile_cons_of_neg (by simp [h])]
  split <;> simp_all

theorem length_takeWhile_add_dropWhile (p : α → Bool) (l : List α) :
    (l.takeWhile p).length + (l.dropWhile p).length = l.length := by
  rw [← List.length_append, List.takeWhile_append_dropWhile]

end

section
variable {c d : Char} {rest : List Char}

theorem scan_number {value : Float} (hn : isNumeric c = true)
    (hr : Numeral.read? (c :: rest.takeWhile isNumeric) = some value) (pos : Nat) :
    scan pos (c :: rest) =
      (scan (pos + (rest.takeWhile isNumeric).length + 1) (rest.dropWhile isNumeric)).map
        (number value :: ·) := by
  rw [scan]
  simp [isWhiteSpace_of_isNumeric hn, hn, hr, Nat.add_assoc]

theorem scan_name (hs : startsName c = true) (pos : Nat) :
    scan pos (c :: rest) =
      (scan (pos + (rest.takeWhile continuesName).length + 1) (rest.dropWhile continuesName)).map
        (identifier (.ofList (c :: rest.takeWhile continuesName)) :: ·) := by
  rw [scan]
  simp [isWhiteSpace_of_startsName hs, isNumeric_of_startsName hs, hs, Nat.add_assoc]

theorem scan_delimiter (hd : isDelimiter d = true) (pos : Nat) (cs : List Char) :
    scan pos (d :: cs) = (scan (pos + 1) cs).map ((ofChar? d).toList ++ ·) := by
  obtain ⟨hn, hc⟩ := classes_of_isDelimiter hd
  have hs := startsName_of_continuesName hc
  rw [scan]
  by_cases hw : isWhiteSpace d = true
  · cases scan (pos + 1) cs <;> simp [hw, ofChar?_of_isWhiteSpace hw, Except.map]
  · simp only [isDelimiter, hw, Bool.false_or, Option.isSome_iff_exists] at hd
    obtain ⟨t, ht⟩ := hd
    simp [hw, hn, hs, ht]

theorem map_cons_append (t : Token) (x y : Except LexError (List Token)) (ts : List Token) :
    (do let us ← x; let vs ← y; return us ++ ts ++ vs : Except LexError _).map (t :: ·) =
      do let us ← x.map (t :: ·); let vs ← y; return us ++ ts ++ vs := by
  cases x <;> cases y <;> rfl

/-- What stands before a delimiter is scanned as if the text ended there, and what stands after it
as if the text began there. -/
theorem scan_append_delimiter (hd : isDelimiter d = true) (pos : Nat) (as bs : List Char) :
    scan pos (as ++ d :: bs) = do
      let ts ← scan pos as
      let us ← scan (pos + as.length + 1) bs
      return ts ++ (ofChar? d).toList ++ us := by
  obtain ⟨hn, hc⟩ := classes_of_isDelimiter hd
  fun_induction scan pos as with
  | case1 pos =>
    rw [List.nil_append, scan_delimiter hd]
    cases scan (pos + 1) bs <;> simp [bind, Except.bind, pure, Except.pure, Except.map]
  | case2 pos c rest hw ih =>
    rw [List.cons_append, scan, if_pos hw, ih, List.length_cons, Nat.add_right_comm pos 1,
      Nat.add_assoc pos]
  | case3 pos c rest hw hnum run hrun =>
    rw [List.cons_append, scan]
    simp only [hw, hnum, takeWhile_append_stop hn]
    simp [run, hrun, bind, Except.bind]
  | case4 pos c rest hw hnum run value hrun ih =>
    have hpos : pos + (rest.takeWhile isNumeric).length + 1 +
        (rest.dropWhile isNumeric).length + 1 = pos + rest.length + 1 + 1 := by
      have := length_takeWhile_add_dropWhile isNumeric rest
      omega
    rw [List.cons_append, scan_number hnum (by rw [takeWhile_append_stop hn]; exact hrun),
      takeWhile_append_stop hn, dropWhile_append_stop hn]
    simp only [run, List.length_cons, ← Nat.add_assoc] at ih ⊢
    rw [ih, hpos, map_cons_append]
  | case5 pos c rest hw hnum hs run ih =>
    have hpos : pos + (rest.takeWhile continuesName).length + 1 +
        (rest.dropWhile continuesName).length + 1 = pos + rest.length + 1 + 1 := by
      have := length_takeWhile_add_dropWhile continuesName rest
      omega
    rw [List.cons_append, scan_name hs, takeWhile_append_stop hc, dropWhile_append_stop hc]
    simp only [run, List.length_cons, ← Nat.add_assoc] at ih ⊢
    rw [ih, hpos, map_cons_append]
  | case6 pos c rest hw hnum hs ho =>
    rw [List.cons_append, scan]
    simp [hw, hnum, hs, ho, bind, Except.bind]
  | case7 pos c rest hw hnum hs t ho ih =>
    rw [List.cons_append, scan]
    simp only [hw, hnum, hs, ho, ih, map_cons_append, List.length_cons, Nat.add_right_comm pos 1,
      Nat.add_assoc pos, Bool.false_eq_true, if_false]

end

end ReversePolish.Token
