import ReversePolish.Proofs.Scanning.Division

/-! # What stops a scan
A scan fails at the first place up to which the text can be divided into lexemes and from which it
goes on with something else. Only the characters before that place and the faulty piece itself have
a say in the error. -/
namespace ReversePolish.Token
open Text Division

variable {text : String} {c : Char} {cs rest : List Char} {d : Division} {p pos : Nat}

theorem Fault.ne_nil {fault : Nat → LexError} (h : Fault cs fault) : cs ≠ [] := by
  cases h with
  | unknown => exact List.cons_ne_nil _ _
  | malformed nonempty => exact List.append_ne_nil_of_left_ne_nil nonempty _

theorem scan_eq_error_iff {e : LexError} :
    scan pos cs = .error e ↔
      ∃ (d : Division) (rest : List Char) (fault : Nat → LexError), d.Covers cs rest ∧
        Fault rest fault ∧ e = fault (pos + d.chars.length) := by
  constructor
  · intro h
    obtain ⟨d, rest, hd, ⟨-, hscan⟩ | ⟨fault, hfault, hscan⟩⟩ := exists_covers pos cs
    · simp [hscan] at h
    · exact ⟨d, rest, fault, hd, hfault, Except.error.inj (h.symm.trans hscan)⟩
  · rintro ⟨d, rest, fault, hd, hfault, rfl⟩
    rw [hd.scan_eq, hfault.scan_eq]
    rfl

/-- The same for a whole text, which is cut in two at the position of the error. -/
theorem tokenize_eq_error_iff {e : LexError} :
    tokenize text = .error e ↔
      ∃ (p : Nat) (d : Division) (fault : Nat → LexError), d.Valid ∧
        d.chars = text.toList.take p ∧ d.StopsBefore (text.toList.drop p) ∧
        Fault (text.toList.drop p) fault ∧ e = fault p := by
  rw [tokenize, scan_eq_error_iff]
  constructor
  · rintro ⟨d, rest, fault, hd, hfault, rfl⟩
    have htake : text.toList.take d.chars.length = d.chars := by rw [← hd.split, List.take_left]
    have hdrop : text.toList.drop d.chars.length = rest := by rw [← hd.split, List.drop_left]
    refine ⟨d.chars.length, d, fault, hd.valid, htake.symm, ?_, ?_, by rw [Nat.zero_add]⟩
    · rw [hdrop]
      exact hd.stops
    · rw [hdrop]
      exact hfault
  · rintro ⟨p, d, fault, hd, hchars, hstops, hfault, rfl⟩
    -- A fault has a first character, so `p` is a place within the text.
    have hp : d.chars.length = p := by
      rw [hchars, List.length_take_of_le]
      by_contra hle
      exact hfault.ne_nil (List.drop_eq_nil_of_le (Nat.le_of_not_le hle))
    refine ⟨d, _, fault, ⟨hd, ?_, hstops⟩, hfault, by rw [hp, Nat.zero_add]⟩
    rw [hchars, List.take_append_drop]

theorem tokenize_of_valid (hd : d.Valid) (hchars : d.chars = cs) :
    tokenize (.ofList cs) = .ok d.tokens := by
  rw [tokenize, String.toList_ofList, ← hchars]
  exact scans_of_valid hd 0

theorem exists_of_tokenize {ts : List Token} (h : tokenize (.ofList cs) = .ok ts) :
    ∃ d : Division, d.Valid ∧ d.chars = cs := by
  obtain ⟨d, hd, hchars, -⟩ := exists_of_scan ts h
  exact ⟨d, hd, by rw [hchars, String.toList_ofList]⟩

/-! ## Characters of no lexeme -/

theorem exists_single_iff : (∃ t, Single t c) ↔ c ∈ ['+', '-', '*', '/', '^', '(', ')', ','] := by
  constructor
  · rintro ⟨t, h⟩
    cases h with
    | operator h => cases h <;> decide
    | leftParen | rightParen | comma => decide
  · intro h
    simp only [List.mem_cons, List.not_mem_nil, or_false] at h
    rcases h with rfl | rfl | rfl | rfl | rfl | rfl | rfl | rfl
    · exact ⟨_, .operator .add⟩
    · exact ⟨_, .operator .subtract⟩
    · exact ⟨_, .operator .multiply⟩
    · exact ⟨_, .operator .divide⟩
    · exact ⟨_, .operator .power⟩
    · exact ⟨_, .leftParen⟩
    · exact ⟨_, .rightParen⟩
    · exact ⟨_, .comma⟩

/-- No lexeme goes on with a character that neither a number nor a name has. -/
theorem stopsBefore_of_classes (hn : ¬InNumber c) (hs : ¬BeginsName c) (d : Division)
    (rest : List Char) : d.StopsBefore (c :: rest) := by
  have hname : ¬InName c := fun h => h.elim hs fun hdigit => hn (.inl hdigit)
  rintro t _ - ⟨⟩
  cases t <;> simp [EndsBefore, hn, hname]

theorem tokenize_eq_unknownCharacter_iff :
    tokenize text = .error (.unknownCharacter p c) ↔
      text.toList[p]? = some c ∧ (∃ ts, tokenize (.ofList (text.toList.take p)) = .ok ts) ∧
        isWhiteSpace c = false ∧ ¬BeginsName c ∧ ¬InNumber c ∧ ∀ t, ¬Single t c := by
  rw [tokenize_eq_error_iff]
  constructor
  · rintro ⟨q, d, fault, hd, hchars, -, hfault, he⟩
    generalize hrest : text.toList.drop q = rest at hfault
    cases hfault with
    | malformed => contradiction
    | unknown space numeric name single =>
      cases he
      have hc : text.toList[p]? = some c := by rw [← List.head?_drop, hrest, List.head?_cons]
      exact ⟨hc, ⟨_, tokenize_of_valid hd hchars⟩, space, name, numeric, single⟩
  · rintro ⟨hc, ⟨ts, hts⟩, space, name, numeric, single⟩
    obtain ⟨d, hd, hchars⟩ := exists_of_tokenize hts
    have hdrop : text.toList.drop p = c :: text.toList.drop (p + 1) := by
      obtain ⟨hp, rfl⟩ := List.getElem?_eq_some_iff.mp hc
      exact List.drop_eq_getElem_cons hp
    refine ⟨p, d, (.unknownCharacter · c), hd, hchars, ?_, ?_, rfl⟩
    · rw [hdrop]
      exact stopsBefore_of_classes numeric name d _
    · rw [hdrop]
      exact .unknown space numeric name single

theorem tokenize_append_of_unknownCharacter (more : String)
    (h : tokenize text = .error (.unknownCharacter p c)) :
    tokenize (text ++ more) = .error (.unknownCharacter p c) := by
  obtain ⟨hc, hts, hclasses⟩ := tokenize_eq_unknownCharacter_iff.mp h
  obtain ⟨hp, -⟩ := List.getElem?_eq_some_iff.mp hc
  have hsame : (text ++ more).toList[p]? = some c := by
    rw [String.toList_append, List.getElem?_append_left hp, hc]
  have htake : (text ++ more).toList.take p = text.toList.take p := by
    rw [String.toList_append, List.take_append_of_le_length (Nat.le_of_lt hp)]
  exact tokenize_eq_unknownCharacter_iff.mpr ⟨hsame, htake ▸ hts, hclasses⟩

/-! ## Malformed numbers -/

theorem exists_of_run_ne (h : rest.takeWhile isNumeric ≠ []) :
    ∃ c cs, rest = c :: cs ∧ isNumeric c = true := by
  cases rest with
  | nil => contradiction
  | cons c cs =>
    refine ⟨c, cs, rfl, ?_⟩
    by_contra hc
    exact h (List.takeWhile_cons_of_neg hc)

/-- A digit or a point belongs to a number before it, and a digit to a name. -/
theorem stopsBefore_run_iff (h : rest.takeWhile isNumeric ≠ []) :
    d.StopsBefore rest ↔ (∀ v, d.atEnd? ≠ some (.number v)) ∧
      ∀ name c, d.atEnd? = some (.identifier name) → rest.head? = some c → c.isDigit = false := by
  obtain ⟨c, cs, rfl, hn⟩ := exists_of_run_ne h
  have hnumber : InNumber c := isNumeric_iff.mp hn
  have hname : ¬BeginsName c := mt startsName_iff.mpr (by simp [startsName_of_isNumeric hn])
  have hhead : d.StopsBefore (c :: cs) ↔ ∀ t, d.atEnd? = some t → EndsBefore t c := by
    simp [StopsBefore]
  rw [hhead]
  cases d.atEnd? with
  | none => simp
  | some t => cases t <;> simp [EndsBefore, InName, hnumber, hname]

/-- A run of digits and points is no number if it lacks a digit or has a second point. -/
theorem read?_run_eq_none_iff (cs : List Char) :
    Numeral.read? (cs.takeWhile isNumeric) = none ↔
      (∀ c ∈ cs.takeWhile isNumeric, c.isDigit = false) ∨
        1 < (cs.takeWhile isNumeric).count '.' := by
  have hdigital : Numeral.Digital (cs.takeWhile isNumeric) := fun c hc =>
    isNumeric_iff.mp (List.mem_takeWhile_imp hc)
  exact hdigital.read?_eq_none_iff

theorem exists_malformedNumber_iff {q : Nat} {run : String} :
    (∃ fault, Fault rest fault ∧ fault q = .malformedNumber p run) ↔
      q = p ∧ run = .ofList (rest.takeWhile isNumeric) ∧ rest.takeWhile isNumeric ≠ [] ∧
        Numeral.read? (rest.takeWhile isNumeric) = none := by
  constructor
  · rintro ⟨fault, hfault, he⟩
    cases hfault with
    | unknown => contradiction
    | malformed nonempty numeric ends read =>
      cases he
      rw [takeWhile_run (fun _ => isNumeric_iff) numeric ends]
      exact ⟨rfl, rfl, nonempty, read⟩
  · rintro ⟨rfl, rfl, hne, read⟩
    exact ⟨_, fault_of_run hne read, rfl⟩

theorem tokenize_eq_malformedNumber_iff {run : String} :
    tokenize text = .error (.malformedNumber p run) ↔
      ∃ d : Division, d.Valid ∧ d.chars = text.toList.take p ∧
        tokenize (.ofList (text.toList.take p)) = .ok d.tokens ∧
        (∀ v, d.atEnd? ≠ some (.number v)) ∧
        (∀ name c, d.atEnd? = some (.identifier name) → text.toList[p]? = some c →
          c.isDigit = false) ∧
        run = .ofList ((text.toList.drop p).takeWhile isNumeric) ∧ run ≠ "" ∧
        ((∀ c ∈ run.toList, c.isDigit = false) ∨ 1 < run.toList.count '.') := by
  have hempty (cs : List Char) : String.ofList cs ≠ "" ↔ cs ≠ [] := by
    rw [ne_eq, ← String.toList_inj, String.toList_ofList]
    rfl
  rw [tokenize_eq_error_iff, ← List.head?_drop]
  constructor
  · rintro ⟨q, d, fault, hd, hchars, hstops, hfault, he⟩
    obtain ⟨rfl, rfl, hne, read⟩ := exists_malformedNumber_iff.mp ⟨fault, hfault, he.symm⟩
    obtain ⟨hnumber, hname⟩ := (stopsBefore_run_iff hne).mp hstops
    rw [hempty, String.toList_ofList, ← read?_run_eq_none_iff]
    exact ⟨d, hd, hchars, tokenize_of_valid hd hchars, hnumber, hname, rfl, hne, read⟩
  · rintro ⟨d, hd, hchars, -, hnumber, hname, rfl, hne, hfaulty⟩
    rw [hempty] at hne
    rw [String.toList_ofList, ← read?_run_eq_none_iff] at hfaulty
    obtain ⟨fault, hfault, he⟩ := exists_malformedNumber_iff.mpr ⟨rfl, rfl, hne, hfaulty⟩
    exact ⟨p, d, fault, hd, hchars, (stopsBefore_run_iff hne).mpr ⟨hnumber, hname⟩, hfault,
      he.symm⟩

/-! ## The first offender -/

/-- A text has an unknown character at `p` exactly if the characters before it are scanned on their
own and no lexeme begins with it, and a malformed number exactly if the characters before it are
scanned on their own, the last lexeme of them does not reach across `p`, and the digits and points
from there are no number. Positions count characters, and what comes after an unknown character is
never looked at. -/
theorem tokenize_fails_at_first_offender (text : String) (p : Nat) :
    (∀ c, tokenize text = .error (.unknownCharacter p c) ↔
      text.toList[p]? = some c ∧ (∃ ts, tokenize (.ofList (text.toList.take p)) = .ok ts) ∧
        isWhiteSpace c = false ∧ isAlphabetic c = false ∧ c ≠ '_' ∧ c.isDigit = false ∧ c ≠ '.' ∧
        c ∉ ['+', '-', '*', '/', '^', '(', ')', ',']) ∧
      (∀ run, tokenize text = .error (.malformedNumber p run) ↔
        ∃ d : Division, d.Valid ∧ d.chars = text.toList.take p ∧
          tokenize (.ofList (text.toList.take p)) = .ok d.tokens ∧
          (∀ v, d.atEnd? ≠ some (.number v)) ∧
          (∀ name c, d.atEnd? = some (.identifier name) → text.toList[p]? = some c →
            c.isDigit = false) ∧
          run = .ofList ((text.toList.drop p).takeWhile isNumeric) ∧ run ≠ "" ∧
          ((∀ c ∈ run.toList, c.isDigit = false) ∨ 1 < run.toList.count '.')) ∧
      ∀ c more, tokenize text = .error (.unknownCharacter p c) →
        tokenize (text ++ more) = .error (.unknownCharacter p c) := by
  refine ⟨fun c => ?_, fun run => tokenize_eq_malformedNumber_iff,
    fun c more h => tokenize_append_of_unknownCharacter more h⟩
  rw [tokenize_eq_unknownCharacter_iff, ← not_exists, exists_single_iff]
  simp only [BeginsName, InNumber, not_or, Bool.not_eq_true, ne_eq, and_assoc]

/-- The characters before the offender take more bytes than they are, and `2` goes to the name. -/
theorem tokenize_fails_at_first_offender_beyond_ascii :
    tokenize "é + #" = .error (.unknownCharacter 4 '#') ∧
      tokenize ("é + #" ++ " 1.2.3") = .error (.unknownCharacter 4 '#') ∧
      tokenize "π2.5.1" = .error (.malformedNumber 2 ".5.1") := by
  obtain ⟨hunknown, -, happend⟩ := tokenize_fails_at_first_offender "é + #" 4
  obtain ⟨-, hmalformed, -⟩ := tokenize_fails_at_first_offender "π2.5.1" 2
  have hsum : tokenize "é + " = .ok [.identifier "é", .operator .add] := by decide +kernel
  have hfirst := (hunknown '#').mpr
    ⟨rfl, ⟨_, hsum⟩, by decide +kernel, by decide +kernel, by decide, rfl, by decide, by decide⟩
  let d : Division := ⟨[⟨[], .identifier "π2", ['π', '2']⟩], []⟩
  have hname : Lexeme (.identifier "π2") ['π', '2'] :=
    .identifier (by decide +kernel) (List.forall_mem_singleton.mpr (.inr rfl))
  have hd : d.Valid :=
    Division.valid_cons.mpr ⟨by decide, hname, nofun, Division.valid_nil.mpr (by decide)⟩
  have hpoint : ∀ name c, d.atEnd? = some (.identifier name) → "π2.5.1".toList[2]? = some c →
      c.isDigit = false := by
    rintro name c - ⟨⟩
    rfl
  exact ⟨hfirst, happend '#' _ hfirst, (hmalformed ".5.1").mpr
    ⟨d, hd, rfl, tokenize_of_valid hd rfl, nofun, hpoint, by decide, by decide, .inr (by decide)⟩⟩

end ReversePolish.Token
