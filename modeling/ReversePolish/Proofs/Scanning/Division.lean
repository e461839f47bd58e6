import ReversePolish.Outcome
import ReversePolish.Proofs.Scanning.Scans

/-! # Scanning divides a text into lexemes
A text is scanned without error exactly if it is a sequence of lexemes with white space around
them, none of which the next character could prolong, and its tokens are those of the lexemes. The
cuts are not free to choose: the first character that is no white space begins a lexeme, and it
decides of which class the lexeme is the longest run. -/
namespace ReversePolish.Token
open Text

variable {t u : Token} {c : Char} {cs ds rest rest' : List Char} {ts : List Token}

theorem Lexeme.exists_cons (h : Lexeme t cs) :
    ∃ c ds, cs = c :: ds ∧ isWhiteSpace c = false := by
  cases h with
  | number digit numeric =>
    obtain ⟨d, hd, -⟩ := digit
    obtain ⟨c, ds, rfl⟩ := List.exists_cons_of_ne_nil (List.ne_nil_of_mem hd)
    exact ⟨c, ds, rfl, isWhiteSpace_of_isNumeric (isNumeric_iff.mpr (numeric c (by simp)))⟩
  | identifier first => exact ⟨_, _, rfl, isWhiteSpace_of_startsName (startsName_iff.mpr first)⟩
  | single h => exact ⟨_, _, rfl, (classes_of_single h).1⟩

theorem isWhiteSpace_of_continuesName (h : continuesName c = true) : isWhiteSpace c = false := by
  rw [Bool.eq_false_iff]
  intro hw
  simp [(classes_of_isWhiteSpace hw).2] at h

/-- No lexeme contains white space. -/
theorem Lexeme.isWhiteSpace_eq_false (h : Lexeme t cs) (hc : c ∈ cs) : isWhiteSpace c = false := by
  cases h with
  | number digit numeric => exact isWhiteSpace_of_isNumeric (isNumeric_iff.mpr (numeric c hc))
  | identifier first rest =>
    rcases List.mem_cons.mp hc with rfl | hc
    · exact isWhiteSpace_of_startsName (startsName_iff.mpr first)
    · exact isWhiteSpace_of_continuesName (continuesName_iff.mpr (rest c hc))
  | single h =>
    obtain rfl := List.mem_singleton.mp hc
    exact (classes_of_single h).1

/-- The longest run with which the characters begin, of the class of the first of them. -/
def firstRun : List Char → List Char
  | [] => []
  | c :: cs =>
    if isNumeric c then c :: cs.takeWhile isNumeric
    else if startsName c then c :: cs.takeWhile continuesName
    else [c]

theorem Lexeme.firstRun_append (h : Lexeme t cs)
    (hend : ∀ c, rest.head? = some c → EndsBefore t c) : firstRun (cs ++ rest) = cs := by
  cases h with
  | number digit numeric =>
    obtain ⟨d, hd, -⟩ := digit
    obtain ⟨c, cs, rfl⟩ := List.exists_cons_of_ne_nil (List.ne_nil_of_mem hd)
    obtain ⟨hc, hrun⟩ := List.forall_mem_cons.mp numeric
    have htake := takeWhile_run (fun _ => isNumeric_iff) hrun hend
    simp [firstRun, isNumeric_iff.mpr hc, htake]
  | identifier first hrun =>
    have hfirst := startsName_iff.mpr first
    have htake := takeWhile_run (fun _ => continuesName_iff) hrun hend
    simp [firstRun, isNumeric_of_startsName hfirst, hfirst, htake]
  | single h =>
    obtain ⟨-, hn, hc⟩ := classes_of_single h
    simp [firstRun, hn, startsName_of_continuesName hc]

/-- The characters decide which token they are the lexeme of. -/
theorem Lexeme.token_unique (h : Lexeme t cs) (h' : Lexeme u cs) : t = u := by
  have hscan : Except.ok [t] = Except.ok [u] := (h.scans 0).symm.trans (h'.scans 0)
  exact List.singleton_inj.mp (Except.ok.inj hscan)

/-- The same characters begin with only one lexeme that could not be longer. -/
theorem Lexeme.unique (h : Lexeme t cs) (hend : ∀ c, rest.head? = some c → EndsBefore t c)
    (h' : Lexeme u ds) (hend' : ∀ c, rest'.head? = some c → EndsBefore u c)
    (he : cs ++ rest = ds ++ rest') : t = u ∧ cs = ds ∧ rest = rest' := by
  have hcs : cs = ds :=
    calc cs = firstRun (cs ++ rest) := (h.firstRun_append hend).symm
      _ = firstRun (ds ++ rest') := by rw [he]
      _ = ds := h'.firstRun_append hend'
  subst hcs
  exact ⟨h.token_unique h', rfl, List.append_cancel_left he⟩

theorem not_of_head?_dropWhile {q : Char → Bool} (h : (cs.dropWhile q).head? = some c) :
    ¬q c = true := by
  have hstop := List.head?_dropWhile_not q cs
  rw [h] at hstop
  simpa using hstop

theorem inNumber_of_run (h : isNumeric c = true) :
    ∀ d ∈ c :: cs.takeWhile isNumeric, InNumber d := by
  intro d hd
  rcases List.mem_cons.mp hd with rfl | hd
  · exact isNumeric_iff.mp h
  · exact isNumeric_iff.mp (List.mem_takeWhile_imp hd)

/-- Digits and points that are no numeral are at fault. -/
theorem fault_of_run (hne : cs.takeWhile isNumeric ≠ [])
    (read : Numeral.read? (cs.takeWhile isNumeric) = none) :
    Fault cs (.malformedNumber · (.ofList (cs.takeWhile isNumeric))) := by
  have hfault : Fault (cs.takeWhile isNumeric ++ cs.dropWhile isNumeric)
      (.malformedNumber · (.ofList (cs.takeWhile isNumeric))) :=
    .malformed hne (fun _ hd => isNumeric_iff.mp (List.mem_takeWhile_imp hd))
      (fun _ hd => mt isNumeric_iff.mpr (not_of_head?_dropWhile hd)) read
  rwa [List.takeWhile_append_dropWhile] at hfault

theorem Fault.scan_eq {fault : Nat → LexError} (h : Fault cs fault) (pos : Nat) :
    scan pos cs = .error (fault pos) := by
  cases h with
  | @unknown c cs space numeric name single =>
    have hnone : ofChar? c = none :=
      Option.eq_none_iff_forall_ne_some.mpr fun t => mt single_iff.mpr (single t)
    rw [scan]
    simp [space, isNumeric_iff, numeric, startsName_iff, name, hnone]
  | @malformed run rest nonempty numeric ends read =>
    obtain ⟨c, cs, rfl⟩ := List.exists_cons_of_ne_nil nonempty
    obtain ⟨hc, hrun⟩ := List.forall_mem_cons.mp numeric
    have hnumeric := isNumeric_iff.mpr hc
    have htake := takeWhile_run (fun _ => isNumeric_iff) hrun ends
    rw [List.cons_append, scan]
    simp [isWhiteSpace_of_isNumeric hnumeric, hnumeric, htake, read]

namespace Division

variable {d e : Division} {p : Piece} {ps : List Piece} {trail : List Char}

theorem valid_nil : Valid ⟨[], trail⟩ ↔ IsBlank trail := by rw [Valid]

theorem valid_cons :
    Valid ⟨p :: ps, trail⟩ ↔ IsBlank p.blank ∧ Lexeme p.token p.lexeme ∧
      (∀ c, (chars ⟨ps, trail⟩).head? = some c → EndsBefore p.token c) ∧
      Valid ⟨ps, trail⟩ := by
  rw [Valid]

theorem chars_cons : chars ⟨p :: ps, trail⟩ = p.blank ++ (p.lexeme ++ chars ⟨ps, trail⟩) := by
  simp [chars, Piece.chars]

theorem stopsBefore_nil (d : Division) : d.StopsBefore [] := by
  simp [StopsBefore]

theorem stopsBefore_cons :
    StopsBefore ⟨p :: ps, trail⟩ rest ↔
      (ps = [] → trail = [] → ∀ c, rest.head? = some c → EndsBefore p.token c) ∧
        StopsBefore ⟨ps, trail⟩ rest := by
  cases trail with
  | cons c trail => simp [StopsBefore, atEnd?]
  | nil =>
    cases ps with
    | nil =>
      constructor
      · intro h
        exact ⟨fun _ _ c hc => h p.token c rfl hc, fun t c ht => by contradiction⟩
      · rintro ⟨h, -⟩ t c ⟨⟩ hc
        exact h rfl rfl c hc
    | cons q ps => simp [StopsBefore, atEnd?]

theorem Valid.eq_nil_of_chars (h : Valid ⟨ps, trail⟩) (hchars : chars ⟨ps, trail⟩ = []) :
    ps = [] ∧ trail = [] := by
  cases ps with
  | nil => exact ⟨rfl, hchars⟩
  | cons p ps =>
    obtain ⟨c, ds, hcs, -⟩ := (valid_cons.mp h).2.1.exists_cons
    simp [chars_cons, hcs] at hchars

/-- The pieces of a division are scanned one after another, and then what comes after them. -/
theorem Covers.scan_eq (h : Covers ⟨ps, trail⟩ cs rest) (pos : Nat) :
    scan pos cs =
      (scan (pos + (chars ⟨ps, trail⟩).length) rest).map (tokens ⟨ps, trail⟩ ++ ·) := by
  obtain ⟨hd, rfl, hs⟩ := h
  induction ps generalizing pos with
  | nil =>
    have hchars : chars ⟨[], trail⟩ = trail := rfl
    rw [hchars, scan_blank_append (valid_nil.mp hd)]
    cases scan (pos + trail.length) rest <;> rfl
  | cons p ps ih =>
    obtain ⟨hblank, hlexeme, hend, hrest⟩ := valid_cons.mp hd
    obtain ⟨hlast, hstops⟩ := stopsBefore_cons.mp hs
    have hend' : ∀ c, (chars ⟨ps, trail⟩ ++ rest).head? = some c → EndsBefore p.token c := by
      intro c hc
      cases hchars : chars ⟨ps, trail⟩ with
      | nil =>
        obtain ⟨rfl, rfl⟩ := hrest.eq_nil_of_chars hchars
        exact hlast rfl rfl c hc
      | cons d ds => exact hend c (by simpa [hchars] using hc)
    have hsplit : chars ⟨p :: ps, trail⟩ ++ rest =
        p.blank ++ (p.lexeme ++ (chars ⟨ps, trail⟩ ++ rest)) := by
      rw [chars_cons, List.append_assoc, List.append_assoc]
    have hlength : pos + p.blank.length + p.lexeme.length + (chars ⟨ps, trail⟩).length =
        pos + (chars ⟨p :: ps, trail⟩).length := by
      simp only [chars_cons, List.length_append]
      omega
    rw [hsplit, scan_blank_append hblank, hlexeme.scan_append hend', ih _ hrest hstops, hlength]
    cases scan (pos + (chars ⟨p :: ps, trail⟩).length) rest <;> rfl

theorem scans_of_valid (h : d.Valid) : Scans d.chars d.tokens := by
  intro pos
  have hd : d.Covers d.chars [] := ⟨h, List.append_nil _, stopsBefore_nil d⟩
  rw [hd.scan_eq, scan]
  simp [Except.map]

theorem Covers.indent (hw : isWhiteSpace c = true) (h : d.Covers cs rest) :
    ∃ e : Division, e.Covers (c :: cs) rest := by
  obtain ⟨ps, trail⟩ := d
  obtain ⟨hd, rfl, hs⟩ := h
  cases ps with
  | nil =>
    have htrail := valid_nil.mp hd
    exact ⟨⟨[], c :: trail⟩, valid_nil.mpr (by simpa [IsBlank, hw] using htrail), rfl,
      by simp [StopsBefore, atEnd?]⟩
  | cons p ps =>
    obtain ⟨hblank, hlexeme, hend, hrest⟩ := valid_cons.mp hd
    have hblank' : IsBlank (c :: p.blank) := by simpa [IsBlank, hw] using hblank
    have hs' : StopsBefore ⟨⟨c :: p.blank, p.token, p.lexeme⟩ :: ps, trail⟩ rest :=
      stopsBefore_cons.mpr (stopsBefore_cons.mp hs :)
    exact ⟨⟨⟨c :: p.blank, p.token, p.lexeme⟩ :: ps, trail⟩,
      valid_cons.mpr ⟨hblank', hlexeme, hend, hrest⟩, rfl, hs'⟩

theorem Covers.prepend (h : Lexeme t ds) (hend : ∀ c, cs.head? = some c → EndsBefore t c)
    (hd : d.Covers cs rest) : ∃ e : Division, e.Covers (ds ++ cs) rest := by
  obtain ⟨ps, trail⟩ := d
  obtain ⟨hd, rfl, hs⟩ := hd
  have hblank : IsBlank [] := by simp [IsBlank]
  have hnext : ∀ c, (chars ⟨ps, trail⟩).head? = some c → EndsBefore t c :=
    fun c hc => hend c (by simp [hc])
  refine ⟨⟨⟨[], t, ds⟩ :: ps, trail⟩, valid_cons.mpr ⟨hblank, h, hnext, hd⟩, ?_, ?_⟩
  · rw [chars_cons, List.nil_append, List.append_assoc]
  · refine stopsBefore_cons.mpr ⟨?_, hs⟩
    rintro rfl rfl
    exact hend

/-- A run that goes on as long as its class does leaves nothing that could prolong it. -/
theorem Covers.prepend_run {q : Char → Bool} (h : Lexeme t (c :: cs.takeWhile q))
    (hq : ∀ x, ¬q x = true → EndsBefore t x) (hd : d.Covers (cs.dropWhile q) rest) :
    ∃ e : Division, e.Covers (c :: cs) rest := by
  obtain ⟨e, he⟩ := hd.prepend h fun x hx => hq x (not_of_head?_dropWhile hx)
  rw [List.cons_append, List.takeWhile_append_dropWhile] at he
  exact ⟨e, he⟩

theorem endsBefore_of_single (h : Single t c) (d : Char) : EndsBefore t d := by
  cases h <;> trivial

theorem covers_nil (cs : List Char) : Covers ⟨[], []⟩ cs cs :=
  ⟨valid_nil.mpr (by simp [IsBlank]), rfl, by simp [StopsBefore, atEnd?]⟩

/-- Every text is divided to its end or up to a fault, and the scan comes out accordingly. -/
theorem exists_covers (pos : Nat) (cs : List Char) :
    ∃ (d : Division) (rest : List Char), d.Covers cs rest ∧
      (rest = [] ∧ scan pos cs = .ok d.tokens ∨
        ∃ fault, Fault rest fault ∧ scan pos cs = .error (fault (pos + d.chars.length))) := by
  suffices h : ∃ (d : Division) (rest : List Char), d.Covers cs rest ∧
      (rest = [] ∨ ∃ fault, Fault rest fault) by
    -- The division alone decides how the scan comes out, so the induction need not speak of it.
    obtain ⟨d, rest, hd, rfl | ⟨fault, hfault⟩⟩ := h
    · refine ⟨d, [], hd, .inl ⟨rfl, ?_⟩⟩
      rw [hd.scan_eq, scan]
      simp [Except.map]
    · refine ⟨d, rest, hd, .inr ⟨fault, hfault, ?_⟩⟩
      rw [hd.scan_eq, hfault.scan_eq]
      rfl
  fun_induction scan pos cs with
  | case1 => exact ⟨_, [], covers_nil [], .inl rfl⟩
  | case2 pos c cs hw ih =>
    obtain ⟨d, rest, hd, hrest⟩ := ih
    obtain ⟨e, he⟩ := hd.indent hw
    exact ⟨e, rest, he, hrest⟩
  | case3 pos c cs hw hnum run hrun =>
    have htake : (c :: cs).takeWhile isNumeric = run := List.takeWhile_cons_of_pos hnum
    have hfault := fault_of_run (htake ▸ List.cons_ne_nil _ _) (htake ▸ hrun)
    exact ⟨_, _, covers_nil _, .inr ⟨_, hfault⟩⟩
  | case4 pos c cs hw hnum run value hrun ih =>
    obtain ⟨d, rest, hd, hrest⟩ := ih
    have hn : ∀ x ∈ run, InNumber x := inNumber_of_run hnum
    have hplain := Numeral.Digital.isPlain_of_read? hn hrun
    have hlexeme : Lexeme (.number value) run := .number hplain.1 hn hplain.2.2 hrun
    obtain ⟨e, he⟩ := hd.prepend_run hlexeme fun _ => mt isNumeric_iff.mpr
    exact ⟨e, rest, he, hrest⟩
  | case5 pos c cs hw hnum hs run ih =>
    obtain ⟨d, rest, hd, hrest⟩ := ih
    have hlexeme : Lexeme (.identifier (.ofList run)) run := .identifier (startsName_iff.mp hs)
      fun x hx => continuesName_iff.mp (List.mem_takeWhile_imp hx)
    obtain ⟨e, he⟩ := hd.prepend_run hlexeme fun _ => mt continuesName_iff.mpr
    exact ⟨e, rest, he, hrest⟩
  | case6 pos c cs hw hnum hs ho =>
    have hfault : Fault (c :: cs) (.unknownCharacter · c) :=
      .unknown (by simpa using hw) (mt isNumeric_iff.mpr hnum) (mt startsName_iff.mpr hs)
        fun t ht => by simp [single_iff.mp ht] at ho
    exact ⟨_, _, covers_nil _, .inr ⟨_, hfault⟩⟩
  | case7 pos c cs hw hnum hs u ho ih =>
    obtain ⟨d, rest, hd, hrest⟩ := ih
    have hsingle := single_iff.mpr ho
    obtain ⟨e, he⟩ := hd.prepend (.single hsingle) fun x _ => endsBefore_of_single hsingle x
    exact ⟨e, rest, he, hrest⟩

/-- Every scan without error cuts its text into lexemes. -/
theorem exists_of_scan {pos : Nat} (ts : List Token) (h : scan pos cs = .ok ts) :
    ∃ d : Division, d.Valid ∧ d.chars = cs ∧ d.tokens = ts := by
  obtain ⟨d, rest, hd, ⟨rfl, hscan⟩ | ⟨fault, -, hscan⟩⟩ := exists_covers pos cs
  · exact ⟨d, hd.valid, by simpa using hd.split, Except.ok.inj (hscan.symm.trans h)⟩
  · simp [h] at hscan

/-- The first lexeme ends the white space before it. -/
theorem head?_lexeme_append (h : Lexeme p.token p.lexeme) (rest : List Char) :
    ∀ c, (p.lexeme ++ rest).head? = some c → ¬isWhiteSpace c = true := by
  obtain ⟨c, ds, hcs, hc⟩ := h.exists_cons
  intro d hd
  rw [hcs] at hd
  obtain rfl : c = d := by simpa using hd
  simp [hc]

theorem Valid.takeWhile_chars (h : Valid ⟨p :: ps, trail⟩) :
    (chars ⟨p :: ps, trail⟩).takeWhile isWhiteSpace = p.blank := by
  obtain ⟨hblank, hlexeme, -, -⟩ := valid_cons.mp h
  rw [chars_cons, takeWhile_run (fun _ => Iff.rfl) hblank (head?_lexeme_append hlexeme _)]

/-- White space alone is no text with a lexeme in it. -/
theorem Valid.not_isBlank (h : Valid ⟨p :: ps, trail⟩) : ¬ IsBlank (chars ⟨p :: ps, trail⟩) := by
  intro hblank
  obtain ⟨c, ds, hcs, hc⟩ := (valid_cons.mp h).2.1.exists_cons
  have hw := hblank c (by simp [chars_cons, hcs])
  simp [hc] at hw

/-- No two divisions cut a text differently. -/
theorem Valid.unique (hd : d.Valid) (he : e.Valid) (h : d.chars = e.chars) : d = e := by
  obtain ⟨ps, trail⟩ := d
  obtain ⟨qs, trail'⟩ := e
  induction ps generalizing qs with
  | nil =>
    cases qs with
    | nil => exact congrArg (Division.mk []) h
    | cons q qs =>
      have hblank : IsBlank (chars ⟨q :: qs, trail'⟩) := h ▸ valid_nil.mp hd
      exact absurd hblank he.not_isBlank
  | cons p ps ih =>
    cases qs with
    | nil =>
      have hblank : IsBlank (chars ⟨p :: ps, trail⟩) := h ▸ valid_nil.mp he
      exact absurd hblank hd.not_isBlank
    | cons q qs =>
      have hblank : p.blank = q.blank := by rw [← hd.takeWhile_chars, h, he.takeWhile_chars]
      obtain ⟨-, hlexeme, hend, hrest⟩ := valid_cons.mp hd
      obtain ⟨-, hlexeme', hend', hrest'⟩ := valid_cons.mp he
      rw [chars_cons, chars_cons, hblank] at h
      obtain ⟨htoken, hcs, hchars⟩ :=
        hlexeme.unique hend hlexeme' hend' (List.append_cancel_left h)
      obtain rfl : p = q := by
        cases p
        cases q
        simp_all
      obtain ⟨rfl, rfl⟩ := Division.mk.inj (ih hrest qs hrest' hchars)
      rfl

/-- The lexemes hold all characters but the white space, in their order. -/
theorem Valid.filter_chars (h : Valid ⟨ps, trail⟩) :
    (chars ⟨ps, trail⟩).filter (fun c => !isWhiteSpace c) = ps.flatMap Piece.lexeme := by
  have hnone {cs : List Char} (hcs : IsBlank cs) : cs.filter (fun c => !isWhiteSpace c) = [] :=
    List.filter_eq_nil_iff.mpr fun c hc => by simp [hcs c hc]
  induction ps with
  | nil => exact hnone (valid_nil.mp h)
  | cons p ps ih =>
    obtain ⟨hblank, hlexeme, -, hrest⟩ := valid_cons.mp h
    have hall : p.lexeme.filter (fun c => !isWhiteSpace c) = p.lexeme :=
      List.filter_eq_self.mpr fun c hc => by simp [hlexeme.isWhiteSpace_eq_false hc]
    rw [chars_cons, List.filter_append, List.filter_append, hnone hblank, hall, ih hrest]
    rfl

end Division

/-- A text is scanned as tokens exactly if it can be divided into their lexemes. There is no second
way to divide it, and together the lexemes hold every character that is no white space once and in
its place. -/
theorem tokenize_eq_ok_iff_exists_division (text : String) (ts : List Token) :
    (tokenize text = .ok ts ↔
      ∃ d : Division, d.Valid ∧ d.chars = text.toList ∧ d.tokens = ts) ∧
      (∀ d e : Division, d.Valid → e.Valid → d.chars = text.toList → e.chars = text.toList →
        d = e) ∧
      ∀ d : Division, d.Valid → d.chars = text.toList →
        d.pieces.flatMap Piece.lexeme = text.toList.filter fun c => !isWhiteSpace c := by
  refine ⟨⟨fun h => Division.exists_of_scan ts h, ?_⟩, ?_, ?_⟩
  · rintro ⟨d, hd, hchars, rfl⟩
    rw [tokenize, ← hchars]
    exact Division.scans_of_valid hd 0
  · intro d e hd he hchars hchars'
    exact hd.unique he (hchars.trans hchars'.symm)
  · intro d hd hchars
    rw [← hchars]
    exact hd.filter_chars.symm

/-- Neither the digit of `x1` nor the point after it belongs to another lexeme. -/
theorem division_of_touching_lexemes :
    ∃ (d : Division) (two half : Float), d.Valid ∧ d.chars = "2x1.5 ".toList ∧
      d.tokens = [.number two, .identifier "x1", .number half] ∧
      tokenize "2x1.5 " = .ok [.number two, .identifier "x1", .number half] ∧
      (∀ e : Division, e.Valid → e.chars = "2x1.5 ".toList → e = d) ∧
      d.pieces.flatMap Piece.lexeme = ['2', 'x', '1', '.', '5'] := by
  obtain ⟨two, htwo⟩ : ∃ v, Lexeme (.number v) ['2'] := ⟨_, lexeme_number (by decide)⟩
  obtain ⟨half, hhalf⟩ : ∃ v, Lexeme (.number v) ['.', '5'] := ⟨_, lexeme_number (by decide)⟩
  have hname : Lexeme (.identifier "x1") ['x', '1'] :=
    .identifier (by decide +kernel) (List.forall_mem_singleton.mpr (.inr rfl))
  have hletter : ¬InNumber 'x' := by decide
  have hpoint : ¬InName '.' := by decide +kernel
  have hblank : ¬InNumber ' ' := by decide
  let d : Division :=
    ⟨[⟨[], .number two, ['2']⟩, ⟨[], .identifier "x1", ['x', '1']⟩, ⟨[], .number half, ['.', '5']⟩],
      [' ']⟩
  have hnone : Division.IsBlank [] := by decide
  have hd : d.Valid := by
    refine Division.valid_cons.mpr ⟨hnone, htwo, ?_, Division.valid_cons.mpr ⟨hnone, hname, ?_,
      Division.valid_cons.mpr ⟨hnone, hhalf, ?_, Division.valid_nil.mpr (by decide)⟩⟩⟩
    · rintro c ⟨⟩
      exact hletter
    · rintro c ⟨⟩
      exact hpoint
    · rintro c ⟨⟩
      exact hblank
  obtain ⟨hiff, hunique, hfilter⟩ := tokenize_eq_ok_iff_exists_division "2x1.5 " d.tokens
  exact ⟨d, two, half, hd, rfl, rfl, hiff.mpr ⟨d, hd, rfl, rfl⟩,
    fun e he hchars => hunique e d he hd hchars rfl, (hfilter d hd rfl).trans (by decide)⟩

end ReversePolish.Token
