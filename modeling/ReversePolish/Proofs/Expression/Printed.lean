import ReversePolish.Proofs.Decimal.ReadBack
import ReversePolish.Proofs.Expression.Identifiers
import ReversePolish.Proofs.Scanning.Division

/-! # Printed tokens read back
Tokens are printed with a blank between each two, so that what is scanned of the line is what is
scanned of each token alone. A legible token is scanned as itself. What was once scanned is legible
unless it is infinity, which is printed like a name. -/
namespace ReversePolish
namespace Token

variable {t : Token} {cs : List Char} {ts us : List Token}

/-- A legible token is printed as a lexeme of it. -/
theorem lexeme_text (h : t.Legible) : Lexeme t t.text.toList := by
  cases t with
  | number value =>
    obtain ⟨hfinite, hsign⟩ := h
    have hread := Layout.read?_write hfinite hsign
    have hdigital := Layout.digital_write hfinite hsign
    have hplain := hdigital.isPlain_of_read? hread
    rw [text, Layout.text, String.toList_ofList]
    exact .number hplain.1 hdigital hplain.2.2 hread
  | identifier name =>
    obtain ⟨c, cs, hname, hc, hcs⟩ := h
    have hlexeme := Lexeme.identifier hc hcs
    rwa [← hname, String.ofList_toList] at hlexeme
  | operator op => cases op <;> exact .single (single_iff.mpr rfl)
  | leftParen | rightParen | comma => exact .single (single_iff.mpr rfl)

theorem toList_line_cons_cons (t u : Token) (ts : List Token) :
    (line (t :: u :: ts)).toList = t.text.toList ++ ' ' :: (line (u :: ts)).toList := by
  simp [line, String.toList_intercalate]

/-- Tokens in one line are scanned as each of them is alone. -/
theorem scans_line {g : Token → Token} (h : ∀ t ∈ ts, Scans t.text.toList [g t]) :
    Scans (line ts).toList (ts.map g) := by
  induction ts with
  | nil => exact scans_nil
  | cons t ts ih =>
    obtain ⟨ht, hts⟩ := List.forall_mem_cons.mp h
    cases ts with
    | nil => simpa [line] using ht
    | cons u us =>
      rw [toList_line_cons_cons]
      exact ht.append_space (by decide) (ih hts)

/-- What a printed token is read back as, if it was once scanned. -/
def reread : Token → Token
  | number value => if value.isFinite then number value else identifier "inf"
  | t => t

theorem scans_infinity :
    Scans (text (.number (Binary64.ofMagnitude Binary64.infinity))).toList [.identifier "inf"] := by
  rw [text, Layout.text, String.toList_ofList, Layout.write_infinity]
  have hfirst : BeginsName 'i' := by decide +kernel
  have hrest : ∀ d ∈ ['n', 'f'], continuesName d = true :=
    List.all_eq_true.mp (by decide +kernel)
  exact scans_name hfirst fun d hd => continuesName_iff.mp (hrest d hd)

theorem reread_eq_self_iff : t.reread = t ↔ ∀ v, t = .number v → v.isFinite = true := by
  cases t with
  | number value => by_cases hfinite : value.isFinite = true <;> simp [reread, hfinite]
  | identifier | operator | leftParen | rightParen | comma => simp [reread]

theorem legible_of_single {c : Char} (h : Single t c) : t.Legible := by
  cases h <;> trivial

/-- Of lexemes only those of infinity stand for a token that is not legible. -/
theorem Lexeme.legible_or_infinity (h : Lexeme t cs) :
    t.Legible ∨ t = .number (Binary64.ofMagnitude Binary64.infinity) := by
  cases h with
  | @number cs value digit numeric point read =>
    rw [Numeral.Digital.read? numeric] at read
    obtain ⟨d, -, rfl⟩ := Option.map_eq_some_iff.mp read
    rcases Nat.lt_or_eq_of_le d.magnitude_le with hlt | heq
    · have hmagnitude := Binary64.magnitude_ofMagnitude d.magnitude_le
      exact .inl ⟨Binary64.isFinite_iff.mpr (hmagnitude.trans_lt hlt),
        Binary64.isNegative_ofMagnitude d.magnitude_le⟩
    · exact .inr (by rw [Decimal.toFloat, heq])
  | identifier first rest => exact .inl ⟨_, _, String.toList_ofList, first, rest⟩
  | single h => exact .inl (legible_of_single h)

theorem Lexeme.legible_iff (h : Lexeme t cs) :
    t.Legible ↔ ∀ v, t = .number v → v.isFinite = true := by
  constructor
  · rintro hlegible v rfl
    exact hlegible.1
  · intro hfinite
    rcases h.legible_or_infinity with hlegible | rfl
    · exact hlegible
    · exact absurd (hfinite _ rfl) (by decide +kernel)

theorem Lexeme.scans_text (h : Lexeme t cs) : Scans t.text.toList [t.reread] := by
  rcases h.legible_or_infinity with hlegible | rfl
  · have hself : t.reread = t := reread_eq_self_iff.mpr (h.legible_iff.mp hlegible)
    rw [hself]
    exact (lexeme_text hlegible).scans
  · exact scans_infinity

theorem Division.Valid.exists_lexeme {d : Division} (h : d.Valid) :
    ∀ t ∈ d.tokens, ∃ cs, Lexeme t cs := by
  obtain ⟨ps, trail⟩ := d
  induction ps with
  | nil => simp [Division.tokens]
  | cons p ps ih =>
    obtain ⟨-, hlexeme, -, hrest⟩ := Division.valid_cons.mp h
    exact List.forall_mem_cons.mpr ⟨⟨_, hlexeme⟩, ih hrest⟩

end Token

open Token

variable {text : String} {ts : List Token}

theorem exists_lexeme_of_tokenize (h : tokenize text = .ok ts) :
    ∀ t ∈ ts, ∃ cs, Lexeme t cs := by
  obtain ⟨d, hd, -, rfl⟩ := Division.exists_of_scan ts h
  exact hd.exists_lexeme

theorem tokenize_line_of_legible (h : ∀ t ∈ ts, t.Legible) : tokenize (line ts) = .ok ts := by
  have hscans : Scans (line ts).toList (ts.map id) :=
    scans_line fun t ht => (lexeme_text (h t ht)).scans
  rw [List.map_id] at hscans
  exact hscans 0

/-- What was scanned is printed so that it is scanned again if it is legible, and only then. -/
theorem tokenize_line_eq_ok_iff (h : ∀ t ∈ ts, ∃ cs, Lexeme t cs) :
    tokenize (line ts) = .ok ts ↔ ∀ t ∈ ts, t.Legible := by
  refine ⟨fun hself t ht => ?_, tokenize_line_of_legible⟩
  have hscans : Scans (line ts).toList (ts.map reread) :=
    scans_line fun t ht => (h t ht).elim fun _ hlexeme => hlexeme.scans_text
  have hmap : ts.map reread = ts.map id := by
    rw [List.map_id]
    exact Except.ok.inj ((hscans 0).symm.trans hself)
  obtain ⟨cs, hlexeme⟩ := h t ht
  exact hlexeme.legible_iff.mpr (reread_eq_self_iff.mp (List.map_inj_left.mp hmap t ht))

/-- Printed tokens read back if and only if all of them are legible, and lists of legible tokens
that are printed alike are equal. The postfix form of an expression reads back unless one of its
numerals is too large for a finite double. -/
theorem tokenize_line_iff_legible :
    (∀ ts, tokenize (line ts) = .ok ts ↔ ∀ t ∈ ts, t.Legible) ∧
      (∀ ts us, (∀ t ∈ ts, t.Legible) → (∀ u ∈ us, u.Legible) → line ts = line us → ts = us) ∧
      ∀ text ts rpn, tokenize text = .ok ts → parse text = .ok rpn →
        (tokenize (line rpn) = .ok rpn ↔ ∀ v, .number v ∈ ts → v.isFinite = true) := by
  refine ⟨fun ts => ⟨fun hself => ?_, tokenize_line_of_legible⟩, fun ts us hts hus hline => ?_, ?_⟩
  · exact (tokenize_line_eq_ok_iff (exists_lexeme_of_tokenize hself)).mp hself
  · have hread := tokenize_line_of_legible hts
    rw [hline, tokenize_line_of_legible hus] at hread
    exact (Except.ok.inj hread).symm
  · intro text ts rpn htokens hparse
    have hlexeme := exists_lexeme_of_tokenize htokens
    have hrpn : Rpn.ofTokens ts = .ok rpn := by
      obtain ⟨ts', htokens', hrpn⟩ := parse_eq_ok.mp hparse
      rwa [← Except.ok.inj (htokens.symm.trans htokens')] at hrpn
    have hmem {t : Token} := Rpn.mem_of_ofTokens (t := t) hrpn
    rw [tokenize_line_eq_ok_iff fun t ht => hlexeme t (hmem.mp ht).1]
    constructor
    · intro hlegible v hv
      exact (hlegible _ (hmem.mpr ⟨hv, rfl⟩)).1
    · intro hfinite t ht
      obtain ⟨cs, hcs⟩ := hlexeme t (hmem.mp ht).1
      refine hcs.legible_iff.mpr ?_
      rintro v rfl
      exact hfinite v (hmem.mp ht).1

/-- The name stays apart from the point before it and from the operator. -/
theorem tokenize_line_of_product :
    ∃ rpn, parse "1.5*x1" = .ok rpn ∧ tokenize (line rpn) = .ok rpn := by
  have htokens : tokenize "1.5*x1" = .ok [.number 1.5, .operator .multiply, .identifier "x1"] := by
    decide +kernel
  have hparse : parse "1.5*x1" = .ok [.number 1.5, .identifier "x1", .operator .multiply] :=
    parse_eq_ok.mpr ⟨_, htokens, rfl⟩
  refine ⟨_, hparse, (tokenize_line_iff_legible.2.2 _ _ _ htokens hparse).mpr fun v hv => ?_⟩
  obtain rfl : v = 1.5 := by simpa using hv
  decide +kernel

end ReversePolish
