import Mathlib.Data.List.TakeWhile
import ReversePolish.Decimal.Plain
import ReversePolish.Proofs.Scanning.Delimiters

/-! # What characters are scanned as
Where characters stand in a text matters for the errors of a scan and not for its tokens. White
space comes to nothing, a lexeme that could not be longer is scanned as its token, and what stands
on the two sides of a delimiter is put together. -/
namespace ReversePolish
open Token

/-- The characters are scanned as these tokens, at whatever position they stand. -/
def Scans (cs : List Char) (ts : List Token) : Prop := ∀ pos, scan pos cs = .ok ts

section
variable {as bs cs gap rest : List Char} {ts us : List Token}

theorem scans_nil : Scans [] [] := fun pos => by rw [scan]

theorem Scans.append_delimiter {d : Char} (hd : isDelimiter d = true) (ha : Scans as ts)
    (hb : Scans bs us) : Scans (as ++ d :: bs) (ts ++ (ofChar? d).toList ++ us) := by
  intro pos
  rw [scan_append_delimiter hd, ha, hb]
  rfl

theorem Scans.append_single {d : Char} {t : Token} (hd : Single t d) (ha : Scans as ts)
    (hb : Scans bs us) : Scans (as ++ d :: bs) (ts ++ t :: us) := by
  have ht := single_iff.mp hd
  simpa [ht] using ha.append_delimiter (d := d) (by simp [isDelimiter, ht]) hb

theorem Scans.append_space {d : Char} (hd : Text.isWhiteSpace d = true) (ha : Scans as ts)
    (hb : Scans bs us) : Scans (as ++ d :: bs) (ts ++ us) := by
  simpa [ofChar?_of_isWhiteSpace hd] using
    ha.append_delimiter (d := d) (by simp [isDelimiter, hd]) hb

theorem scan_blank_append (hg : Division.IsBlank gap) (pos : Nat) (cs : List Char) :
    scan pos (gap ++ cs) = scan (pos + gap.length) cs := by
  induction gap generalizing pos with
  | nil => rfl
  | cons c gap ih =>
    have hc := hg c List.mem_cons_self
    rw [List.cons_append, scan, if_pos hc, ih fun d hd => hg d (List.mem_cons_of_mem c hd),
      List.length_cons, Nat.add_assoc, Nat.add_comm 1]

theorem Scans.blank_append (hg : Division.IsBlank gap) (h : Scans cs ts) :
    Scans (gap ++ cs) ts :=
  fun pos => (scan_blank_append hg pos cs).trans (h _)

theorem Scans.append_blank (hg : Division.IsBlank gap) (h : Scans cs ts) :
    Scans (cs ++ gap) ts := by
  cases gap with
  | nil => simpa using h
  | cons d gap =>
    have hd := hg d (by simp)
    have hgap : Scans gap [] := by
      simpa using scans_nil.blank_append fun c hc => hg c (List.mem_cons_of_mem d hc)
    simpa using h.append_space hd hgap

theorem Scans.parens (h : Scans cs ts) (ha : Scans as us) :
    Scans (as ++ '(' :: cs ++ [')']) (us ++ .leftParen :: ts ++ [.rightParen]) := by
  simpa using ha.append_single .leftParen (h.append_single .rightParen scans_nil)

end

section
variable {α : Type} {p : α → Bool} {C : α → Prop} {run rest : List α}

/-- A run of a class ends where the class ends. -/
theorem takeWhile_run (hp : ∀ x, p x = true ↔ C x) (hrun : ∀ x ∈ run, C x)
    (hrest : ∀ x, rest.head? = some x → ¬C x) : (run ++ rest).takeWhile p = run := by
  have hall : run.takeWhile p = run :=
    List.takeWhile_eq_self_iff.mpr fun x hx => (hp x).mpr (hrun x hx)
  cases rest with
  | nil => rw [List.append_nil, hall]
  | cons x rest =>
    have hx : p x = false := Bool.eq_false_iff.mpr (mt (hp x).mp (hrest x rfl))
    rw [takeWhile_append_stop hx, hall]

theorem dropWhile_run (hp : ∀ x, p x = true ↔ C x) (hrun : ∀ x ∈ run, C x)
    (hrest : ∀ x, rest.head? = some x → ¬C x) : (run ++ rest).dropWhile p = rest := by
  have hsplit := List.takeWhile_append_dropWhile (p := p) (l := run ++ rest)
  rw [takeWhile_run hp hrun hrest] at hsplit
  exact List.append_cancel_left hsplit

end

namespace Token

variable {t : Token} {cs rest : List Char}

/-- A lexeme that the characters after it do not prolong is scanned as its token. -/
theorem Lexeme.scan_append (h : Lexeme t cs)
    (hend : ∀ c, rest.head? = some c → EndsBefore t c) (pos : Nat) :
    scan pos (cs ++ rest) = (scan (pos + cs.length) rest).map (t :: ·) := by
  cases h with
  | number digit numeric point read =>
    obtain ⟨d, hd, -⟩ := digit
    obtain ⟨c, cs, rfl⟩ := List.exists_cons_of_ne_nil (List.ne_nil_of_mem hd)
    obtain ⟨hc, hrun⟩ := List.forall_mem_cons.mp numeric
    have htake := takeWhile_run (fun _ => isNumeric_iff) hrun hend
    have hdrop := dropWhile_run (fun _ => isNumeric_iff) hrun hend
    rw [List.cons_append, scan_number (isNumeric_iff.mpr hc) (by rw [htake]; exact read), htake,
      hdrop, List.length_cons, Nat.add_assoc]
  | identifier first hrun =>
    have htake := takeWhile_run (fun _ => continuesName_iff) hrun hend
    have hdrop := dropWhile_run (fun _ => continuesName_iff) hrun hend
    rw [List.cons_append, scan_name (startsName_iff.mpr first), htake, hdrop, List.length_cons,
      Nat.add_assoc]
  | single h =>
    have ht := single_iff.mp h
    rw [List.cons_append, scan_delimiter (by simp [isDelimiter, ht]), ht]
    rfl

theorem Lexeme.scans (h : Lexeme t cs) : Scans cs [t] := by
  intro pos
  have hend : ∀ c, [].head? = some c → EndsBefore t c := by simp
  have hscan := h.scan_append hend pos
  rwa [List.append_nil, scan] at hscan

theorem lexeme_number (h : Numeral.IsPlain cs) : Lexeme (.number (Numeral.value cs h)) cs := by
  exact .number h.1 h.2.1 h.2.2 (Numeral.read?_eq_value h)

end Token

section
variable {cs : List Char}

theorem scans_number (h : Numeral.IsPlain cs) : Scans cs [.number (Numeral.value cs h)] :=
  (lexeme_number h).scans

theorem scans_name {c : Char} (hc : BeginsName c) (hcs : ∀ d ∈ cs, InName d) :
    Scans (c :: cs) [.identifier (.ofList (c :: cs))] :=
  (Lexeme.identifier hc hcs).scans

/-- Function names are written like any other name. -/
theorem exists_builtin_name (f : Builtin) :
    ∃ c cs, f.name = .ofList (c :: cs) ∧ BeginsName c ∧ ∀ d ∈ cs, InName d := by
  have hname : ∃ c cs, f.name.toList = c :: cs ∧ startsName c = true ∧
      cs.all continuesName = true := by
    cases f <;> exact ⟨_, _, rfl, by decide, by decide⟩
  obtain ⟨c, cs, he, hc, hcs⟩ := hname
  refine ⟨c, cs, by rw [← he, String.ofList_toList], startsName_iff.mp hc, fun d hd => ?_⟩
  exact continuesName_iff.mp (List.all_eq_true.mp hcs d hd)

theorem scans_builtin (f : Builtin) : Scans f.name.toList [.identifier f.name] := by
  obtain ⟨c, cs, he, hc, hcs⟩ := exists_builtin_name f
  rw [he, String.toList_ofList]
  exact scans_name hc hcs

end

end ReversePolish
