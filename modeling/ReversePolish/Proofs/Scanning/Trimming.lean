import ReversePolish.Proofs.Scanning.Division

/-! # Scanning without the white space at the ends
White space before the tokens moves the position of an error and white space after them does
nothing, so a trimmed text has the same tokens as the text, or none if that has none. -/
namespace ReversePolish
open Text Token Token.Division

variable {cs gap : List Char} {ts : List Token} {text : String}

theorem exists_trimmed (cs : List Char) :
    ∃ lead trail, IsBlank lead ∧ IsBlank trail ∧ cs = lead ++ (trimmed cs ++ trail) := by
  have hback := List.takeWhile_append_dropWhile (p := isWhiteSpace)
    (l := (cs.dropWhile isWhiteSpace).reverse)
  refine ⟨cs.takeWhile isWhiteSpace,
    ((cs.dropWhile isWhiteSpace).reverse.takeWhile isWhiteSpace).reverse,
    fun c hc => List.mem_takeWhile_imp hc,
    fun c hc => List.mem_takeWhile_imp (List.mem_reverse.mp hc), ?_⟩
  rw [trimmed, ← List.reverse_append, hback, List.reverse_reverse, List.takeWhile_append_dropWhile]

/-- Trimming leaves nothing of a blank text and only of a blank text. -/
theorem trim_eq_empty_iff : trim text = "" ↔ IsBlank text.toList := by
  have hnil : trim text = "" ↔ trimmed text.toList = [] := by
    rw [trim, ← String.toList_inj, String.toList_ofList]
    rfl
  rw [hnil]
  obtain ⟨lead, trail, hlead, htrail, hsplit⟩ := exists_trimmed text.toList
  constructor
  · intro h c hc
    rw [hsplit, h, List.nil_append] at hc
    exact (List.mem_append.mp hc).elim (hlead c) (htrail c)
  · intro h
    have hall : text.toList.dropWhile isWhiteSpace = [] := List.dropWhile_eq_nil_iff.mpr h
    simp [trimmed, hall]

theorem scan_append_blank (hgap : IsBlank gap) (pos : Nat) (cs : List Char) :
    scan pos (cs ++ gap) = scan pos cs := by
  cases gap with
  | nil => rw [List.append_nil]
  | cons c gap =>
    have hc := hgap c List.mem_cons_self
    have hrest : scan (pos + cs.length + 1) gap = .ok [] := by
      have h := scan_blank_append (fun d hd => hgap d (List.mem_cons_of_mem c hd))
        (pos + cs.length + 1) []
      rw [List.append_nil] at h
      rw [h, scan]
    rw [scan_append_delimiter (by simp [isDelimiter, hc]), hrest, ofChar?_of_isWhiteSpace hc]
    cases scan pos cs <;> simp [bind, Except.bind, pure, Except.pure]

/-- Whether there is an error does not depend on the position. -/
theorem scans_of_scan {pos : Nat} (h : scan pos cs = .ok ts) : Scans cs ts := by
  obtain ⟨d, hd, rfl, rfl⟩ := exists_of_scan ts h
  exact scans_of_valid hd

theorem tokenize_trim_eq_ok : tokenize (trim text) = .ok ts ↔ tokenize text = .ok ts := by
  obtain ⟨lead, trail, hlead, htrail, hsplit⟩ := exists_trimmed text.toList
  have hwhole : tokenize text = scan (0 + lead.length) (trimmed text.toList) := by
    rw [tokenize, hsplit, scan_blank_append hlead, scan_append_blank htrail, ← hsplit]
  have hinner : tokenize (trim text) = scan 0 (trimmed text.toList) := by
    rw [tokenize, trim, String.toList_ofList]
  rw [hwhole, hinner]
  exact ⟨fun h => scans_of_scan h _, fun h => scans_of_scan h _⟩

end ReversePolish
