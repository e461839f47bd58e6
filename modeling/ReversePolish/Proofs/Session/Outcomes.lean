import ReversePolish.Proofs.Session.Evaluation

/-! # How expressions come out
What is typed decides which names are asked for and what becomes of an expression: the interview
goes like that, and the session says so. -/
namespace ReversePolish.Session
open Text

section
variable {vars : Bindings} {names : List String} {input : List UInt8} {q : Played Values}

theorem isSome_of_read {values : List Float} {count m : Nat}
    (h : (List.range count).map (valueAfter · input) = values.map some) (hm : m < count) :
    (valueAfter m input).isSome := by
  have hmem : valueAfter m input ∈ values.map some :=
    h ▸ List.mem_map_of_mem (List.mem_range.mpr hm)
  obtain ⟨v, -, hv⟩ := List.mem_map.mp hmem
  simp [← hv]

/-- If all answers are numerals, the questions were answered completely. -/
theorem Asked.of_read (h : Asked vars names input q) {values : List Float}
    (read : (List.range names.length).map (valueAfter · input) = values.map some) :
    q.exchange = questions names input ∧ q.rest = afterLines names.length input ∧
      q.value = .complete (vars.bindAll (names.zip values)) := by
  cases h with
  | complete values' read' exchange rest value =>
    have hvalues : values' = values :=
      List.map_injective_iff.mpr (fun _ _ => Option.some.inj) (read'.symm.trans read)
    exact ⟨exchange, rest, hvalues ▸ value⟩
  | stopped n name here before failed exchange rest value =>
    have hsome := isSome_of_read read (List.getElem?_eq_some_iff.mp here).1
    simp [failed] at hsome

/-- The first answer that is no numeral ended the questions. -/
theorem Asked.of_failed (h : Asked vars names input q) {n : Nat} {name : String}
    (here : names[n]? = some name) (before : ∀ m < n, (valueAfter m input).isSome)
    (failed : valueAfter n input = none) :
    q.exchange = questions (names.take (n + 1)) input ∧ q.rest = afterLines (n + 1) input ∧
      q.value = if (readLine (afterLines n input)).1 = .malformed then .malformed
        else .invalid name (typedAfter n input) := by
  cases h with
  | complete values read exchange rest value =>
    have hsome := isSome_of_read read (List.getElem?_eq_some_iff.mp here).1
    simp [failed] at hsome
  | stopped n' name' here' before' failed' exchange rest value =>
    have hn : n' = n := by
      rcases Nat.lt_trichotomy n' n with hlt | heq | hgt
      · simpa [failed'] using before n' hlt
      · exact heq
      · simpa [failed] using before' n hgt
    subst hn
    have hname : name' = name := Option.some.inj (here'.symm.trans here)
    exact ⟨exchange, rest, hname ▸ value⟩

end

/-- An interview in which the values of `asked` were asked for and that came out like this. -/
structure Interviewed (input : List UInt8) (asked : List String)
    (outcome : Except InputError (Except Error Float))
    (q : Played (Except InputError (Except Error Float))) : Prop where
  exchange : q.exchange = questions asked input
  rest : q.rest = afterLines asked.length input
  value : q.value = outcome

variable {bindings : Bindings} {text : String} {input : List UInt8} {asked : List String}
  {outcome : Except InputError (Except Error Float)}

theorem asked_of_freeVariables {names : List String} (h : freeVariables text = .ok names)
    (bindings : Bindings) (input : List UInt8) :
    Asked bindings (names.filter fun name => !bindings.binds name) input
      ((askValues bindings names).play input) :=
  asked_askValues ((pairwise_of_freeVariables h).imp fun hlt => ne_of_lt hlt) bindings input

theorem ComesOut.interviewed (h : ComesOut bindings text input asked outcome) :
    Interviewed input asked outcome (interview bindings text input) := by
  cases h with
  | unscanned scan =>
    simp only [interview, scan]
    exact ⟨rfl, rfl, rfl⟩
  | computed scan free read =>
    subst free
    obtain ⟨hexchange, hrest, hvalue⟩ := (asked_of_freeVariables scan bindings input).of_read read
    simp only [interview, scan]
    exact ⟨hexchange, hrest, by simp only [hvalue, settle]⟩
  | refused scan free here before failed readable =>
    subst free
    obtain ⟨hexchange, hrest, hvalue⟩ :=
      (asked_of_freeVariables scan bindings input).of_failed here before failed
    have hlength := List.length_take_of_le (List.getElem?_eq_some_iff.mp here).1
    simp only [interview, scan]
    exact ⟨hexchange, hlength ▸ hrest, by simp only [hvalue, if_neg readable, settle]⟩
  | unreadable scan free here before malformed =>
    subst free
    obtain ⟨hexchange, hrest, hvalue⟩ :=
      (asked_of_freeVariables scan bindings input).of_failed here before
        (valueAfter_of_malformed malformed)
    have hlength := List.length_take_of_le (List.getElem?_eq_some_iff.mp here).1
    simp only [interview, scan]
    exact ⟨hexchange, hlength ▸ hrest, by simp only [hvalue, if_pos malformed, settle]⟩

theorem exists_comesOut (bindings : Bindings) (text : String) (input : List UInt8) :
    ∃ asked outcome, ComesOut bindings text input asked outcome := by
  cases hnames : freeVariables text with
  | error e => exact ⟨_, _, .unscanned hnames⟩
  | ok names =>
    cases asked_of_freeVariables hnames bindings input with
    | complete values read => exact ⟨_, _, .computed hnames rfl read⟩
    | stopped n name here before failed =>
      by_cases hm : (readLine (afterLines n input)).1 = .malformed
      · exact ⟨_, _, .unreadable hnames rfl here before hm⟩
      · exact ⟨_, _, .refused hnames rfl here before failed hm⟩

end ReversePolish.Session
