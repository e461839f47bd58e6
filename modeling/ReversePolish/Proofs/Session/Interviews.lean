import ReversePolish.Proofs.Expression.Identifiers
import ReversePolish.Proofs.Scanning.Trimming
import ReversePolish.Proofs.Session.Evaluation

/-! # Interviews that go the same way
What is asked for and what becomes of an expression depends on the tokens of the expression and on
the values that names have: not on the white space around the expression, and not on how the values
were bound. -/
namespace ReversePolish.Session
open Text

/-- The same was said and heard, the same is left, and both have the same value or both fail. -/
structure Matches (q q' : Played (Except InputError (Except Error Float))) : Prop where
  exchange : q.exchange = q'.exchange
  rest : q.rest = q'.rest
  value : q.value.map Except.toOption = q'.value.map Except.toOption

variable {bindings bindings' : Bindings} {q q' : Played (Except InputError (Except Error Float))}
  {p p' : Played (Outcome (Option Float))} {text : String}

theorem Matches.refl (q : Played (Except InputError (Except Error Float))) : Matches q q :=
  ⟨rfl, rfl, rfl⟩

/-- The last line does not tell errors apart. -/
theorem outcomeLine_congr {outcome outcome' : Except Error Float}
    (h : outcome.toOption = outcome'.toOption) : outcomeLine outcome = outcomeLine outcome' := by
  cases outcome with
  | ok v =>
    cases outcome' with
    | ok w => rw [Option.some.inj h]
    | error e => contradiction
  | error e =>
    cases outcome' with
    | ok w => contradiction
    | error e' => rfl

theorem Matches.closing_eq (h : Matches q q') : closing q.value = closing q'.value := by
  have hvalue := h.value
  cases hq : q.value with
  | error e =>
    cases hq' : q'.value with
    | error e' => rfl
    | ok outcome' => simp [hq, hq', Except.map] at hvalue
  | ok outcome =>
    cases hq' : q'.value with
    | error e' => simp [hq, hq', Except.map] at hvalue
    | ok outcome' =>
      have houtcome : outcome.toOption = outcome'.toOption := by
        simpa [hq, hq', Except.map] using hvalue
      simp only [closing, outcomeLine_congr houtcome]

/-! ## Bindings that agree -/

theorem play_askValues_congr (h : bindings.Agrees bindings') (text : String) (names : List String)
    (input : List UInt8) :
    let q := (askValues bindings names).play input
    let q' := (askValues bindings' names).play input
    q.transcript = q'.transcript ∧ q.rest = q'.rest ∧
      settle text q.value = settle text q'.value := by
  induction names generalizing bindings bindings' input with
  | nil => exact ⟨rfl, rfl, congrArg Except.ok (evaluate_congr h text)⟩
  | cons name names ih =>
    cases hb : bindings.binds name with
    | true =>
      rw [askValues_of_binds hb, askValues_of_binds ((h.binds_eq name).symm.trans hb)]
      exact ih h input
    | false =>
      have hb' : bindings'.binds name = false := (h.binds_eq name).symm.trans hb
      cases hv : valueAfter 0 input with
      | none =>
        rw [play_askValues_of_none hb hv, play_askValues_of_none hb' hv]
        exact ⟨rfl, rfl, rfl⟩
      | some v =>
        obtain ⟨htranscript, hrest, hvalue⟩ := ih (h.bind name v) (afterLine input)
        rw [play_askValues_of_some hb hv, play_askValues_of_some hb' hv]
        exact ⟨congrArg (_ ++ ·) htranscript, hrest, hvalue⟩

theorem interview_congr (h : bindings.Agrees bindings') (text : String) (input : List UInt8) :
    interview bindings text input = interview bindings' text input := by
  unfold interview
  cases freeVariables text with
  | error e => rfl
  | ok names =>
    obtain ⟨htranscript, hrest, hvalue⟩ := play_askValues_congr h text names input
    simp only [htranscript, hrest, hvalue]

/-! ## White space around an expression -/

theorem matches_interview_trim (bindings : Bindings) (text : String) (input : List UInt8) :
    Matches (interview bindings (trim text) input) (interview bindings text input) := by
  cases htext : tokenize text with
  | ok ts =>
    have htrim : tokenize (trim text) = .ok ts := tokenize_trim_eq_ok.mpr htext
    have hsettle : settle (trim text) = settle text := by
      funext values
      cases values with
      | complete vars =>
        have hevaluate := evaluate_eq_of_tokenize htext vars
        exact congrArg Except.ok ((evaluate_eq_of_tokenize htrim vars).trans hevaluate.symm)
      | invalid name typed | malformed => rfl
    simp only [interview, freeVariables, htext, htrim, hsettle]
    exact .refl _
  | error e =>
    obtain ⟨e', htrim⟩ : ∃ e', tokenize (trim text) = .error e' := by
      cases htrim : tokenize (trim text) with
      | error e' => exact ⟨e', rfl⟩
      | ok ts => simp [tokenize_trim_eq_ok.mp htrim] at htext
    simp only [interview, freeVariables, htext, htrim]
    exact ⟨rfl, rfl, rfl⟩

end ReversePolish.Session
