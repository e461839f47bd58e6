import ReversePolish.Session.Conversation

/-! # Asking for values
The names that are not bound yet are asked for in their order, each question takes one line, and the
first answer that is no numeral is the last. -/
namespace ReversePolish
open Text

namespace Session

theorem valueAfter_succ (n : Nat) (input : List UInt8) :
    valueAfter (n + 1) input = valueAfter n (afterLine input) := rfl

theorem valueAfter_of_malformed {n : Nat} {input : List UInt8}
    (h : (readLine (afterLines n input)).1 = .malformed) : valueAfter n input = none := by
  have htyped : typedAfter n input = "" := by simp [typedAfter, h]
  rw [valueAfter, htyped]
  rfl

theorem ne_malformed_of_valueAfter {n : Nat} {input : List UInt8} {v : Float}
    (h : valueAfter n input = some v) : (readLine (afterLines n input)).1 ≠ .malformed := by
  intro hm
  rw [valueAfter_of_malformed hm] at h
  contradiction

theorem join_output_questions (names : List String) (input : List UInt8) :
    String.join ((questions names input).map Utterance.output) =
      String.join (names.map question) := by
  induction names generalizing input with
  | nil => rfl
  | cons name names ih => simp [questions, Utterance.output, ih]

theorem heard_mem_questions {names : List String} {n : Nat} (h : n < names.length)
    (input : List UInt8) :
    .heard (readLine (afterLines n input)).1 ∈ questions names input := by
  induction names generalizing n input with
  | nil => simp at h
  | cons name names ih =>
    cases n with
    | zero => simp [questions, afterLines_zero]
    | succ n =>
      have hn : n < names.length := by simpa using h
      have hmem := ih hn (afterLine input)
      simp [questions, afterLines_succ, hmem]

/-- How asking for the values of `names` went: either all lines held numerals, or the first that did
not was the last to be read. -/
inductive Asked (vars : Bindings) (names : List String) (input : List UInt8) (q : Played Values) :
    Prop
  | complete (values : List Float)
      (read : (List.range names.length).map (valueAfter · input) = values.map some)
      (exchange : q.exchange = questions names input)
      (rest : q.rest = afterLines names.length input)
      (value : q.value = .complete (vars.bindAll (names.zip values)))
  | stopped (n : Nat) (name : String) (here : names[n]? = some name)
      (before : ∀ m < n, (valueAfter m input).isSome) (failed : valueAfter n input = none)
      (exchange : q.exchange = questions (names.take (n + 1)) input)
      (rest : q.rest = afterLines (n + 1) input)
      (value : q.value =
        if (readLine (afterLines n input)).1 = .malformed then .malformed
        else .invalid name (typedAfter n input))

section
variable {vars : Bindings} {name : String} {names : List String} {input : List UInt8} {v : Float}

/-- After an answer that is a numeral the other names are asked for. -/
theorem Asked.cons {q : Played Values} (hv : valueAfter 0 input = some v)
    (h : Asked (vars.bind name v) names (afterLine input) q) :
    Asked vars (name :: names) input
      (q.after
        [.said (question name), .heard (readLine input).1, .noted (.valueRead name v)]) := by
  cases h with
  | complete values read exchange rest value =>
    refine .complete (v :: values) ?_ ?_ rest value
    · simpa [List.range_succ_eq_map, hv, valueAfter_succ, Function.comp_def] using read
    · simp [Played.exchange_after, exchange, questions, Utterance.event?]
  | stopped n other here before failed exchange rest value =>
    refine .stopped (n + 1) other here ?_ failed ?_ rest value
    · intro m hm
      cases m with
      | zero => simp [hv]
      | succ m => exact before m (Nat.lt_of_succ_lt_succ hm)
    · simp [Played.exchange_after, exchange, questions, Utterance.event?]

theorem askValues_of_binds (hb : vars.binds name = true) :
    askValues vars (name :: names) = askValues vars names := by
  simp [askValues, hb]

theorem play_askValues_of_some (hb : vars.binds name = false) (hv : valueAfter 0 input = some v) :
    (askValues vars (name :: names)).play input =
      ((askValues (vars.bind name v) names).play (afterLine input)).after
        [.said (question name), .heard (readLine input).1, .noted (.valueRead name v)] := by
  have hm : (readLine input).1 ≠ .malformed := ne_malformed_of_valueAfter hv
  have hread : Numeral.read? (typed (readLine input).1).toList = some v := hv
  simp [askValues, hb, Dialogue.play, hm, hread, readLine_snd, Played.after]

theorem play_askValues_of_none (hb : vars.binds name = false) (hv : valueAfter 0 input = none) :
    (askValues vars (name :: names)).play input =
      ⟨if (readLine input).1 = .malformed then .malformed else .invalid name (typedAfter 0 input),
        [.said (question name), .heard (readLine input).1], afterLine input⟩ := by
  have hread : Numeral.read? (typed (readLine input).1).toList = none := hv
  by_cases hm : (readLine input).1 = .malformed
  · simp [askValues, hb, Dialogue.play, hm, readLine_snd, Played.after]
  · simp [askValues, hb, Dialogue.play, hm, hread, readLine_snd, Played.after, ← typed_readLine,
      afterLines_zero]

end

/-- A name that has been asked for is bound, but it does not come again. -/
theorem asked_askValues {names : List String} (hn : names.Nodup) (vars : Bindings)
    (input : List UInt8) :
    Asked vars (names.filter fun name => !vars.binds name) input
      ((askValues vars names).play input) := by
  induction names generalizing vars input with
  | nil => exact .complete [] rfl rfl rfl rfl
  | cons name names ih =>
    obtain ⟨hname, hnames⟩ := List.nodup_cons.mp hn
    cases hb : vars.binds name with
    | true =>
      rw [askValues_of_binds hb, List.filter_cons_of_neg (by simp [hb])]
      exact ih hnames vars input
    | false =>
      rw [List.filter_cons_of_pos (by simp [hb])]
      cases hv : valueAfter 0 input with
      | none =>
        rw [play_askValues_of_none hb hv]
        exact .stopped 0 name rfl (fun m hm => absurd hm (Nat.not_lt_zero m)) hv rfl rfl rfl
      | some v =>
        have hlater : names.filter (fun other => !(vars.bind name v).binds other) =
            names.filter fun other => !vars.binds other := by
          refine List.filter_congr fun other ho => ?_
          have hne : other ≠ name := fun he => hname (he ▸ ho)
          simp [Bindings.binds, Bindings.find?_bind, hne]
        have hrest := ih hnames (vars.bind name v) (afterLine input)
        rw [hlater] at hrest
        rw [play_askValues_of_some hb hv]
        exact hrest.cons hv

end Session
end ReversePolish
