import ReversePolish.Proofs.Calculator.Answers
import ReversePolish.Proofs.Scanning.Variables
import ReversePolish.Proofs.Session.Questions

/-! # Dealing with one expression
Evaluating an expression asks for the values of its unbound variables, settles what becomes of it
and writes that down. What the calculator remembers plays no part in this. -/
namespace ReversePolish.Session
open Text

/-- What becomes of an expression when its values have been asked for. -/
def settle (text : String) : Values → Except InputError (Except Error Float)
  | .complete vars => .ok (ReversePolish.evaluate text vars)
  | .invalid name input => .ok (.error (.invalidValue name input))
  | .malformed => .error .invalidUtf8

/-- The questions that an expression raises, and what becomes of it. -/
def interview (bindings : Bindings) (text : String) (input : List UInt8) :
    Played (Except InputError (Except Error Float)) :=
  match freeVariables text with
  | .error e => ⟨.ok (.error (.lex e)), [], input⟩
  | .ok names =>
    let q := (askValues bindings names).play input
    { q with value := settle text q.value }

/-- The last line, unless the input could not be read. -/
def closing : Except InputError (Except Error Float) → List Utterance
  | .ok outcome => [.said (outcomeLine outcome)]
  | .error _ => []

/-- The session has these bindings, and what it remembers is right. -/
structure Keeps (s : Session) (bindings : Bindings) : Prop where
  bindings_eq : s.bindings = bindings
  sound : s.calculator.Sound

/-- The turn `p` went as `q` and told how `q` came out. -/
structure Follows (bindings : Bindings) (q : Played (Except InputError (Except Error Float)))
    (p : Played (Outcome (Option Float))) : Prop where
  exchange : p.exchange = q.exchange ++ closing q.value
  rest : p.rest = q.rest
  answer : p.value.answer = q.value.map Except.toOption
  keeps : p.value.session.Keeps bindings

variable {s : Session} {bindings : Bindings} {q : Played (Except InputError (Except Error Float))}
  {p : Played (Outcome (Option Float))}

/-- What was uttered before the turn comes before the turn. -/
theorem Follows.after (h : Follows bindings q p) (us : List Utterance) :
    Follows bindings (q.after us) (p.after us) where
  exchange := by simp [Played.exchange_after, h.exchange]
  rest := h.rest
  answer := h.answer
  keeps := h.keeps

/-- The events of a calculator are no part of the conversation. -/
theorem Follows.noteAll {d : Dialogue (Outcome (Option Float))} {input : List UInt8}
    (h : Follows bindings q (d.play input)) (events : List Event) :
    Follows bindings q ((Dialogue.noteAll events d).play input) := by
  rw [Dialogue.play_noteAll]
  exact ⟨(Played.exchange_after_noted events _).trans h.exchange, h.rest, h.answer, h.keeps⟩

theorem follows_conclude (hs : s.Keeps bindings) (text : String) (outcome : Except Error Float)
    (input : List UInt8) :
    Follows bindings ⟨.ok outcome, [], input⟩ ((s.conclude text outcome).play input) := by
  cases outcome with
  | ok value => exact ⟨rfl, rfl, rfl, hs⟩
  | error e => exact ⟨rfl, rfl, rfl, hs⟩

/-- With all values at hand the calculator answers as if it remembered nothing. -/
theorem follows_compute (hs : s.Keeps bindings) (text : String) (vars : Bindings)
    (input : List UInt8) :
    let r := s.calculator.evaluate text vars
    Follows bindings ⟨.ok (ReversePolish.evaluate text vars), [], input⟩
      ((Dialogue.noteAll r.events
        (conclude { s with calculator := r.calculator } text r.answer)).play input) := by
  intro r
  have hsound := (hs.sound.serve (.evaluate text vars)).2
  have hvalue : r.answer = ReversePolish.evaluate text vars := hs.sound.answer_evaluate text vars
  have hnext : Keeps { s with calculator := r.calculator } bindings := ⟨hs.bindings_eq, hsound⟩
  rw [hvalue]
  exact (follows_conclude hnext text _ input).noteAll r.events

theorem follows_evaluate (hs : s.Keeps bindings) (text : String) (input : List UInt8) :
    Follows bindings (interview bindings text input) ((s.evaluate text).play input) := by
  obtain rfl := hs.bindings_eq
  cases hnames : freeVariables text with
  | error e =>
    have hconclude := follows_conclude hs text (.error (.lex e)) input
    simpa [interview, Session.evaluate, hnames] using hconclude
  | ok names =>
    obtain ⟨value, transcript, rest, hq⟩ : ∃ value transcript rest,
        (askValues s.bindings names).play input = ⟨value, transcript, rest⟩ := ⟨_, _, _, rfl⟩
    have hinterview : interview s.bindings text input =
        Played.after transcript ⟨settle text value, [], rest⟩ := by
      simp [interview, hnames, hq, Played.after]
    rw [hinterview]
    simp only [Session.evaluate, hnames, Dialogue.play_bind, hq]
    refine Follows.after ?_ transcript
    cases value with
    | malformed => exact ⟨rfl, rfl, rfl, hs⟩
    | invalid name typed => exact follows_conclude hs text _ rest
    | complete vars => exact follows_compute hs text vars rest

theorem Follows.mem_transcript {u : Utterance} (h : Follows bindings q p) (hu : u ∈ q.exchange) :
    u ∈ p.transcript := by
  have hmem : u ∈ p.exchange := h.exchange ▸ List.mem_append_left _ hu
  exact (List.mem_filter.mp hmem).1

theorem Follows.conducted {asked : List String} {input : List UInt8} {outcome : Except Error Float}
    (h : Follows bindings q p) (hasked : asked.Pairwise (· < ·))
    (hexchange : q.exchange = questions asked input)
    (hrest : q.rest = afterLines asked.length input) (hvalue : q.value = .ok outcome) :
    Conducted input asked outcome p where
  ascending := hasked
  exchange := by rw [h.exchange, hexchange, hvalue]; rfl
  output := by
    rw [Played.output_eq_exchange, h.exchange, hexchange, hvalue, List.map_append,
      String.join_append, join_output_questions]
    simp [closing, Utterance.output]
  rest := h.rest.trans hrest
  answer := by rw [h.answer, hvalue]; rfl

/-- How an expression is dealt with if no line that is read for it is malformed. If it cannot be
scanned, nothing is read. Otherwise the values of its unbound variables are asked for; either all
answers are numerals and the outcome is that of the expression under the values typed, or the first
answer that is none ends the questions and is the error. -/
theorem conducted_evaluate (hs : s.calculator.Reachable) (text : String) (input : List UInt8)
    (hread : .heard .malformed ∉ ((s.evaluate text).play input).transcript) :
    match freeVariables text with
    | .error e => Conducted input [] (.error (.lex e)) ((s.evaluate text).play input)
    | .ok names =>
      let unbound := names.filter fun name => !s.bindings.binds name
      (∃ values : List Float,
        (List.range unbound.length).map (valueAfter · input) = values.map some ∧
          Conducted input unbound
            (ReversePolish.evaluate text (s.bindings.bindAll (unbound.zip values)))
            ((s.evaluate text).play input)) ∨
      ∃ n name, unbound[n]? = some name ∧ (∀ m < n, (valueAfter m input).isSome) ∧
        valueAfter n input = none ∧
          Conducted input (unbound.take (n + 1)) (.error (.invalidValue name (typedAfter n input)))
            ((s.evaluate text).play input) := by
  have hfollows := follows_evaluate ⟨rfl, hs.sound⟩ text input
  cases hnames : freeVariables text with
  | error e =>
    simp only [interview, hnames] at hfollows
    exact hfollows.conducted .nil rfl rfl rfl
  | ok names =>
    simp only [interview, hnames] at hfollows
    have hascending := pairwise_of_freeVariables hnames
    have hnodup : names.Nodup := hascending.imp fun h => ne_of_lt h
    have hunbound := hascending.filter fun name => !s.bindings.binds name
    cases asked_askValues hnodup s.bindings input with
    | complete values read exchange rest value =>
      refine .inl ⟨values, read, hfollows.conducted hunbound exchange rest ?_⟩
      simp [value, settle]
    | stopped n name here before failed exchange rest value =>
      have hlt := (List.getElem?_eq_some_iff.mp here).1
      have hlen := List.length_take_of_le hlt
      -- a malformed line would have been heard, since it is the answer to the last question
      have hheard : (readLine (afterLines n input)).1 ≠ .malformed := by
        intro hm
        have hmem := heard_mem_questions (hlen ▸ Nat.lt_succ_self n) input
        rw [hm, ← exchange] at hmem
        exact hread (hfollows.mem_transcript hmem)
      refine .inr ⟨n, name, here, before, failed,
        hfollows.conducted hunbound.take exchange (hlen ▸ rest) ?_⟩
      simp [value, hheard, settle]

/-- One value is typed, then the input ends. -/
theorem conducted_evaluate_end_of_input :
    let s : Session := ⟨.ofList [("b", 1)], (Calculator.ofSize 1).after [.compile "b"]⟩
    let p := (s.evaluate "c*a-b").play [52, 10]
    s.calculator.Reachable ∧ .heard .malformed ∉ p.transcript ∧
      Conducted [52, 10] ["a", "c"] (.error (.invalidValue "c" "")) p := by
  intro s p
  have hs : s.calculator.Reachable := ⟨1, [.compile "b"], rfl⟩
  have hread : .heard .malformed ∉ p.transcript := by decide +kernel
  have hnames : freeVariables "c*a-b" = .ok ["a", "b", "c"] := by decide +kernel
  have hunbound : (["a", "b", "c"].filter fun name => !s.bindings.binds name) = ["a", "c"] := by
    decide
  have hfirst : (valueAfter 0 [52, 10]).isSome = true := by decide +kernel
  have hsecond : valueAfter 1 [52, 10] = none := by decide +kernel
  have hconducted := conducted_evaluate hs "c*a-b" [52, 10] hread
  simp only [hnames, hunbound] at hconducted
  refine ⟨hs, hread, ?_⟩
  rcases hconducted with ⟨values, hvalues, -⟩ | ⟨n, name, hname, -, hfailed, hc⟩
  · have hmem : none ∈ values.map some := by
      rw [← hvalues]
      exact List.mem_map.mpr ⟨1, by decide, hsecond⟩
    simp at hmem
  · match n, hname with
    | 0, _ => simp [hfailed] at hfirst
    | 1, hname =>
      cases hname
      exact hc

end ReversePolish.Session
