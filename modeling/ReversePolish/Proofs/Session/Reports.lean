import ReversePolish.Proofs.Expression.Identifiers
import ReversePolish.Proofs.Session.Evaluation

/-! # What a session reports
A session reports the cause of a failure once, and it is the one that the interview has found. Since
all variables are asked for before an expression is evaluated, none of them is ever unbound then. -/
namespace ReversePolish

theorem Played.events_after {α : Type} (us : List Utterance) (p : Played α) :
    (p.after us).events = us.filterMap Utterance.event? ++ p.events :=
  List.filterMap_append

theorem Dialogue.events_noteAll {α : Type} (events : List Event) (d : Dialogue α)
    (input : List UInt8) :
    ((noteAll events d).play input).events = events ++ (d.play input).events := by
  rw [play_noteAll, Played.events_after, List.filterMap_map]
  exact congrArg (· ++ _) List.filterMap_some

theorem Calculator.failed_not_mem_evaluate (c : Calculator) (text other : String)
    (vars : Bindings) (e : Error) : .failed other e ∉ (c.evaluate text vars).events := by
  have hcompile : .failed other e ∉ (c.compile text).events := by
    unfold Calculator.compile
    cases c.cache.find? text with
    | some rpn => simp
    | none => cases parse text <;> simp
  exact hcompile

namespace Session

variable {s : Session} {vars vars' : Bindings} {names : List String} {input : List UInt8}

theorem failed_not_mem_askValues (vars : Bindings) (names : List String) (input : List UInt8)
    (text : String) (e : Error) :
    .failed text e ∉ ((askValues vars names).play input).events := by
  induction names generalizing vars input with
  | nil => exact List.not_mem_nil
  | cons name names ih =>
    cases hb : vars.binds name with
    | true =>
      rw [askValues_of_binds hb]
      exact ih vars input
    | false =>
      cases hv : valueAfter 0 input with
      | none =>
        rw [play_askValues_of_none hb hv]
        simp [Played.events, Utterance.event?]
      | some v =>
        rw [play_askValues_of_some hb hv, Played.events_after]
        simpa [Utterance.event?] using ih (vars.bind name v) (Text.afterLine input)

theorem failed_mem_conclude {text other : String} {outcome : Except Error Float} {e : Error} :
    .failed other e ∈ ((s.conclude text outcome).play input).events ↔
      other = text ∧ outcome = .error e := by
  cases outcome with
  | ok value => simp [conclude, Dialogue.play, Played.after, Played.events, Utterance.event?]
  | error e' =>
    simp [conclude, Dialogue.play, Played.after, Played.events, Utterance.event?, eq_comm]

/-- A failure is reported exactly if the interview has found it. -/
theorem failed_mem_evaluate (hs : s.calculator.Sound) {text other : String} {e : Error} :
    .failed other e ∈ ((s.evaluate text).play input).events ↔
      other = text ∧ (interview s.bindings text input).value = .ok (.error e) := by
  cases hnames : freeVariables text with
  | error e' =>
    simp only [Session.evaluate, interview, hnames, failed_mem_conclude, Except.ok.injEq]
  | ok names =>
    obtain ⟨value, transcript, rest, hq⟩ : ∃ value transcript rest,
        (askValues s.bindings names).play input = ⟨value, transcript, rest⟩ := ⟨_, _, _, rfl⟩
    have hasked : .failed other e ∉ transcript.filterMap Utterance.event? := by
      have := failed_not_mem_askValues s.bindings names input other e
      rwa [hq] at this
    simp only [Session.evaluate, interview, hnames, Dialogue.play_bind, hq, Played.events_after,
      List.mem_append, or_iff_right hasked]
    cases value with
    | malformed => simp [settle, pure, Dialogue.play, Played.events]
    | invalid name typed => simp only [settle, failed_mem_conclude, Except.ok.injEq]
    | complete vars =>
      have hvalue := hs.answer_evaluate text vars
      have hcalculator := s.calculator.failed_not_mem_evaluate text other vars e
      simp only [settle, Dialogue.events_noteAll, List.mem_append, or_iff_right hcalculator,
        failed_mem_conclude, hvalue, Except.ok.injEq]

/-- When all questions have been answered, every name is bound. -/
theorem binds_of_play_askValues
    (h : ((askValues vars names).play input).value = .complete vars') :
    (∀ x, vars.binds x = true → vars'.binds x = true) ∧ ∀ x ∈ names, vars'.binds x = true := by
  induction names generalizing vars input with
  | nil =>
    cases h
    exact ⟨fun _ hx => hx, by simp⟩
  | cons name names ih =>
    cases hb : vars.binds name with
    | true =>
      rw [askValues_of_binds hb] at h
      obtain ⟨hold, hnew⟩ := ih h
      exact ⟨hold, List.forall_mem_cons.mpr ⟨hold name hb, hnew⟩⟩
    | false =>
      cases hv : valueAfter 0 input with
      | none =>
        rw [play_askValues_of_none hb hv] at h
        split at h <;> contradiction
      | some v =>
        rw [play_askValues_of_some hb hv, Played.after_value] at h
        obtain ⟨hold, hnew⟩ := ih h
        have hbind : ∀ x, x = name ∨ vars.binds x = true → vars'.binds x = true := by
          intro x hx
          refine hold x ?_
          simp only [Bindings.binds, Bindings.find?_bind] at hx ⊢
          split
          · rfl
          · exact hx.resolve_left ‹_›
        exact ⟨fun x hx => hbind x (.inr hx),
          List.forall_mem_cons.mpr ⟨hbind name (.inl rfl), hnew⟩⟩

end Session

/-- The free variables of an expression are what its evaluation needs: they are bound whenever there
is a value, and an unbound identifier is one of them. In a session they have been asked for, so that
no identifier is unbound. Bindings that agree on the identifiers of the expression give the same
outcome. -/
theorem evaluate_reads_freeVariables {text : String} {ts : List Token}
    (hts : tokenize text = .ok ts) :
    ∃ names, freeVariables text = .ok names ∧
      (∀ vars v, evaluate text vars = .ok v → ∀ x ∈ names, vars.binds x = true) ∧
      (∀ vars name, evaluate text vars = .error (.eval (.unboundIdentifier name)) →
        name ∈ names ∧ vars.binds name = false) ∧
      (∀ vars, (∀ x ∈ names, vars.binds x = true) →
        ∀ name, evaluate text vars ≠ .error (.eval (.unboundIdentifier name))) ∧
      (∀ vars t, evaluate text vars ≠ .error (.eval (.unexpectedToken t))) ∧
      (∀ vars vars', (∀ x, .identifier x ∈ ts → vars.find? x = vars'.find? x) →
        evaluate text vars = evaluate text vars') ∧
      ∀ (s : Session) (input : List UInt8) (name : String), s.calculator.Reachable →
        .failed text (.eval (.unboundIdentifier name)) ∉ ((s.evaluate text).play input).events := by
  have hnames : freeVariables text = .ok (variablesOf ts) := by
    rw [freeVariables, hts]
    rfl
  have hunbound : ∀ vars name, evaluate text vars = .error (.eval (.unboundIdentifier name)) →
      name ∈ variablesOf ts ∧ vars.binds name = false := fun vars name h =>
    mem_of_evaluateTokens_unbound (evaluate_eq_of_tokenize hts vars ▸ h)
  refine ⟨variablesOf ts, hnames, ?_, hunbound, ?_, ?_, ?_, ?_⟩
  · intro vars v h x hx
    exact binds_of_evaluateTokens (evaluate_eq_of_tokenize hts vars ▸ h) hx
  · intro vars hbound name h
    obtain ⟨hmem, hfree⟩ := hunbound vars name h
    simp [hbound name hmem] at hfree
  · intro vars t
    rw [evaluate_eq_of_tokenize hts]
    exact evaluateTokens_ne_unexpected t
  · intro vars vars' h
    rw [evaluate_eq_of_tokenize hts, evaluate_eq_of_tokenize hts, evaluateTokens_congr h]
  · intro s input name hs h
    have hvalue := ((Session.failed_mem_evaluate hs.sound).mp h).2
    simp only [Session.interview, hnames] at hvalue
    cases hq : ((Session.askValues s.bindings (variablesOf ts)).play input).value with
    | malformed => simp [hq, Session.settle] at hvalue
    | invalid other typed => simp [hq, Session.settle] at hvalue
    | complete vars =>
      simp only [hq, Session.settle, Except.ok.injEq] at hvalue
      obtain ⟨hmem, hfree⟩ := hunbound vars name hvalue
      simp [(Session.binds_of_play_askValues hq).2 name hmem] at hfree

/-- A function name is no free variable, and a name that does not occur makes no difference. -/
theorem evaluate_reads_two_variables :
    let text := "b*max(a,b)"
    let vars := Bindings.ofList [("a", 1)]
    let s : Session := ⟨{}, .ofSize 1⟩
    tokenize text = .ok [.identifier "b", .operator .multiply, .identifier "max", .leftParen,
        .identifier "a", .comma, .identifier "b", .rightParen] ∧
      freeVariables text = .ok ["a", "b"] ∧
      evaluate text vars = .error (.eval (.unboundIdentifier "b")) ∧
      vars.binds "b" = false ∧
      evaluate text (vars.bind "x" 2) = evaluate text vars ∧
      .failed text (.eval (.unboundIdentifier "a")) ∉
        ((s.evaluate text).play [52, 10, 53, 10]).events := by
  intro text vars s
  have hts : tokenize text = .ok [.identifier "b", .operator .multiply, .identifier "max",
      .leftParen, .identifier "a", .comma, .identifier "b", .rightParen] := by decide +kernel
  have herror : evaluate text vars = .error (.eval (.unboundIdentifier "b")) := by
    rw [evaluate_eq_of_tokenize hts]
    rfl
  obtain ⟨names, hnames, -, hunbound, -, -, hagree, hsession⟩ := evaluate_reads_freeVariables hts
  have hlist : freeVariables text = .ok ["a", "b"] := by decide +kernel
  refine ⟨hts, hlist, herror, (hunbound vars "b" herror).2, hagree _ _ fun x hx => ?_,
    hsession s _ "a" ⟨1, [], rfl⟩⟩
  have hne : x ≠ "x" := by
    rintro rfl
    exact absurd hx (by decide)
  simp [Bindings.find?_bind, hne]

end ReversePolish
