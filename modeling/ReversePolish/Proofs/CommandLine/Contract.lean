import Mathlib.Data.List.Perm.Basic
import ReversePolish.Proofs.CommandLine.Bindings
import ReversePolish.Proofs.Session.Turns

/-! # What the program promises when it evaluates
The code with which the program ends and the last line that it writes tell what became of an
expression. Only a line that cannot be read is reported elsewhere, and only such a line makes a
whole session fail. -/
namespace ReversePolish.CommandLine
open Text Session

section
variable {s : Session} {bindings : Bindings} {text : String} {input : List UInt8}
  {asked : List String} {outcome : Except InputError (Except Error Float)}

theorem run_evaluate (hs : s.Keeps bindings) (h : ComesOut bindings text input asked outcome) :
    (Plan.evaluate s text).run input = Exit.after asked outcome := by
  have hfollows := follows_evaluate hs text input
  have hinterviewed := h.interviewed
  have houtput : ((s.evaluate text).play input).output =
      String.join (asked.map question) ++
        String.join ((closing outcome).map Utterance.output) := by
    rw [Played.output_eq_exchange, hfollows.exchange, hinterviewed.exchange, hinterviewed.value,
      List.map_append, String.join_append, join_output_questions]
  have hanswer : ((s.evaluate text).play input).value.answer = outcome.map Except.toOption :=
    hinterviewed.value ▸ hfollows.answer
  simp only [Plan.run, hanswer, houtput]
  cases outcome with
  | error e =>
    cases e
    simp [Exit.after, closing, concludeExpression, conclude, failure, InputError.message,
      Except.map]
  | ok result =>
    cases result with
    | error e | ok value =>
      simp [Exit.after, closing, concludeExpression, conclude, Except.map, Utterance.output,
        Except.toOption]

/-- One line is read for each value that is asked for. -/
theorem reads_evaluate (hs : s.Keeps bindings) (h : ComesOut bindings text input asked outcome) :
    Reads asked.length input ((s.evaluate text).play input) := by
  have hfollows := follows_evaluate hs text input
  have hinterviewed := h.interviewed
  refine ⟨?_, hfollows.rest.trans hinterviewed.rest⟩
  rw [hfollows.replies, Played.replies_eq_exchange, hinterviewed.exchange, replies_questions]

/-- The program succeeds if all answers are numerals and the expression has a value then. -/
theorem code_run_evaluate (hs : s.Keeps bindings) (text : String) (input : List UInt8) :
    ((Plan.evaluate s text).run input).code = 0 ↔
      ∃ names values v, freeVariables text = .ok names ∧
        let unbound := names.filter fun name => !bindings.binds name
        (List.range unbound.length).map (valueAfter · input) = values.map some ∧
          ReversePolish.evaluate text (bindings.bindAll (unbound.zip values)) = .ok v := by
  constructor
  · intro hcode
    obtain ⟨asked, outcome, h⟩ := exists_comesOut bindings text input
    rw [run_evaluate hs h] at hcode
    cases h with
    | unscanned scan => simp [Exit.after] at hcode
    | computed scan free read =>
      subst free
      cases hvalue : ReversePolish.evaluate text (bindings.bindAll _) with
      | ok v => exact ⟨_, _, v, scan, read, hvalue⟩
      | error e => simp [hvalue, Exit.after] at hcode
    | refused scan free here before failed readable => simp [Exit.after] at hcode
    | unreadable scan free here before malformed => simp [Exit.after] at hcode
  · rintro ⟨names, values, v, hnames, hread, hvalue⟩
    have h := ComesOut.computed hnames rfl hread
    rw [run_evaluate hs h, hvalue]
    rfl

theorem code_run_converse (s : Session) (input : List UInt8) :
    ((Plan.converse s).run input).code = 0 ↔
      ∀ line ∈ lines input, ByteArray.IsValidUTF8 ⟨line.toArray⟩ := by
  rw [← answer_run_eq_ok s input]
  simp only [Plan.run]
  cases (s.run input).value.answer with
  | ok value => simp [concludeSession, conclude]
  | error e => simp [concludeSession, conclude, failure]

/-- Without a question the input stays as it is. -/
theorem comesOut_of_bound {names : List String} (hnames : freeVariables text = .ok names)
    (hbound : ∀ name ∈ names, bindings.binds name = true) (input : List UInt8) :
    ComesOut bindings text input [] (.ok (ReversePolish.evaluate text bindings)) := by
  have hfree : names.filter (fun name => !bindings.binds name) = [] :=
    List.filter_eq_nil_iff.mpr fun name hname => by simp [hbound name hname]
  have hread : (List.range 0).map (valueAfter · input) = ([] : List Float).map some := rfl
  exact .computed hnames hfree hread

theorem stdout_after_nil (outcome : Except Error Float) :
    (Exit.after [] (.ok outcome)).stdout = outcomeLine outcome := by
  cases outcome <;> simp [Exit.after]

/-! ## Bindings that agree -/

variable {t : Session} {bindings' : Bindings}

theorem run_evaluate_congr (hb : bindings.Agrees bindings') (hs : s.Keeps bindings)
    (ht : t.Keeps bindings') (text : String) (input : List UInt8) :
    (Plan.evaluate s text).run input = (Plan.evaluate t text).run input := by
  have halike := alike_evaluate hb hs ht text input
  simp only [Plan.run, halike.answer, halike.output]

theorem run_converse_congr (hb : bindings.Agrees bindings') (hs : s.Keeps bindings)
    (ht : t.Keeps bindings') (input : List UInt8) :
    (Plan.converse s).run input = (Plan.converse t).run input := by
  have halike := alike_run hb hs ht input
  simp only [Plan.run, halike.answer, halike.output]

end

/-- What the program promises when it is to evaluate. Of the values given for a name the last one
counts, and the order of different names makes no difference. The program asks for the other
values, ends with the code that belongs to what becomes of the expression, and succeeds if there is
a value; if all values are given it reads nothing. A session succeeds if all lines of its input can
be read. -/
theorem run_plan_of_bindings {args : List String} {pairs : List (String × Float)}
    (hargs : args.Forall₂ (fun arg pair => readBinding arg = .ok pair) pairs)
    (size : Option Nat) :
    let options (vars : List (String × Float)) (expression : Option String) : Options :=
      { expression, vars, cacheSize := size }
    let exit (expression : Option String) (input : List UInt8) : Exit :=
      (options pairs expression).plan.run input
    let s : Session := (options pairs none).session
    -- the bindings in force
    (args.Forall₂ (fun arg pair => Gives arg pair.1 pair.2) pairs ∧
      ∀ name value, s.bindings.find? name = some value ↔
        ∃ before after, pairs = before ++ (name, value) :: after ∧ name ∉ after.map Prod.fst) ∧
    (∀ args', args.Perm args' → (pairs.map Prod.fst).Nodup →
      ∃ pairs', args'.Forall₂ (fun arg pair => readBinding arg = .ok pair) pairs' ∧
        ∀ expression input, (options pairs' expression).plan.run input = exit expression input) ∧
    -- one expression
    (∀ text input, ∃ asked outcome, ComesOut s.bindings text input asked outcome) ∧
    (∀ text input asked outcome, ComesOut s.bindings text input asked outcome →
      exit (some text) input = Exit.after asked outcome ∧
        ((s.evaluate text).play input).replies = firstReplies asked.length input ∧
        ((s.evaluate text).play input).rest = afterLines asked.length input) ∧
    (∀ text input, (exit (some text) input).code = 0 ↔
      ∃ names values v, freeVariables text = .ok names ∧
        let unbound := names.filter fun name => !s.bindings.binds name
        (List.range unbound.length).map (valueAfter · input) = values.map some ∧
          ReversePolish.evaluate text (s.bindings.bindAll (unbound.zip values)) = .ok v) ∧
    (∀ text names, freeVariables text = .ok names →
      (∀ name ∈ names, s.bindings.binds name = true) → ∀ input,
        (exit (some text) input).stdout =
            outcomeLine (ReversePolish.evaluate text s.bindings) ∧
          ((s.evaluate text).play input).replies = [] ∧
          ((s.evaluate text).play input).rest = input) ∧
    -- a session
    ∀ input, (exit none input).code = 0 ↔
      ∀ line ∈ lines input, ByteArray.IsValidUTF8 ⟨line.toArray⟩ := by
  intro options exit s
  have hs : s.Keeps s.bindings := keeps_ofSize _ _
  refine ⟨⟨?_, fun name value => Bindings.find?_ofList_eq_some⟩, ?_,
    exists_comesOut s.bindings, ?_, ?_, ?_, ?_⟩
  · exact hargs.imp fun arg pair hread => readBinding_eq_ok.mp hread
  · intro args' hargs' hdistinct
    obtain ⟨pairs', hpairs', hperm⟩ := List.perm_comp_forall₂ hargs'.symm hargs
    have hagrees : (Bindings.ofList pairs').Agrees (.ofList pairs) := fun name =>
      (Bindings.agrees_of_perm hperm.symm hdistinct name).symm
    have hs' : (options pairs' none).session.Keeps (.ofList pairs') := keeps_ofSize _ _
    refine ⟨pairs', hpairs', fun expression input => ?_⟩
    cases expression with
    | none => exact run_converse_congr hagrees hs' hs input
    | some text => exact run_evaluate_congr hagrees hs' hs text input
  · intro text input asked outcome h
    have hreads := reads_evaluate hs h
    exact ⟨run_evaluate hs h, hreads.replies, hreads.rest⟩
  · exact code_run_evaluate hs
  · intro text names hnames hbound input
    have h := comesOut_of_bound hnames hbound input
    have hexit : exit (some text) input =
        Exit.after [] (.ok (ReversePolish.evaluate text s.bindings)) := run_evaluate hs h
    have hreads := reads_evaluate hs h
    exact ⟨hexit ▸ stdout_after_nil _, hreads.replies, hreads.rest⟩
  · exact code_run_converse s

/-- The name `x` is given twice, and the last line of the input is not UTF-8. -/
theorem run_plan_of_repeated_bindings :
    let args := ["x=1", " y = 2 ", "x=3"]
    let pairs : List (String × Float) :=
      [("x", Decimal.toFloat ⟨1, 0⟩), ("y", Decimal.toFloat ⟨2, 0⟩), ("x", Decimal.toFloat ⟨3, 0⟩)]
    let options (expression : Option String) : Options :=
      { expression, vars := pairs, cacheSize := some 0 }
    args.Forall₂ (fun arg pair => readBinding arg = .ok pair) pairs ∧
      (Bindings.ofList pairs).find? "x" = some (Decimal.toFloat ⟨3, 0⟩) ∧
      ((options (some "x-y")).plan.run [255]).stdout =
        outcomeLine (ReversePolish.evaluate "x-y" (.ofList pairs)) ∧
      ((options none).plan.run [120, 10, 255]).code ≠ 0 := by
  intro args pairs options
  have hargs : args.Forall₂ (fun arg pair => readBinding arg = .ok pair) pairs :=
    .cons rfl (.cons rfl (.cons rfl .nil))
  obtain ⟨⟨-, hlast⟩, -, -, -, -, hbound, hlines⟩ := run_plan_of_bindings hargs (some 0)
  have hnames : freeVariables "x-y" = .ok ["x", "y"] := by decide +kernel
  refine ⟨hargs, (hlast "x" _).mpr ⟨pairs.take 2, [], rfl, by simp⟩,
    (hbound "x-y" _ hnames (by decide) [255]).1, ?_⟩
  rw [ne_eq, hlines]
  intro hvalid
  have hline := hvalid [255] (by simp [lines])
  exact decodeLine_eq_malformed.mp (by decide +kernel) hline

end ReversePolish.CommandLine
