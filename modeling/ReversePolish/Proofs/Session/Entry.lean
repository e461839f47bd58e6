import ReversePolish.Proofs.Session.History
import ReversePolish.Text.Encoding

/-! # Two ways to enter an expression
An expression that is typed at the prompt is trimmed before it is evaluated, one that is handed over
is evaluated as it is. After the prompt both go the same way: the same is asked for and answered by
the same lines, and the outcome is the same. -/
namespace ReversePolish.Session
open Text Token

theorem alike_evaluate_trim {s : Session} {bindings : Bindings} (hs : s.Keeps bindings)
    (text : String) (input : List UInt8) :
    Alike bindings bindings ((s.evaluate (trim text)).play input)
      ((s.evaluate text).play input) :=
  (follows_evaluate hs (trim text) input).alike (follows_evaluate hs text input)
    (matches_interview_trim bindings text input)

/-- A turn over a line with an expression is the evaluation of the expression over the lines after
it, with the prompt and the line in front. White space at the ends of the line changes nothing. -/
theorem runOnce_of_typed_expression (bindings : Bindings) (size : Nat) {text : String}
    (hline : '\n' ∉ text.toList) (htext : ¬Division.IsBlank text.toList) (rest : List UInt8) :
    let s : Session := ⟨bindings, .ofSize size⟩
    let turn := s.runOnce.play (encode text ++ newline :: rest)
    let direct := (s.evaluate text).play rest
    let trimmed := (s.evaluate (trim text)).play rest
    turn.output = "Enter expression: " ++ direct.output ∧
      turn.exchange = [.said "Enter expression: ", .heard (.line text)] ++ direct.exchange ∧
      turn.rest = direct.rest ∧
      turn.value.answer = direct.value.answer.map (fun _ => true) ∧
      trimmed.exchange = direct.exchange ∧ trimmed.rest = direct.rest ∧
      trimmed.value.answer = direct.value.answer := by
  intro s turn direct trimmed
  have hread := readLine_encode hline rest
  have hafter : afterLine (encode text ++ newline :: rest) = rest := by rw [← readLine_snd, hread]
  have htrim : trim text ≠ "" := fun h => htext (trim_eq_empty_iff.mp h)
  have hturn : turn = (relabel (fun _ => true) trimmed).after
      [.said "Enter expression: ", .heard (.line text)] := by
    simp only [turn, play_runOnce_of_line (congrArg Prod.fst hread) htrim, hafter, trimmed]
  have halike : Alike bindings bindings trimmed direct :=
    alike_evaluate_trim (keeps_ofSize bindings size) text rest
  refine ⟨?_, ?_, ?_, ?_, halike.exchange, halike.rest, halike.answer⟩
  · rw [hturn, Played.output_after, ← halike.output]
    rfl
  · rw [hturn, Played.exchange_after, ← halike.exchange]
    rfl
  · rw [hturn, ← halike.rest]
    rfl
  · rw [hturn, ← halike.answer]
    rfl

/-- An em space before the expression and a carriage return after it; one of two lines is left. -/
theorem runOnce_of_typed_expression_between_blanks :
    let s : Session := ⟨.ofList [("b", 2)], .ofSize 1⟩
    let text := "\u2003a*b\r"
    let turn := s.runOnce.play (encode text ++ newline :: [51, 10, 55])
    let direct := (s.evaluate text).play [51, 10, 55]
    '\n' ∉ text.toList ∧ ¬Division.IsBlank text.toList ∧
      turn.output = "Enter expression: " ++ direct.output ∧ turn.rest = [55] ∧
      turn.value.answer = direct.value.answer.map fun _ => true := by
  intro s text turn direct
  have hline : '\n' ∉ text.toList := by decide
  have htext : ¬Division.IsBlank text.toList := by decide
  obtain ⟨houtput, -, hrest, hanswer, -⟩ :=
    runOnce_of_typed_expression (.ofList [("b", 2)]) 1 hline htext [51, 10, 55]
  have hleft : direct.rest = [55] := by decide +kernel
  exact ⟨hline, htext, houtput, hrest.trans hleft, hanswer⟩

end ReversePolish.Session
