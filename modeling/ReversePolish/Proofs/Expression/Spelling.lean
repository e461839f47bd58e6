import ReversePolish.Expression
import ReversePolish.Infix.Spelling
import ReversePolish.Proofs.Conversion.Grammar
import ReversePolish.Proofs.Evaluation.Postorder
import ReversePolish.Proofs.Scanning.Scans

/-! # From a spelling to its value
Characters that spell a tree are scanned as tokens that denote the tree, and from there conversion
and evaluation lead to its value. Every operator, parenthesis and comma of a spelling is a
delimiter, so the parts of a spelling are scanned one by one. -/
namespace ReversePolish
open Token

mutual

theorem exists_denotes_of_spells {n : Nat} {cs : List Char} {t : Tree} :
    Spells n cs t → ∃ ts, Scans cs ts ∧ Denotes n ts t
  | .number h => ⟨_, scans_number h, .number _⟩
  | .var first rest => ⟨_, scans_name first rest, .var _⟩
  | .call f blank h => by
    obtain ⟨ts, hs, hd⟩ := exists_denoteArguments_of_spells h
    exact ⟨_, hs.parens ((scans_builtin f).append_blank blank), .call f hd⟩
  | .parens h => by
    obtain ⟨ts, hs, hd⟩ := exists_denotes_of_spells h
    exact ⟨_, hs.parens scans_nil, .parens hd⟩
  | .spaced blank h blank' => by
    obtain ⟨ts, hs, hd⟩ := exists_denotes_of_spells h
    exact ⟨ts, (hs.blank_append blank).append_blank blank', hd⟩
  | .tighter h => by
    obtain ⟨ts, hs, hd⟩ := exists_denotes_of_spells h
    exact ⟨ts, hs, .tighter hd⟩
  | .left level written hl hr => by
    obtain ⟨ts, hs, hd⟩ := exists_denotes_of_spells hl
    obtain ⟨us, hs', hd'⟩ := exists_denotes_of_spells hr
    exact ⟨_, hs.append_single (.operator written) hs', .left level hd hd'⟩
  | .right level written hl hr => by
    obtain ⟨ts, hs, hd⟩ := exists_denotes_of_spells hl
    obtain ⟨us, hs', hd'⟩ := exists_denotes_of_spells hr
    exact ⟨_, hs.append_single (.operator written) hs', .right level hd hd'⟩

theorem exists_denoteArguments_of_spells {cs : List Char} {args : List Tree} :
    SpellsArguments cs args → ∃ ts, Scans cs ts ∧ DenoteArguments ts args
  | .none blank => ⟨[], by simpa using scans_nil.blank_append blank, .none⟩
  | .one h => by
    obtain ⟨ts, hs, hd⟩ := exists_denotes_of_spells h
    exact ⟨ts, hs, .one hd⟩
  | .more h hargs => by
    obtain ⟨ts, hs, hd⟩ := exists_denotes_of_spells h
    obtain ⟨us, hs', hd'⟩ := exists_denoteArguments_of_spells hargs
    exact ⟨_, hs.append_single .comma hs', .more hd hd'⟩

end

/-- A text that spells a well-formed tree has the value of the tree. -/
theorem evaluate_of_spells {text : String} {t : Tree} {vars : Bindings}
    (h : Spells Level.expression text.toList t) (ht : t.WellFormed)
    (hv : ∀ x ∈ t.vars, vars.binds x = true)
    (hf : ∀ f ∈ t.functions, vars.binds f.name = false) :
    ∃ v, t.value vars = some v ∧ evaluate text vars = .ok v := by
  obtain ⟨v, hval⟩ := t.exists_value ht.2 hv hf
  obtain ⟨ts, hs, hd⟩ := exists_denotes_of_spells h
  have hrpn := Rpn.ofTokens_of_namesSealed hd (Rpn.namesSealed_of_denotes hd ht.1).1
  exact ⟨v, hval, evaluate_eq_ok.mpr ⟨ts, _, hs 0, hrpn, Tree.evaluate_postorder hval⟩⟩

theorem evaluate_of_spells_blank_and_parens :
    ∃ t : Tree, Spells Level.expression " 2.5 ^x - max (y,( 1 ))".toList t ∧ t.WellFormed ∧
      (∀ x ∈ t.vars, Bindings.binds (.ofList [("x", 2), ("y", 3)]) x = true) ∧
      (∀ f ∈ t.functions, Bindings.binds (.ofList [("x", 2), ("y", 3)]) f.name = false) ∧
      ∃ v, t.value (.ofList [("x", 2), ("y", 3)]) = some v ∧
        evaluate " 2.5 ^x - max (y,( 1 ))" (.ofList [("x", 2), ("y", 3)]) = .ok v := by
  have blank : Division.IsBlank [' '] := by decide
  have none : Division.IsBlank [] := by decide
  have hbase := Spells.number (show Numeral.IsPlain ['2', '.', '5'] by decide)
  have hexp : Spells Level.primary ['x'] (.var "x") := .var (by decide +kernel) (by simp)
  have hpower := Spells.right .power .power (.spaced none hbase blank) (.tighter hexp)
  have hy : Spells Level.primary ['y'] (.var "y") := .var (by decide +kernel) (by simp)
  have hone := Spells.number (show Numeral.IsPlain ['1'] by decide)
  have hparens := Spells.parens (.tighter (.tighter (.tighter (.spaced blank hone blank))))
  have hcall := Spells.call .max blank (.more (.tighter (.tighter (.tighter hy)))
    (.one (.tighter (.tighter (.tighter hparens)))))
  have hleft := Spells.spaced blank (.tighter (.tighter hpower)) blank
  have ht := Spells.left .subtract .subtract hleft
    (.tighter (.tighter (.spaced blank hcall none)))
  refine ⟨_, ht, ?tree, ?vars, ?functions, evaluate_of_spells ht ?tree ?vars ?functions⟩
  case tree => exact ⟨by decide, ⟨⟨trivial, trivial⟩, rfl, trivial, trivial, trivial⟩⟩
  case vars => decide
  case functions => decide

end ReversePolish
