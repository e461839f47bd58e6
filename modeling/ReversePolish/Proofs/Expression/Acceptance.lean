import ReversePolish.Proofs.Conversion.Grammar
import ReversePolish.Proofs.Conversion.Nesting
import ReversePolish.Proofs.Evaluation.Forest
import ReversePolish.Proofs.Evaluation.Postorder
import ReversePolish.Proofs.Expression.Spelling
import ReversePolish.Proofs.Infix.Surplus

/-! # What an accepted text says
A text that has a value need not be an infix expression, since an operand too many may stand in for
one that is missing. Nothing else can go unnoticed. -/
namespace ReversePolish
open Token

variable {text : String} {vars : Bindings} {v : Float} {ts : List Token} {t : Tree}

/-- The value found is the value of every tree that the tokens denote. -/
theorem value_of_denotes {rpn : Rpn} (hrpn : Rpn.ofTokens ts = .ok rpn)
    (hv : rpn.evaluate vars = .ok v) (hf : ∀ f : Builtin, vars.binds f.name = false)
    (h : Denotes Level.expression ts t) (hw : t.WellFormed) :
    rpn = t.postorder ∧ t.value vars = some v := by
  have hpost := Rpn.ofTokens_of_namesSealed h (Rpn.namesSealed_of_denotes h hw.1).1
  obtain rfl : rpn = t.postorder := Except.ok.inj (hrpn.symm.trans hpost)
  obtain ⟨last, hrun, -⟩ := bind_eq_ok.mp hv
  have hbound : ∀ x ∈ t.vars, vars.binds x = true := fun x hx =>
    Rpn.binds_of_run hrun (t.mem_postorder_of_mem_vars hx) (hw.1 x hx)
  obtain ⟨w, hval⟩ := t.exists_value hw.2 hbound fun f _ => hf f
  obtain rfl : v = w := Except.ok.inj (hv.symm.trans (Tree.evaluate_postorder hval))
  exact ⟨rfl, hval⟩

/-- A value that a text is found to have is the value of a well-formed tree, which the text denotes
unless operands or commas are too many; and if the text denotes any tree, they are not. -/
theorem exists_tree_of_evaluate_eq_ok (hf : ∀ f : Builtin, vars.binds f.name = false)
    (h : evaluate text vars = .ok v) :
    ∃ ts t, tokenize text = .ok ts ∧ Rpn.ofTokens ts = .ok (Tree.postorder t) ∧ t.WellFormed ∧
      t.value vars = some v ∧ (NoSurplus ts → Denotes Level.expression ts t) ∧
      ∀ u : Tree, Denotes Level.expression ts u → u.WellFormed →
        NoSurplus ts ∧ u.value vars = some v := by
  obtain ⟨ts, rpn, hts, hrpn, hv⟩ := evaluate_eq_ok.mp h
  have hnest : Rpn.nestingFault? 0 ts = none := by
    rw [Rpn.nestingFault?_eq_fault?, hrpn, fault?_ok]
  have hb : balance ts = 1 := by
    rw [← Rpn.balance_of_ofTokens hrpn, Rpn.balance_of_evaluate hf hv]
  have hiff := exists_denotes_iff_noSurplus hnest hb
  have hall : ∀ u : Tree, Denotes Level.expression ts u → u.WellFormed →
      NoSurplus ts ∧ u.value vars = some v := fun u hd hw =>
    ⟨hiff.mp ⟨u, hd, hw⟩, (value_of_denotes hrpn hv hf hd hw).2⟩
  by_cases hs : NoSurplus ts
  · obtain ⟨t, hd, hw⟩ := hiff.mpr hs
    obtain ⟨rfl, hval⟩ := value_of_denotes hrpn hv hf hd hw
    exact ⟨ts, t, hts, hrpn, hw, hval, fun _ => hd, hall⟩
  · obtain ⟨t, rfl, hval⟩ := Rpn.exists_tree_of_evaluate hv
    exact ⟨ts, t, hts, hrpn, Tree.wellFormed_of_value hval hf, hval, fun h => absurd h hs, hall⟩

theorem exists_tree_of_evaluate_call :
    ∃ v, (∀ f : Builtin, Bindings.binds {} f.name = false) ∧
      evaluate "max(1,2)^3" {} = .ok v ∧
      ∃ ts t, tokenize "max(1,2)^3" = .ok ts ∧ Rpn.ofTokens ts = .ok (Tree.postorder t) ∧
        t.WellFormed ∧ t.value {} = some v ∧ (NoSurplus ts → Denotes Level.expression ts t) ∧
        ∀ u : Tree, Denotes Level.expression ts u → u.WellFormed →
          NoSurplus ts ∧ u.value {} = some v := by
  have hf : ∀ f : Builtin, Bindings.binds {} f.name = false := fun f => rfl
  have hone := scans_number (show Numeral.IsPlain ['1'] by decide)
  have htwo := scans_number (show Numeral.IsPlain ['2'] by decide)
  have hthree := scans_number (show Numeral.IsPlain ['3'] by decide)
  have hargs := hone.append_single .comma htwo
  have hcall := hargs.parens (scans_builtin .max)
  have hscan := hcall.append_single (.operator .power) hthree
  obtain ⟨v, hv⟩ : ∃ v, evaluate "max(1,2)^3" {} = .ok v :=
    ⟨_, evaluate_eq_ok.mpr ⟨_, _, hscan 0, rfl, rfl⟩⟩
  exact ⟨v, hf, hv, exists_tree_of_evaluate_eq_ok hf hv⟩

/-- Both texts are accepted and no infix expressions: one operand too many makes up for a right
operand or an argument that is missing. -/
theorem accepts_surplus_operands :
    (∀ f : Builtin, Bindings.binds {} f.name = false) ∧
      ((∃ v, evaluate "2 3 +" {} = .ok v) ∧
        ¬ ∃ ts t, tokenize "2 3 +" = .ok ts ∧ Denotes Level.expression ts t ∧ t.WellFormed) ∧
      (∃ v, evaluate "max(1,max(2),3)" {} = .ok v) ∧
        ¬ ∃ ts t, tokenize "max(1,max(2),3)" = .ok ts ∧ Denotes Level.expression ts t ∧
          t.WellFormed := by
  have hone := scans_number (show Numeral.IsPlain ['1'] by decide)
  have htwo := scans_number (show Numeral.IsPlain ['2'] by decide)
  have hthree := scans_number (show Numeral.IsPlain ['3'] by decide)
  have hblank : Text.isWhiteSpace ' ' = true := by decide
  have hplus := scans_nil.append_single (.operator .add) scans_nil
  have hsum := htwo.append_space hblank (hthree.append_space hblank hplus)
  have hinner := htwo.parens (scans_builtin .max)
  have hcall := (hone.append_single .comma (hinner.append_single .comma hthree)).parens
    (scans_builtin .max)
  refine ⟨fun f => rfl, ⟨⟨_, evaluate_eq_ok.mpr ⟨_, _, hsum 0, rfl, rfl⟩⟩, ?_⟩,
    ⟨_, evaluate_eq_ok.mpr ⟨_, _, hcall 0, rfl, rfl⟩⟩, ?_⟩
  · rintro ⟨ts, t, hts, hd, hw⟩
    obtain rfl := Except.ok.inj ((hsum 0).symm.trans hts)
    have hsep := (noSurplus_of_denotes hd hw).1.admits _ rfl
    contradiction
  · rintro ⟨ts, t, hts, hd, hw⟩
    obtain rfl := Except.ok.inj ((hcall 0).symm.trans hts)
    have hfit := (noSurplus_of_denotes hd hw).2
    contradiction

end ReversePolish
