import ReversePolish.Proofs.Expression.Spelling

/-! # Bound names win over functions
An expression whose variables have the names of functions has the value of its tree, and other names
for the variables do not change it, as long as no operator directly follows such a name. A name that
stands in parentheses of its own is always safe. -/
namespace ReversePolish
open Token

variable {text : String} {t : Tree} {vars : Bindings}

/-- A function name spells a variable. -/
theorem spells_builtin_name (f : Builtin) :
    Spells Level.primary f.name.toList (.var f.name) := by
  obtain ⟨c, cs, he, hc, hcs⟩ := exists_builtin_name f
  rw [he, String.toList_ofList]
  exact .var hc hcs

theorem spells_letter {c : Char} (h : c.isAlpha = true) :
    Spells Level.primary [c] (.var (.ofList [c])) := by
  exact .var (.inl (Text.isAlphabetic_of_isAlpha h)) (by simp)

theorem evaluate_of_spells_value {v : Float} (h : Spells Level.expression text.toList t)
    (hnames : ∀ ts, tokenize text = .ok ts → NamesSealed ts) (hv : t.value vars = some v) :
    evaluate text vars = .ok v := by
  obtain ⟨ts, hs, hd⟩ := exists_denotes_of_spells h
  have hts : tokenize text = .ok ts := hs 0
  have hrpn := Rpn.ofTokens_of_namesSealed hd (hnames ts hts)
  exact evaluate_eq_ok.mpr ⟨ts, _, hts, hrpn, Tree.evaluate_postorder hv⟩

/-- Bound to the same values, variables may have any names, those of functions included. -/
theorem evaluate_of_spells_names (h : Spells Level.expression text.toList t)
    (hnames : ∀ ts, tokenize text = .ok ts → NamesSealed ts) (ht : t.Saturated)
    (hv : ∀ x ∈ t.vars, vars.binds x = true)
    (hf : ∀ f ∈ t.functions, vars.binds f.name = false) :
    ∃ v, t.value vars = some v ∧ evaluate text vars = .ok v ∧
      ∀ (names : String → String) (text' : String) (vars' : Bindings),
        Spells Level.expression text'.toList (t.rename names) →
          (∀ ts, tokenize text' = .ok ts → NamesSealed ts) →
            (∀ x ∈ t.vars, vars'.find? (names x) = vars.find? x) →
              (∀ f ∈ t.functions, vars'.binds f.name = false) → evaluate text' vars' = .ok v := by
  obtain ⟨v, hval⟩ := t.exists_value ht hv hf
  refine ⟨v, hval, evaluate_of_spells_value h hnames hval, ?_⟩
  intro names text' vars' h' hnames' hv' hf'
  have hrename : (t.rename names).value vars' = t.value vars :=
    t.value_rename hv' fun f hmem => (hf' f hmem).trans (hf f hmem).symm
  exact evaluate_of_spells_value h' hnames' (hrename.trans hval)

/-- One of the names stands in parentheses, the other one at the end. -/
theorem evaluate_of_spells_names_sealed :
    let text := "(max)*x-min"
    let t : Tree := .operation .subtract (.operation .multiply (.var "max") (.var "x")) (.var "min")
    let vars := Bindings.ofList [("max", 10), ("x", 2), ("min", 3)]
    let vars' := Bindings.ofList [("y", 10), ("x", 2), ("sin", 3)]
    Spells Level.expression text.toList t ∧ (∀ ts, tokenize text = .ok ts → NamesSealed ts) ∧
      t.Saturated ∧ (∀ x ∈ t.vars, vars.binds x = true) ∧
      (∀ f ∈ t.functions, vars.binds f.name = false) ∧
      ∃ v, t.value vars = some v ∧ evaluate text vars = .ok v ∧
        evaluate "y*x-(sin)" vars' = .ok v := by
  intro text t vars vars'
  have hx := spells_letter (c := 'x') rfl
  have hy := spells_letter (c := 'y') rfl
  have hmax := spells_builtin_name .max
  have hmin := spells_builtin_name .min
  have hsin := spells_builtin_name .sin
  have hsealed := Spells.parens (hmax.tighter.tighter.tighter)
  have ht : Spells Level.expression "(max)*x-min".toList t :=
    .left .subtract .subtract
      (.tighter (.left .multiply .multiply hsealed.tighter.tighter hx.tighter))
      hmin.tighter.tighter
  let names : String → String := fun z => if z = "max" then "y" else if z = "min" then "sin" else z
  have ht' : Spells Level.expression "y*x-(sin)".toList (t.rename names) :=
    .left .subtract .subtract
      (.tighter (.left .multiply .multiply hy.tighter.tighter hx.tighter))
      (Spells.parens hsin.tighter.tighter.tighter).tighter.tighter
  have hts : tokenize text = .ok [.leftParen, .identifier "max", .rightParen, .operator .multiply,
      .identifier "x", .operator .subtract, .identifier "min"] := by decide +kernel
  have hts' : tokenize "y*x-(sin)" = .ok [.identifier "y", .operator .multiply, .identifier "x",
      .operator .subtract, .leftParen, .identifier "sin", .rightParen] := by decide +kernel
  have hnames : ∀ ts, tokenize text = .ok ts → NamesSealed ts := by
    intro ts h
    obtain rfl := Except.ok.inj (hts.symm.trans h)
    decide
  have hnames' : ∀ ts, tokenize "y*x-(sin)" = .ok ts → NamesSealed ts := by
    intro ts h
    obtain rfl := Except.ok.inj (hts'.symm.trans h)
    decide
  have hsaturated : t.Saturated := ⟨⟨trivial, trivial⟩, trivial⟩
  have hvars : ∀ x ∈ t.vars, vars.binds x = true := by decide
  have hfunctions : ∀ f ∈ t.functions, vars.binds f.name = false := by decide
  obtain ⟨v, hval, hv, hrename⟩ := evaluate_of_spells_names ht hnames hsaturated hvars hfunctions
  have hvalue : evaluate "y*x-(sin)" vars' = .ok v :=
    hrename names _ vars' ht' hnames' (by decide) (by decide)
  exact ⟨ht, hnames, hsaturated, hvars, hfunctions, v, hval, hv, hvalue⟩

/-- The name is bound, but the operator that follows it overtakes it. With another name for the
variable there is a value. -/
theorem evaluate_name_before_operator :
    let t : Tree := .operation .multiply (.var "max") (.var "x")
    let vars := Bindings.ofList [("max", 10), ("x", 2)]
    Spells Level.expression "max*x".toList t ∧ t.functions = [] ∧
      (∀ x ∈ t.vars, vars.binds x = true) ∧
      evaluate "max*x" vars = .error (.eval .stackUnderflow) ∧
      Spells Level.expression "y*x".toList (t.rename fun z => if z = "max" then "y" else z) ∧
      ∃ v, t.value vars = some v ∧ evaluate "y*x" (.ofList [("y", 10), ("x", 2)]) = .ok v := by
  intro t vars
  have hx := spells_letter (c := 'x') rfl
  have hy := spells_letter (c := 'y') rfl
  have hmax := spells_builtin_name .max
  have ht : Spells Level.expression "max*x".toList t :=
    .tighter (.left .multiply .multiply hmax.tighter.tighter hx.tighter)
  have ht' : Spells Level.expression "y*x".toList
      (t.rename fun z => if z = "max" then "y" else z) :=
    .tighter (.left .multiply .multiply hy.tighter.tighter hx.tighter)
  have hts : tokenize "max*x" = .ok [.identifier "max", .operator .multiply, .identifier "x"] := by
    decide +kernel
  have hts' : tokenize "y*x" = .ok [.identifier "y", .operator .multiply, .identifier "x"] := by
    decide +kernel
  refine ⟨ht, rfl, by decide, ?_, ht', _, rfl, evaluate_eq_ok.mpr ⟨_, _, hts', rfl, rfl⟩⟩
  rw [evaluate_eq_of_tokenize hts]
  rfl

end ReversePolish
