import ReversePolish.Infix.Signs
import ReversePolish.Proofs.Conversion.Grammar
import ReversePolish.Proofs.Conversion.Punctuation
import ReversePolish.Proofs.Evaluation.Balance
import ReversePolish.Proofs.Expression.Identifiers

/-! # Counting operands
Once an expression can be converted and its names are settled, the number of its operands and the
number of its binary operations decide whether it can have a value, wherever the tokens stand. -/
namespace ReversePolish
open Token

/-- Every name among the tokens is either bound or the name of a function, and none is both. -/
def Token.Settled (vars : Bindings) (ts : List Token) : Prop :=
  ∀ name, .identifier name ∈ ts → vars.binds name = (Builtin.ofName? name).isNone

variable {text : String} {ts us : List Token} {rpn : Rpn} {vars : Bindings} {t : Tree}

/-! ## Trees and signs -/

mutual

theorem balance_postorder : (t : Tree) → t.WellFormed → balance t.postorder = 1
  | .number _, _ => rfl
  | .var name, hw => by
    simp [Tree.postorder, gain_var (Tree.wellFormed_var.mp hw)]
  | .operation op l r, hw => by
    obtain ⟨hl, hr⟩ := Tree.wellFormed_operation.mp hw
    simp [Tree.postorder, balance_postorder l hl, balance_postorder r hr]
  | .call f args, hw => by
    obtain ⟨hlen, hargs⟩ := Tree.wellFormed_call.mp hw
    simp [Tree.postorder, balance_postorders args hargs, hlen]

theorem balance_postorders :
    (ts : List Tree) → (∀ t ∈ ts, t.WellFormed) → balance (Tree.postorders ts) = ts.length
  | [], _ => rfl
  | t :: ts, hw => by
    have ht := balance_postorder t (hw t (by simp))
    have hts := balance_postorders ts fun u hu => hw u (by simp [hu])
    simp only [Tree.postorders, balance_append, ht, hts, List.length_cons]
    omega

end

theorem balance_of_denotes (h : Denotes Level.expression ts t) (hw : t.WellFormed) :
    balance ts = 1 := by
  rw [← Rpn.balance_of_ofTokens (Rpn.ofTokens_eq_postorder h hw.1), balance_postorder t hw]

theorem dropSigns_sublist (after : Bool) (ts : List Token) : (dropSigns after ts).Sublist ts := by
  fun_induction dropSigns after ts with
  | case1 => exact .slnil
  | case2 ts ih => exact ih.cons_cons _
  | case3 ts after _ ih => exact ih.cons _
  | case4 after t ts _ ih => exact ih.cons_cons t

/-- Every sign takes one off the balance. -/
theorem balance_dropSigns (after : Bool) (ts : List Token) :
    balance (dropSigns after ts) = balance ts + (ts.length - (dropSigns after ts).length) := by
  fun_induction dropSigns after ts with
  | case1 => rfl
  | case2 ts ih | case3 ts after _ ih | case4 after t ts _ ih =>
    simp only [balance_cons, gain_operator, List.length_cons, ih]
    omega

theorem filter_dropSigns (after : Bool) (ts : List Token) :
    (dropSigns after ts).filter isPunctuation = ts.filter isPunctuation := by
  fun_induction dropSigns after ts with
  | case1 => rfl
  | case2 ts ih | case3 ts after _ ih => simpa [isPunctuation] using ih
  | case4 after t ts _ ih => rw [List.filter_cons, List.filter_cons, ih]

theorem exists_ofTokens_of_signs (hd : Denotes Level.expression (dropSigns false ts) t)
    (hw : t.WellFormed) : ∃ rpn, Rpn.ofTokens ts = .ok rpn := by
  -- Only parentheses and commas can make a conversion fail, and the tokens have them without signs.
  have hunsigned := Rpn.ofTokens_eq_postorder hd hw.1
  refine fault?_eq_none.mp ?_
  rw [← Rpn.nestingFault?_eq_fault?, ← Rpn.nestingFault?_filter, ← filter_dropSigns false,
    Rpn.nestingFault?_filter, Rpn.nestingFault?_eq_fault?, hunsigned, fault?_ok]

theorem balance_nonpos_of_signs (hd : Denotes Level.expression (dropSigns false ts) t)
    (hw : t.WellFormed) (hs : dropSigns false ts ≠ ts) : balance ts ≤ 0 := by
  have hsub := dropSigns_sublist false ts
  have hlt : (dropSigns false ts).length < ts.length :=
    Nat.lt_of_le_of_ne hsub.length_le fun he => hs (hsub.eq_of_length he)
  have hb := balance_dropSigns false ts
  rw [balance_of_denotes hd hw] at hb
  omega

theorem exists_essential_of_signs (hd : Denotes Level.expression (dropSigns false ts) t)
    (hw : t.WellFormed) : ∃ u ∈ ts, u.isPunctuation = false := by
  by_contra hnone
  simp only [not_exists, not_and, Bool.not_eq_false] at hnone
  have hnil : essential (dropSigns false ts) = [] := by
    refine List.filter_eq_nil_iff.mpr fun u hu => ?_
    simp [hnone u ((dropSigns_sublist false ts).subset hu)]
  have hb := balance_of_denotes hd hw
  rw [← balance_essential, hnil] at hb
  contradiction

/-! ## Outcomes -/

/-- With settled names only the stack can fail, and it ends as high as the balance says. -/
theorem evaluateTokens_of_balance (hrpn : Rpn.ofTokens ts = .ok rpn) (hnames : Settled vars ts) :
    (balance ts = 1 ∧ ∃ v, evaluateTokens ts vars = .ok v) ∨
      (∃ r : Nat, balance ts = r ∧ r ≠ 1 ∧ (r = 0 → ∀ u ∈ ts, u.isPunctuation = true) ∧
        evaluateTokens ts vars = .error (.eval (.malformedExpression r))) ∨
      evaluateTokens ts vars = .error (.eval .stackUnderflow) := by
  have hmem {u : Token} := Rpn.mem_of_ofTokens (t := u) hrpn
  have hf : ∀ f : Builtin, .identifier f.name ∈ rpn → vars.binds f.name = false := by
    intro f hm
    rw [hnames f.name (hmem.mp hm).1]
    simp
  have hfault := Rpn.heightFault?_eq_fault? rpn vars
  have hb := Rpn.balance_of_ofTokens hrpn
  cases hvalue : rpn.evaluate vars with
  | ok v =>
    rw [hvalue, fault?_ok] at hfault
    obtain ⟨r, hr, hheight, -⟩ := Rpn.exists_height hf (.inl rfl) hfault
    rcases Rpn.heightFault?_nil vars.binds r with ⟨-, rfl⟩ | ⟨hne, -⟩
    · exact .inl ⟨by omega, v, evaluateTokens_eq_ok.mpr ⟨rpn, hrpn, hvalue⟩⟩
    · simp [hr] at hne
  | error e =>
    have houtcome := evaluateTokens_eq_evalError.mpr ⟨rpn, hrpn, hvalue⟩
    rw [hvalue, fault?_error] at hfault
    cases Rpn.reason_of_evaluate hvalue with
    | stackUnderflow => exact .inr (.inr houtcome)
    | unboundIdentifier mem free other =>
      have hbound := hnames _ (hmem.mp mem).1
      simp [free, other] at hbound
    | unexpectedToken mem punctuation =>
      have hplain := (hmem.mp mem).2
      simp [punctuation] at hplain
    | @malformedExpression remaining =>
      obtain ⟨r, hr, hheight, hzero⟩ := Rpn.exists_height hf (.inr ⟨_, rfl⟩) hfault
      rcases Rpn.heightFault?_nil vars.binds r with ⟨hne, -⟩ | ⟨hmalformed, hone⟩
      · simp [hr] at hne
      · rw [hmalformed] at hr
        cases hr
        refine .inr (.inl ⟨remaining, by omega, hone, fun h0 u hu => ?_, houtcome⟩)
        have hnil := (hzero h0).2
        cases hp : u.isPunctuation with
        | true => rfl
        | false => simpa [hnil] using hmem.mpr ⟨hu, hp⟩

theorem evaluateTokens_of_balance_nonpos (hrpn : Rpn.ofTokens ts = .ok rpn)
    (hnames : Settled vars ts) (hb : balance ts ≤ 0) (hu : ∃ u ∈ ts, u.isPunctuation = false) :
    evaluateTokens ts vars = .error (.eval .stackUnderflow) := by
  obtain ⟨u, hu, hplain⟩ := hu
  rcases evaluateTokens_of_balance hrpn hnames with ⟨hone, -⟩ | ⟨r, hr, -, hzero, -⟩ | hunderflow
  · omega
  · have hpunctuation := hzero (by omega) u hu
    simp [hplain] at hpunctuation
  · exact hunderflow

/-- The counts of an expression that can be converted foretell its outcome when every name in it is
either bound or the name of a function. A value leaves one operand over, a malformed expression as
many as it reports, and nothing else but an underflow can happen; it must if there are tokens but
no operand is over. One sign in an expression that is well-formed apart from signs is enough. -/
theorem evaluate_obeys_counts (hts : tokenize text = .ok ts) (hnames : Settled vars ts) :
    ((∃ rpn, parse text = .ok rpn) →
        (∀ v, evaluate text vars = .ok v → ts.countP isOperand = ts.countP isBinary + 1) ∧
        (∀ r, evaluate text vars = .error (.eval (.malformedExpression r)) →
          ts.countP isOperand = ts.countP isBinary + r ∧ r ≠ 1 ∧
            (r = 0 → ∀ u ∈ ts, u.isPunctuation = true)) ∧
        ((∃ v, evaluate text vars = .ok v) ∨
          (∃ r, evaluate text vars = .error (.eval (.malformedExpression r))) ∨
          evaluate text vars = .error (.eval .stackUnderflow)) ∧
        (ts.countP isOperand ≤ ts.countP isBinary → (∃ u ∈ ts, u.isPunctuation = false) →
          evaluate text vars = .error (.eval .stackUnderflow))) ∧
      ∀ t : Tree, Denotes Level.expression (dropSigns false ts) t → t.WellFormed →
        dropSigns false ts ≠ ts → evaluate text vars = .error (.eval .stackUnderflow) := by
  have hcounts := balance_eq_counts ts
  rw [evaluate_eq_of_tokenize hts]
  constructor
  · rintro ⟨rpn, hrpn⟩
    have hrpn : Rpn.ofTokens ts = .ok rpn := by
      simpa [parse, hts, bind_eq_ok, mapError_eq_ok] using hrpn
    have houtcome := evaluateTokens_of_balance hrpn hnames
    refine ⟨fun v hv => ?_, fun r hr => ?_, ?_, fun hle hu => ?_⟩
    · rw [hv] at houtcome
      rcases houtcome with ⟨hone, -⟩ | ⟨r, -, -, -, he⟩ | he
      · omega
      · cases he
      · cases he
    · rw [hr] at houtcome
      rcases houtcome with ⟨-, v, he⟩ | ⟨r', hb, hne, hzero, he⟩ | he
      · cases he
      · cases he
        exact ⟨by omega, hne, hzero⟩
      · cases he
    · rcases houtcome with ⟨-, hv⟩ | ⟨r, -, -, -, hr⟩ | hunderflow
      · exact .inl hv
      · exact .inr (.inl ⟨r, hr⟩)
      · exact .inr (.inr hunderflow)
    · exact evaluateTokens_of_balance_nonpos hrpn hnames (by omega) hu
  · intro t hd hw hs
    obtain ⟨rpn, hrpn⟩ := exists_ofTokens_of_signs hd hw
    exact evaluateTokens_of_balance_nonpos hrpn hnames (balance_nonpos_of_signs hd hw hs)
      (exists_essential_of_signs hd hw)

/-- The first text lacks an operand for its sign, the second has one too many. -/
theorem evaluate_obeys_counts_sign_and_surplus :
    (∃ ts t, tokenize "x*-max(x,y)" = .ok ts ∧ Settled (.ofList [("x", 7), ("y", 2)]) ts ∧
      Denotes Level.expression (dropSigns false ts) t ∧ t.WellFormed ∧ dropSigns false ts ≠ ts ∧
      evaluate "x*-max(x,y)" (.ofList [("x", 7), ("y", 2)]) = .error (.eval .stackUnderflow)) ∧
    ∃ ts, tokenize "x sqrt(y)" = .ok ts ∧ Settled (.ofList [("x", 7), ("y", 2)]) ts ∧
      (∃ rpn, parse "x sqrt(y)" = .ok rpn) ∧
      evaluate "x sqrt(y)" (.ofList [("x", 7), ("y", 2)]) =
        .error (.eval (.malformedExpression 2)) ∧
      ts.countP isOperand = ts.countP isBinary + 2 := by
  constructor
  · have hts : tokenize "x*-max(x,y)" = .ok [.identifier "x", .operator .multiply,
        .operator .subtract, .identifier "max", .leftParen, .identifier "x", .comma,
        .identifier "y", .rightParen] := by decide +kernel
    have hnames : Settled (.ofList [("x", 7), ("y", 2)]) [.identifier "x", .operator .multiply,
        .operator .subtract, .identifier "max", .leftParen, .identifier "x", .comma,
        .identifier "y", .rightParen] := by
      intro name hname
      simp only [List.mem_cons, List.not_mem_nil, identifier.injEq, reduceCtorEq, false_or,
        or_false] at hname
      rcases hname with rfl | rfl | rfl | rfl <;> rfl
    have hargs := DenoteArguments.more (Denotes.of_le (.var "x") (by decide))
      (.one (Denotes.of_le (.var "y") (by decide)))
    have hd := @Denotes.left _ .multiply [_] _ _ _ .multiply (.of_le (.var "x") (by decide))
      (.of_le (.call .max hargs) (by decide))
    have hw : Tree.WellFormed (.operation .multiply (.var "x") (.call .max [.var "x", .var "y"])) :=
      ⟨by decide, trivial, rfl, trivial, trivial, trivial⟩
    exact ⟨_, _, hts, hnames, .tighter hd, hw, by decide,
      (evaluate_obeys_counts hts hnames).2 _ (.tighter hd) hw (by decide)⟩
  · have hts : tokenize "x sqrt(y)" = .ok [.identifier "x", .identifier "sqrt", .leftParen,
        .identifier "y", .rightParen] := by decide +kernel
    have hnames : Settled (.ofList [("x", 7), ("y", 2)]) [.identifier "x", .identifier "sqrt",
        .leftParen, .identifier "y", .rightParen] := by
      intro name hname
      simp only [List.mem_cons, List.not_mem_nil, identifier.injEq, reduceCtorEq, false_or,
        or_false] at hname
      rcases hname with rfl | rfl | rfl <;> rfl
    have hparse : ∃ rpn, parse "x sqrt(y)" = .ok rpn := ⟨_, by rw [parse, hts]; rfl⟩
    have hmalformed : evaluate "x sqrt(y)" (.ofList [("x", 7), ("y", 2)]) =
        .error (.eval (.malformedExpression 2)) := by
      rw [evaluate_eq_of_tokenize hts]
      rfl
    exact ⟨_, hts, hnames, hparse, hmalformed,
      (((evaluate_obeys_counts hts hnames).1 hparse).2.1 2 hmalformed).1⟩

end ReversePolish
