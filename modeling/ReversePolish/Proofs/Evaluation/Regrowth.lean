import Mathlib.Logic.ExistsUnique
import ReversePolish.Proofs.Evaluation.Forest
import ReversePolish.Proofs.Evaluation.Postorder

/-! # One tree for each sequence
Tokens in postfix order have a value exactly if they are the postorder of a tree with this value.
There is only one such tree: read on a stack of trees instead of values, a postorder gives back the
tree that it was made from, because the bindings decide for every name whether it is a leaf. -/
namespace ReversePolish

namespace Tree

variable {vars : Bindings}

/-- Reads one token on a stack of trees, the latest tree first. An operand begins a new tree; an
operator or a function joins the trees that are its operands to one. -/
def regrow (vars : Bindings) (forest : List Tree) : Token → List Tree
  | .number v => number v :: forest
  | .identifier name =>
    match vars.binds name, Builtin.ofName? name with
    | true, _ => var name :: forest
    | false, some f => call f (forest.take f.arity).reverse :: forest.drop f.arity
    | false, none => forest
  | .operator op =>
    match forest with
    | right :: left :: below => operation op left right :: below
    | _ => forest
  | .leftParen | .rightParen | .comma => forest

theorem regrow_var {name : String} (h : vars.binds name = true) (forest : List Tree) :
    regrow vars forest (.identifier name) = var name :: forest := by
  simp [regrow, h]

theorem regrow_call {f : Builtin} {args : List Tree} (hf : vars.binds f.name = false)
    (hlen : args.length = f.arity) (forest : List Tree) :
    regrow vars (args.reverse ++ forest) (.identifier f.name) = call f args :: forest := by
  have hlen' : args.reverse.length = f.arity := by simpa using hlen
  have htake : (args.reverse ++ forest).take f.arity = args.reverse := List.take_left' hlen'
  have hdrop : (args.reverse ++ forest).drop f.arity = forest := List.drop_left' hlen'
  simp [regrow, hf, htake, hdrop]

mutual

/-- The postorder of a tree puts the tree on top of whatever trees stood there before. -/
theorem foldl_regrow_postorder {v : Float} (forest : List Tree) :
    (t : Tree) → t.value vars = some v →
      t.postorder.foldl (regrow vars) forest = t :: forest
  | .number x, _ => rfl
  | .var name, h => by
    have hv : vars.find? name = some v := h
    have hb : vars.binds name = true := by simp [Bindings.binds, hv]
    simpa [postorder] using regrow_var hb forest
  | .operation op l r, h => by
    simp only [value, Option.bind_eq_bind, Option.bind_eq_some_iff] at h
    obtain ⟨x, hx, y, hy, -⟩ := h
    have hl := foldl_regrow_postorder forest l hx
    have hr := foldl_regrow_postorder (l :: forest) r hy
    simp [postorder, List.foldl_append, hl, hr, regrow]
  | .call f args, h => by
    have hconds := conditions_of_value _ h
    have hlen : args.length = f.arity := hconds.1.1
    have hf : vars.binds f.name = false := hconds.2.2 f (by simp [functions])
    simp only [value, Option.bind_eq_bind, Option.bind_eq_some_iff] at h
    obtain ⟨xs, hxs, -⟩ := h
    have hargs := foldl_regrow_postorders forest args hxs
    simpa [postorder, List.foldl_append, hargs] using regrow_call hf hlen forest

theorem foldl_regrow_postorders {xs : List Float} (forest : List Tree) :
    (ts : List Tree) → values vars ts = some xs →
      (postorders ts).foldl (regrow vars) forest = ts.reverse ++ forest
  | [], _ => rfl
  | t :: ts, h => by
    simp only [values, Option.bind_eq_bind, Option.bind_eq_some_iff] at h
    obtain ⟨x, hx, xs, hxs, -⟩ := h
    have ht := foldl_regrow_postorder forest t hx
    have hts := foldl_regrow_postorders (t :: forest) ts hxs
    simp [postorders, List.foldl_append, ht, hts]

end

/-- Trees that have a value under the same bindings are told apart by their postorders. -/
theorem eq_of_postorder_eq {t u : Tree} {v w : Float} (ht : t.value vars = some v)
    (hu : u.value vars = some w) (h : t.postorder = u.postorder) : t = u := by
  have hforest : [t] = [u] :=
    calc [t] = t.postorder.foldl (regrow vars) [] := (foldl_regrow_postorder [] t ht).symm
      _ = u.postorder.foldl (regrow vars) [] := by rw [h]
      _ = [u] := foldl_regrow_postorder [] u hu
  exact List.singleton_inj.mp hforest

end Tree

/-- Whatever its origin, a sequence of tokens has the value `v` exactly if it is the postorder of a
tree with this value, and then of only one. -/
theorem evaluate_eq_ok_iff_existsUnique_tree (rpn : Rpn) (vars : Bindings) (v : Float) :
    (rpn.evaluate vars = .ok v ↔ ∃ t : Tree, t.postorder = rpn ∧ t.value vars = some v) ∧
      (rpn.evaluate vars = .ok v ↔ ∃! t : Tree, t.postorder = rpn ∧ t.value vars = some v) := by
  have hsound : rpn.evaluate vars = .ok v → ∃ t : Tree, t.postorder = rpn ∧ t.value vars = some v :=
    Rpn.exists_tree_of_evaluate
  have hcomplete : (∃ t : Tree, t.postorder = rpn ∧ t.value vars = some v) →
      rpn.evaluate vars = .ok v := by
    rintro ⟨t, rfl, hv⟩
    exact Tree.evaluate_postorder hv
  refine ⟨⟨hsound, hcomplete⟩, ⟨fun h => ?_, fun h => hcomplete h.exists⟩⟩
  obtain ⟨t, rfl, hv⟩ := hsound h
  refine ⟨t, ⟨rfl, hv⟩, ?_⟩
  rintro u ⟨hpost, hu⟩
  exact Tree.eq_of_postorder_eq hu hv hpost

end ReversePolish
