import ReversePolish.Rpn.Evaluation
import ReversePolish.Tree

/-! # Evaluating a postorder
The postorder of a tree leaves the value of the tree on top of whatever the stack held before. A
well-formed tree has a value as soon as its variables are bound and its functions are not hidden. -/
namespace ReversePolish

theorem Stack.applyRoutine_of_call? {routine : Routine} {xs : List Float} {v : Float}
    (h : routine.call? xs = some v) (stack : Stack) :
    applyRoutine routine (xs.reverse ++ stack) = .ok (v :: stack) := by
  unfold Routine.call? at h
  split at h
  · cases h
    rfl
  · cases h
    rfl
  · contradiction

theorem Routine.exists_call? {routine : Routine} {xs : List Float}
    (h : xs.length = routine.arity) : ∃ v, routine.call? xs = some v := by
  match routine, xs, h with
  | .unary f, [a], _ => exact ⟨f a, rfl⟩
  | .binary f, [a, b], _ => exact ⟨f a b, rfl⟩

theorem Routine.length_of_call? {routine : Routine} {xs : List Float} {v : Float}
    (h : routine.call? xs = some v) : xs.length = routine.arity := by
  unfold Routine.call? at h
  split at h
  · rfl
  · rfl
  · contradiction

namespace Tree

mutual

theorem run_postorder {vars : Bindings} {v : Float} (stack : Stack) :
    (t : Tree) → t.value vars = some v → Rpn.run vars stack t.postorder = .ok (v :: stack)
  | .number x, h => by
    cases h
    rfl
  | .var name, h => by
    have hf : vars.find? name = some v := h
    simp [postorder, Rpn.run_singleton, Rpn.evalStep, hf]
  | .operation op l r, h => by
    simp only [value, Option.bind_eq_bind, Option.bind_eq_some_iff, Option.pure_def,
      Option.some.injEq] at h
    obtain ⟨x, hx, y, hy, rfl⟩ := h
    rw [postorder, List.append_assoc, Rpn.run_append_ok (run_postorder stack l hx),
      Rpn.run_append_ok (run_postorder (x :: stack) r hy), Rpn.run_singleton]
    rfl
  | .call f args, h => by
    simp only [value, Option.bind_eq_bind, Option.bind_eq_some_iff] at h
    obtain ⟨xs, hxs, hcall⟩ := h
    split at hcall
    · contradiction
    · rename_i hfree
      have hf : vars.find? f.name = none := by
        simpa [Bindings.binds] using hfree
      rw [postorder, Rpn.run_append_ok (run_postorders stack args hxs), Rpn.run_singleton]
      simp [Rpn.evalStep, hf, Stack.applyRoutine_of_call? hcall]

theorem run_postorders {vars : Bindings} {xs : List Float} (stack : Stack) :
    (ts : List Tree) → values vars ts = some xs →
      Rpn.run vars stack (postorders ts) = .ok (xs.reverse ++ stack)
  | [], h => by
    cases h
    rfl
  | t :: ts, h => by
    simp only [values, Option.bind_eq_bind, Option.bind_eq_some_iff, Option.pure_def,
      Option.some.injEq] at h
    obtain ⟨x, hx, xs, hxs, rfl⟩ := h
    rw [postorders, Rpn.run_append_ok (run_postorder stack t hx),
      run_postorders (x :: stack) ts hxs]
    simp

end

mutual

theorem exists_value {vars : Bindings} :
    (t : Tree) → t.Saturated → (∀ x ∈ t.vars, vars.binds x = true) →
      (∀ f ∈ t.functions, vars.binds f.name = false) → ∃ v, t.value vars = some v
  | .number x, _, _, _ => ⟨x, rfl⟩
  | .var name, _, hv, _ => by
    have hb := hv name (by simp [Tree.vars])
    exact Option.isSome_iff_exists.mp hb
  | .operation op l r, hs, hv, hf => by
    obtain ⟨x, hx⟩ := exists_value l hs.1 (fun x hx => hv x (by simp [Tree.vars, hx]))
      (fun f h => hf f (by simp [functions, h]))
    obtain ⟨y, hy⟩ := exists_value r hs.2 (fun x hx => hv x (by simp [Tree.vars, hx]))
      (fun f h => hf f (by simp [functions, h]))
    exact ⟨op.apply x y, by simp [value, hx, hy]⟩
  | .call f args, hs, hv, hf => by
    obtain ⟨xs, hxs, hlen⟩ := exists_values args hs.2 hv
      (fun g h => hf g (by simp [functions, h]))
    have hfree := hf f (by simp [functions])
    obtain ⟨v, hcall⟩ := Routine.exists_call? (hlen.trans hs.1)
    exact ⟨v, by simp [value, hxs, hfree, hcall]⟩

theorem exists_values {vars : Bindings} :
    (ts : List Tree) → SaturatedAll ts → (∀ x ∈ varsAll ts, vars.binds x = true) →
      (∀ f ∈ functionsAll ts, vars.binds f.name = false) →
        ∃ xs, values vars ts = some xs ∧ xs.length = ts.length
  | [], _, _, _ => ⟨[], rfl, rfl⟩
  | t :: ts, hs, hv, hf => by
    obtain ⟨x, hx⟩ := exists_value t hs.1 (fun x hx => hv x (by simp [varsAll, hx]))
      (fun f h => hf f (by simp [functionsAll, h]))
    obtain ⟨xs, hxs, hlen⟩ := exists_values ts hs.2 (fun x hx => hv x (by simp [varsAll, hx]))
      (fun f h => hf f (by simp [functionsAll, h]))
    exact ⟨x :: xs, by simp [values, hx, hxs], by simp [hlen]⟩

end

mutual

/-- The conditions of `exists_value` are necessary. -/
theorem conditions_of_value {vars : Bindings} {v : Float} :
    (t : Tree) → t.value vars = some v →
      t.Saturated ∧ (∀ x ∈ t.vars, vars.binds x = true) ∧
        ∀ f ∈ t.functions, vars.binds f.name = false
  | .number x, _ => ⟨trivial, by simp [Tree.vars], by simp [functions]⟩
  | .var name, h => by
    have hf : vars.find? name = some v := h
    exact ⟨trivial, by simp [Tree.vars, Bindings.binds, hf], by simp [functions]⟩
  | .operation op l r, h => by
    simp only [value, Option.bind_eq_bind, Option.bind_eq_some_iff] at h
    obtain ⟨x, hx, y, hy, -⟩ := h
    obtain ⟨hsl, hvl, hfl⟩ := conditions_of_value l hx
    obtain ⟨hsr, hvr, hfr⟩ := conditions_of_value r hy
    refine ⟨⟨hsl, hsr⟩, ?_, ?_⟩
    · intro x hx
      exact (List.mem_append.mp hx).elim (hvl x) (hvr x)
    · intro f hf
      exact (List.mem_append.mp hf).elim (hfl f) (hfr f)
  | .call f args, h => by
    simp only [value, Option.bind_eq_bind, Option.bind_eq_some_iff] at h
    obtain ⟨xs, hxs, hcall⟩ := h
    split at hcall
    · contradiction
    · rename_i hfree
      obtain ⟨hs, hlen, hv, hf⟩ := conditions_of_values args hxs
      refine ⟨⟨hlen ▸ Routine.length_of_call? hcall, hs⟩, hv, ?_⟩
      intro g hg
      rcases List.mem_cons.mp hg with rfl | hg
      · simpa using hfree
      · exact hf g hg

theorem conditions_of_values {vars : Bindings} {xs : List Float} :
    (ts : List Tree) → values vars ts = some xs →
      SaturatedAll ts ∧ xs.length = ts.length ∧ (∀ x ∈ varsAll ts, vars.binds x = true) ∧
        ∀ f ∈ functionsAll ts, vars.binds f.name = false
  | [], h => by
    cases h
    exact ⟨trivial, rfl, by simp [varsAll], by simp [functionsAll]⟩
  | t :: ts, h => by
    simp only [values, Option.bind_eq_bind, Option.bind_eq_some_iff, Option.pure_def,
      Option.some.injEq] at h
    obtain ⟨x, hx, xs, hxs, rfl⟩ := h
    obtain ⟨hst, hvt, hft⟩ := conditions_of_value t hx
    obtain ⟨hs, hlen, hv, hf⟩ := conditions_of_values ts hxs
    refine ⟨⟨hst, hs⟩, by simp [hlen], ?_, ?_⟩
    · intro x hx
      exact (List.mem_append.mp hx).elim (hvt x) (hv x)
    · intro f hf'
      exact (List.mem_append.mp hf').elim (hft f) (hf f)

end

theorem wellFormed_of_value {vars : Bindings} {v : Float} {t : Tree} (h : t.value vars = some v)
    (hf : ∀ f : Builtin, vars.binds f.name = false) : t.WellFormed := by
  obtain ⟨hs, hv, -⟩ := conditions_of_value t h
  refine ⟨fun x hx => ?_, hs⟩
  cases hx' : Builtin.ofName? x with
  | none => rfl
  | some f =>
    have hb := hv x hx
    rw [← Builtin.name_of_ofName? hx', hf f] at hb
    contradiction

mutual

theorem mem_postorder_of_mem_vars {x : String} :
    (t : Tree) → x ∈ t.vars → Token.identifier x ∈ t.postorder
  | .number _, h => by simp [Tree.vars] at h
  | .var _, h => by simpa [Tree.vars, postorder] using h
  | .operation _ l r, h => by
    rw [postorder, List.append_assoc, List.mem_append, List.mem_append]
    rcases List.mem_append.mp h with h | h
    · exact .inl (mem_postorder_of_mem_vars l h)
    · exact .inr (.inl (mem_postorder_of_mem_vars r h))
  | .call _ args, h => List.mem_append_left _ (mem_postorders_of_mem_varsAll args h)

theorem mem_postorders_of_mem_varsAll {x : String} :
    (ts : List Tree) → x ∈ varsAll ts → Token.identifier x ∈ postorders ts
  | [], h => by simp [varsAll] at h
  | t :: ts, h => by
    rw [postorders, List.mem_append]
    rcases List.mem_append.mp h with h | h
    · exact .inl (mem_postorder_of_mem_vars t h)
    · exact .inr (mem_postorders_of_mem_varsAll ts h)

end

/-- A postorder is evaluated to the value of the tree. -/
theorem evaluate_postorder {vars : Bindings} {v : Float} {t : Tree} (h : t.value vars = some v) :
    Rpn.evaluate t.postorder vars = .ok v := by
  rw [Rpn.evaluate, run_postorder [] t h]
  rfl

end Tree
end ReversePolish
