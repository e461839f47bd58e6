import Mathlib.Data.List.Forall2
import ReversePolish.Rpn.Evaluation
import ReversePolish.Tree

/-! # Every value has a tree
While tokens in postfix order are evaluated, each value on the stack is the value of a tree, and the
trees in their order have the tokens read so far as postorders. -/
namespace ReversePolish

namespace Tree

variable {vars : Bindings}

theorem postorders_append (ts us : List Tree) :
    postorders (ts ++ us) = postorders ts ++ postorders us := by
  induction ts with
  | nil => rfl
  | cons t ts ih => simp [postorders, ih]

theorem postorders_reverse_cons (t : Tree) (ts : List Tree) :
    postorders (t :: ts).reverse = postorders ts.reverse ++ t.postorder := by
  simp [postorders_append, postorders]

/-- The values on the stack are those of the trees, the top one first. -/
def Grown (vars : Bindings) (stack : Stack) (ts : List Tree) : Prop :=
  List.Forall₂ (fun v t => t.value vars = some v) stack ts

end Tree

namespace Rpn
open ReversePolish.Tree

variable {vars : Bindings} {stack next : Stack} {ts : List Tree}

section
variable {f : Builtin}

theorem grown_of_applyUnary {g : Float → Float} (hr : f.routine = .unary g)
    (h : Stack.applyUnary g stack = .ok next) (hf : vars.binds f.name = false)
    (hs : Grown vars stack ts) :
    ∃ us, Grown vars next us ∧
      postorders us.reverse = postorders ts.reverse ++ [.identifier f.name] := by
  match stack, ts, hs with
  | a :: stack, t :: ts, .cons ha hs =>
    cases h
    refine ⟨.call f [t] :: ts, .cons ?_ hs, ?_⟩
    · simp [value, values, ha, hf, hr, Routine.call?]
    · simp [postorders_append, postorders, postorder]

theorem grown_of_applyBinary {g : Float → Float → Float} (hr : f.routine = .binary g)
    (h : Stack.applyBinary g stack = .ok next) (hf : vars.binds f.name = false)
    (hs : Grown vars stack ts) :
    ∃ us, Grown vars next us ∧
      postorders us.reverse = postorders ts.reverse ++ [.identifier f.name] := by
  match stack, ts, hs with
  | b :: a :: stack, u :: t :: ts, .cons hb (.cons ha hs) =>
    cases h
    refine ⟨.call f [t, u] :: ts, .cons ?_ hs, ?_⟩
    · simp [value, values, ha, hb, hf, hr, Routine.call?]
    · simp [postorders_append, postorders, postorder]

theorem grown_of_applyRoutine (h : Stack.applyRoutine f.routine stack = .ok next)
    (hf : vars.binds f.name = false) (hs : Grown vars stack ts) :
    ∃ us, Grown vars next us ∧
      postorders us.reverse = postorders ts.reverse ++ [.identifier f.name] := by
  cases hr : f.routine with
  | unary g =>
    rw [hr] at h
    exact grown_of_applyUnary hr h hf hs
  | binary g =>
    rw [hr] at h
    exact grown_of_applyBinary hr h hf hs

end

/-- One token either begins a new tree or joins the last trees to one. -/
theorem grown_of_evalStep {t : Token} (h : evalStep vars stack t = .ok next)
    (hs : Grown vars stack ts) :
    ∃ us, Grown vars next us ∧ postorders us.reverse = postorders ts.reverse ++ [t] := by
  cases t with
  | number v =>
    cases h
    exact ⟨.number v :: ts, .cons rfl hs, postorders_reverse_cons _ _⟩
  | identifier name =>
    simp only [evalStep] at h
    split at h
    · rename_i v hv
      cases h
      exact ⟨.var name :: ts, .cons hv hs, postorders_reverse_cons _ _⟩
    · rename_i hfree
      split at h
      · rename_i f hf
        have hname := Builtin.name_of_ofName? hf
        rw [← hname]
        exact grown_of_applyRoutine h (by simp [Bindings.binds, hname, hfree]) hs
      · contradiction
  | operator op =>
    match stack, ts, hs with
    | b :: a :: stack, u :: t :: ts, .cons hb (.cons ha hs) =>
      cases h
      refine ⟨.operation op t u :: ts, .cons ?_ hs, ?_⟩
      · simp [value, ha, hb]
      · simp [postorders_append, postorders, postorder]
  | leftParen | rightParen | comma => contradiction

theorem grown_of_run {rpn : Rpn} (h : run vars stack rpn = .ok next) (hs : Grown vars stack ts) :
    ∃ us, Grown vars next us ∧ postorders us.reverse = postorders ts.reverse ++ rpn := by
  induction rpn generalizing stack ts with
  | nil =>
    cases h
    exact ⟨ts, hs, by simp⟩
  | cons t rpn ih =>
    obtain ⟨mid, hstep, h⟩ := bind_eq_ok.mp h
    obtain ⟨us, hus, he⟩ := grown_of_evalStep hstep hs
    obtain ⟨ws, hws, he'⟩ := ih h hus
    exact ⟨ws, hws, by simp [he', he]⟩

/-- A name that is no function name is bound wherever evaluation gets past it. -/
theorem binds_of_run {rpn : Rpn} {name : String} (h : run vars stack rpn = .ok next)
    (hname : .identifier name ∈ rpn) (hf : Builtin.ofName? name = none) :
    vars.binds name = true := by
  induction rpn generalizing stack with
  | nil => simp at hname
  | cons t rpn ih =>
    obtain ⟨mid, hstep, h⟩ := bind_eq_ok.mp h
    rcases List.mem_cons.mp hname with rfl | hname
    · simp only [evalStep, hf] at hstep
      cases hb : vars.find? name with
      | none => simp [hb] at hstep
      | some v => simp [Bindings.binds, hb]
    · exact ih h hname

/-- What has a value is the postorder of a tree with this value. -/
theorem exists_tree_of_evaluate {rpn : Rpn} {v : Float} (h : evaluate rpn vars = .ok v) :
    ∃ t : Tree, t.postorder = rpn ∧ t.value vars = some v := by
  obtain ⟨last, hrun, hlast⟩ := bind_eq_ok.mp h
  obtain ⟨us, hus, he⟩ := grown_of_run hrun .nil
  match last, us, hus, hlast with
  | [w], [t], .cons hw .nil, hlast =>
    cases hlast
    exact ⟨t, by simpa [postorders] using he, hw⟩

end Rpn
end ReversePolish
