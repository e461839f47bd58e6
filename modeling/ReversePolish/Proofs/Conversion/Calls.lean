import Mathlib.Data.List.Forall2
import ReversePolish.Proofs.Conversion.Groups

/-! # Calls convert on their own
Each argument of a call is converted as if nothing stood around it, and the name of the function
follows the last of them. Unlike a group, which a function name before it would take for its
arguments, a call may stand anywhere: it brings its own function name along. -/
namespace ReversePolish.Rpn
open Pending Token

variable {args : List (List Token)} {outs : List Rpn} {x : String}

/-- The arguments are released one after another, and then the function that waits for them. -/
theorem consume_arguments (h : args.Forall₂ (ofTokens · = .ok ·) outs) (hne : args ≠ [])
    (stack : List Pending) :
    consume (.leftParen :: stack) ([.comma].intercalate args ++ [.rightParen]) =
      .ok (outs.flatten ++ (called stack).1, (called stack).2) := by
  induction h with
  | nil => contradiction
  | @cons ts rpn rest outs hts hrest ih =>
    cases hrest with
    | nil => simpa using consume_rightParen hts stack
    | cons hnext hlater =>
      have hcomma := consume_comma hts stack
      have hlast := ih (List.cons_ne_nil _ _)
      simpa [List.intercalate_cons_cons] using consume_append_ok hcomma hlast

theorem consume_call (f : Builtin) (h : args.Forall₂ (ofTokens · = .ok ·) outs)
    (hne : args ≠ []) (stack : List Pending) :
    consume stack (call f args) = .ok (outs.flatten ++ [.identifier f.name], stack) := by
  have hname : step stack (.identifier f.name) = .ok ([], .function f :: stack) := by simp [step]
  have hopen : step (.function f :: stack) .leftParen =
      .ok ([], .leftParen :: .function f :: stack) := rfl
  have harguments := consume_arguments h hne (.function f :: stack)
  simpa [call, group, called] using consume_cons_ok hname (consume_cons_ok hopen harguments)

/-- A group or a call in the place of a variable yields its own conversion in the place of the
variable, or the error that there is anyhow. The group must not follow an operand; for the call it
makes no difference what stands around it. -/
theorem ofTokens_group_or_call (hx : Builtin.ofName? x = none) {before after : List Token}
    (hbefore : .identifier x ∉ before) (hafter : .identifier x ∉ after) :
    (∀ ts rpn, ofTokens ts = .ok rpn →
        (∀ t, before.getLast? = some t → t.endsOperand = false) →
        ofTokens (before ++ group ts ++ after) =
          (ofTokens (before ++ .identifier x :: after)).map (replace x rpn)) ∧
      ∀ f args outs, args ≠ [] → args.Forall₂ (ofTokens · = .ok ·) outs →
        ofTokens (before ++ call f args ++ after) =
          (ofTokens (before ++ .identifier x :: after)).map
            (replace x (outs.flatten ++ [.identifier f.name])) := by
  refine ⟨fun ts rpn hts hlast => ?_, fun f args outs hne hargs => ?_⟩
  · rw [← replace_append_cons_self hbefore hafter]
    exact ofTokens_replace hx hts (standsFree_append_cons hbefore hafter hlast)
  · rw [← replace_append_cons_self hbefore hafter]
    exact finish_replace hx fun _ _ _ next _ _ => consume_call f hargs hne next

/-- Neither the tokens around nor those within need make sense; the variable may occur within. -/
theorem ofTokens_group_or_call_malformed :
    let before : List Token := [.number 2, .operator .power]
    let after : List Token := [.operator .add, .identifier "sin"]
    let negated : List Token := [.operator .subtract, .number 1]
    let args : List (List Token) := [negated, [.identifier "x", .identifier "x"]]
    Builtin.ofName? "x" = none ∧ .identifier "x" ∉ before ∧ .identifier "x" ∉ after ∧
      ofTokens (before ++ group negated ++ after) =
        (ofTokens (before ++ .identifier "x" :: after)).map
          (replace "x" [.number 1, .operator .subtract]) ∧
      ofTokens (before ++ call .max args ++ after) =
        (ofTokens (before ++ .identifier "x" :: after)).map
          (replace "x" [.number 1, .operator .subtract, .identifier "x", .identifier "x",
            .identifier "max"]) := by
  intro before after negated args
  have hx : Builtin.ofName? "x" = none := by decide
  have hbefore : .identifier "x" ∉ before := by decide
  have hafter : .identifier "x" ∉ after := by decide
  have hargs : args.Forall₂ (ofTokens · = .ok ·)
      [[.number 1, .operator .subtract], [.identifier "x", .identifier "x"]] :=
    .cons rfl (.cons rfl .nil)
  obtain ⟨hgroup, hcall⟩ := ofTokens_group_or_call hx hbefore hafter
  exact ⟨hx, hbefore, hafter, hgroup negated _ rfl (by simp [before, endsOperand]),
    hcall .max args _ (by decide) hargs⟩

end ReversePolish.Rpn
