import ReversePolish.Infix.Surplus
import ReversePolish.Proofs.Infix.Loose
import ReversePolish.Rpn.Nesting

/-! # Tokens without a surplus
Tokens of sound nesting without a surplus are loose expressions, found by descending into the
parentheses. In the other direction no infix expression has a surplus. -/
namespace ReversePolish
open Token Rpn

variable {after : Bool} {d : Nat} {room : List Nat} {t u : Token} {ts us : List Token}

theorem Token.Separated.admits (h : Separated (t :: ts)) : ∀ u ∈ ts.head?, t.admits u = true := by
  cases ts with
  | nil => simp
  | cons u ts => simpa using (List.isChain_cons_cons.mp h).1

/-- Outside the parentheses of a call nothing that ends an operand admits the beginning of one. -/
theorem Token.startsOperand_of_admits (h : t.admits u = true) (ht : t.endsOperand = true)
    (hu : u ≠ .leftParen ∨ ∀ f : Builtin, t ≠ .identifier f.name) : u.startsOperand = false := by
  unfold Token.admits at h
  split at h
  · rename_i name
    obtain ⟨f, hf⟩ := Option.isSome_iff_exists.mp h
    rw [← Builtin.name_of_ofName? hf] at hu
    simp only [ne_eq, not_true_eq_false, false_or, identifier.injEq] at hu
    exact absurd rfl (hu f)
  · simpa [ht] using h

theorem Token.commasFit_of_head {next : Nat} (h : ∀ u ∈ ts.head?, u.startsOperand = false) :
    commasFit next room ts = commasFit 0 room ts := by
  cases ts with
  | nil => rfl
  | cons u ts =>
    have hu := h u rfl
    cases u <;> first | rfl | contradiction

/-- What the descent knows of the tokens that it has not yet read. -/
structure Tidy (after : Bool) (d : Nat) (room : List Nat) (ts : List Token) : Prop where
  separated : Separated ts
  free : after = true → ∀ t ∈ ts.head?, t.startsOperand = false
  nested : nestingFault? d ts = none
  fit : commasFit 0 room ts = true

/-- The tokens are at their end, or the innermost parenthesis is closed. -/
inductive Closes : Nat → List Nat → List Token → Prop
  | ended (room : List Nat) : Closes 0 room []
  | closed {d : Nat} {room : List Nat} {ts : List Token} (h : Tidy true d room.tail ts) :
      Closes (d + 1) room (.rightParen :: ts)

theorem Tidy.after_eq_false (h : Tidy after d room (t :: ts)) (ht : t.startsOperand = true) :
    after = false := by
  cases after with
  | false => rfl
  | true => simp [h.free rfl t rfl] at ht

theorem Tidy.of_endsOperand (hsep : Separated (t :: ts)) (ht : t.endsOperand = true)
    (hu : ts.head? ≠ some .leftParen ∨ ∀ f : Builtin, t ≠ .identifier f.name)
    (hnest : nestingFault? d ts = none) {next : Nat} (hfit : commasFit next room ts = true) :
    Tidy true d room ts := by
  have hfree : ∀ u ∈ ts.head?, u.startsOperand = false := by
    intro u hmem
    refine startsOperand_of_admits (hsep.admits u hmem) ht (hu.imp_left ?_)
    rintro hne rfl
    exact hne hmem
  rw [commasFit_of_head hfree] at hfit
  exact ⟨hsep.tail, fun _ => hfree, hnest, hfit⟩

theorem Tidy.of_number {value : Float} (h : Tidy after d room (.number value :: ts)) :
    Tidy true d room ts :=
  .of_endsOperand h.separated rfl (.inr (by simp)) h.nested h.fit

theorem Tidy.of_var {name : String} (hname : Builtin.ofName? name = none)
    (h : Tidy after d room (.identifier name :: ts)) : Tidy true d room ts := by
  refine .of_endsOperand h.separated rfl (.inr ?_) h.nested h.fit
  rintro f he
  cases he
  simp at hname

theorem Tidy.of_bare {f : Builtin} (h : Tidy after d room (.identifier f.name :: ts))
    (hhead : ts.head? ≠ some .leftParen) : Tidy true d room ts :=
  .of_endsOperand h.separated rfl (.inl hhead) h.nested h.fit

theorem Tidy.of_call {f : Builtin}
    (h : Tidy after d room (.identifier f.name :: .leftParen :: ts)) :
    Tidy false (d + 1) ((f.arity - 1) :: room) ts := by
  have hfit : commasFit 0 ((f.arity - 1) :: room) ts = true := by
    simpa [commasFit, roomAfter] using h.fit
  exact ⟨h.separated.tail.tail, by simp, h.nested, hfit⟩

theorem Tidy.of_operator {op : Operator} (h : Tidy after d room (.operator op :: ts)) :
    Tidy false d room ts :=
  ⟨h.separated.tail, by simp, h.nested, h.fit⟩

theorem Tidy.of_leftParen (h : Tidy after d room (.leftParen :: ts)) :
    Tidy false (d + 1) (0 :: room) ts :=
  ⟨h.separated.tail, by simp, h.nested, h.fit⟩

theorem Tidy.of_comma (h : Tidy after d room (.comma :: ts)) :
    ∃ k outer, room = (k + 1) :: outer ∧ Tidy false d (k :: outer) ts := by
  have hnest : nestingFault? d ts = none := by
    have := h.nested
    simp only [nestingFault?] at this
    split at this
    · contradiction
    · exact this
  match room, h.fit with
  | (k + 1) :: outer, hfit => exact ⟨k, outer, rfl, h.separated.tail, by simp, hnest, hfit⟩

theorem Tidy.closes (h : Tidy after d room (.rightParen :: ts)) :
    Closes d room (.rightParen :: ts) := by
  have hnest := h.nested
  cases d with
  | zero => contradiction
  | succ d => exact .closed (.of_endsOperand h.separated rfl (.inr (by simp)) hnest h.fit)

/-- What stands behind the partner of a parenthesis is shorter. -/
theorem length_lt_append_cons (t : Token) (us : List Token) (u : Token) (ts : List Token) :
    ts.length < (t :: us ++ u :: ts).length := by
  simp only [List.cons_append, List.length_cons, List.length_append]
  omega

/-- The next tokens are a loose expression up to the end or to the closing parenthesis. -/
theorem Tidy.exists_loose (h : Tidy after d room ts) :
    ∃ m us rest, ts = us ++ rest ∧ Loose after m us ∧ m ≤ room.headD 0 ∧ Closes d room rest := by
  -- The descent goes on twice from a parenthesis, into it and behind its partner, and the tokens
  -- behind the partner are no tail that a structural induction would know.
  induction hn : ts.length using Nat.strongRecOn generalizing after d room ts with
  | ind n ih =>
    subst hn
    cases ts with
    | nil =>
      have hd : d = 0 := by simpa [nestingFault?] using h.nested
      subst hd
      exact ⟨0, [], [], rfl, .nil after, Nat.zero_le _, .ended room⟩
    | cons t ts =>
      cases t with
      | number value =>
        obtain rfl := h.after_eq_false rfl
        obtain ⟨m, us, rest, rfl, hl, hm, hc⟩ := ih _ (by simp) h.of_number rfl
        exact ⟨m, _, rest, rfl, .number value hl, hm, hc⟩
      | identifier name =>
        obtain rfl := h.after_eq_false rfl
        cases hname : Builtin.ofName? name with
        | none =>
          obtain ⟨m, us, rest, rfl, hl, hm, hc⟩ := ih _ (by simp) (h.of_var hname) rfl
          exact ⟨m, _, rest, rfl, .var hname hl, hm, hc⟩
        | some f =>
          obtain rfl := Builtin.name_of_ofName? hname
          by_cases hhead : ts.head? = some .leftParen
          · obtain ⟨ws, rfl⟩ := List.head?_eq_some_iff.mp hhead
            have hlt := length_lt_append_cons (.identifier f.name) [] .leftParen ws
            obtain ⟨k, us, rest, rfl, hl, hk, hc⟩ := ih _ hlt h.of_call rfl
            cases hc with
            | closed hrest =>
              have hlt := length_lt_append_cons (.identifier f.name) (.leftParen :: us)
              obtain ⟨m, vs, rest, rfl, hl', hm, hc⟩ := ih _ (hlt _ _) hrest rfl
              have hk' : k < f.arity := by
                have hpos := f.arity_pos
                simp only [List.headD_cons] at hk
                omega
              exact ⟨m, _, rest, by simp, .call hk' hl hl', hm, hc⟩
          · obtain ⟨m, us, rest, rfl, hl, hm, hc⟩ := ih _ (by simp) (h.of_bare hhead) rfl
            exact ⟨m, _, rest, rfl, .bare f hl, hm, hc⟩
      | operator op =>
        obtain ⟨m, us, rest, rfl, hl, hm, hc⟩ := ih _ (by simp) h.of_operator rfl
        exact ⟨m, _, rest, rfl, .operator after op hl, hm, hc⟩
      | leftParen =>
        obtain rfl := h.after_eq_false rfl
        obtain ⟨k, us, rest, rfl, hl, hk, hc⟩ := ih _ (by simp) h.of_leftParen rfl
        obtain rfl : k = 0 := by simpa using hk
        cases hc with
        | closed hrest =>
          have hlt := length_lt_append_cons .leftParen us
          obtain ⟨m, vs, rest, rfl, hl', hm, hc⟩ := ih _ (hlt _ _) hrest rfl
          exact ⟨m, _, rest, by simp, .parens hl hl', hm, hc⟩
      | comma =>
        obtain ⟨k, outer, rfl, hts⟩ := h.of_comma
        obtain ⟨m, us, rest, rfl, hl, hm, hc⟩ := ih _ (by simp) hts rfl
        refine ⟨m + 1, _, rest, rfl, .comma after hl, Nat.succ_le_succ hm, ?_⟩
        cases hc with
        | ended => exact .ended _
        | closed hrest => exact .closed hrest
      | rightParen => exact ⟨0, [], _, rfl, .nil after, Nat.zero_le _, h.closes⟩

namespace Token

theorem admits_of_endsOperand (ht : t.endsOperand = false) (u : Token) : t.admits u = true := by
  unfold admits
  split
  · contradiction
  · simp [ht]

theorem admits_of_startsOperand (hu : u.startsOperand = false) (t : Token) :
    t.admits u = true := by
  unfold admits
  split
  · contradiction
  · simp [hu]

theorem Separated.cons (h : Separated ts) (ht : t.endsOperand = false) : Separated (t :: ts) :=
  List.isChain_cons.mpr ⟨fun u _ => admits_of_endsOperand ht u, h⟩

theorem Separated.concat (h : Separated ts) (hu : u.startsOperand = false) :
    Separated (ts ++ [u]) := by
  refine List.isChain_append.mpr ⟨h, .singleton u, fun t _ u' hu' => ?_⟩
  cases hu'
  exact admits_of_startsOperand hu t

/-- A token that belongs to no operand joins tokens in which operands are separated. -/
theorem Separated.join (hts : Separated ts) (hus : Separated us) (hs : t.startsOperand = false)
    (he : t.endsOperand = false) : Separated (ts ++ t :: us) :=
  List.isChain_split.mpr ⟨hts.concat hs, hus.cons he⟩

theorem Separated.parens (h : Separated ts) : Separated (.leftParen :: ts ++ [.rightParen]) :=
  (h.cons rfl).concat rfl

end Token

mutual

theorem separated_of_denotes {n : Nat} {ts : List Token} {t : Tree} :
    Denotes n ts t → Separated ts
  | .number _ | .var _ => .singleton _
  | .call f h => by
    have hargs := (separated_of_denoteArguments h).parens
    refine List.isChain_cons_cons.mpr ⟨?_, hargs⟩
    simp [admits]
  | .parens h => (separated_of_denotes h).parens
  | .tighter h => separated_of_denotes h
  | .left _ hl hr | .right _ hl hr =>
    (separated_of_denotes hl).join (separated_of_denotes hr) rfl rfl

theorem separated_of_denoteArguments {ts : List Token} {args : List Tree} :
    DenoteArguments ts args → Separated ts
  | .none => .nil
  | .one h => separated_of_denotes h
  | .more h hs => (separated_of_denotes h).join (separated_of_denoteArguments hs) rfl rfl

end

mutual

theorem commasFit_of_denotes {n : Nat} {ts : List Token} {t : Tree} (next : Nat) (room : List Nat)
    (rest : List Token) : Denotes n ts t → t.WellFormed →
      commasFit next room (ts ++ rest) = commasFit 0 room rest
  | .number _, _ => rfl
  | .var name, hw => by
    have hname := Tree.wellFormed_var.mp hw
    simp [commasFit, roomAfter, hname]
  | .call f h, hw => by
    obtain ⟨hlen, hw⟩ := Tree.wellFormed_call.mp hw
    have hargs := commasFit_of_denoteArguments 0 room (.rightParen :: rest) h
      (by rw [hlen]; exact Nat.ne_of_gt f.arity_pos) hw
    rw [hlen] at hargs
    simpa [commasFit, roomAfter] using hargs
  | .parens h, hw => by
    have hin := commasFit_of_denotes 0 (next :: room) (.rightParen :: rest) h hw
    simpa [commasFit] using hin
  | .tighter h, hw => commasFit_of_denotes next room rest h hw
  | @Denotes.left _ op _ us _ _ _ hl hr, hw | @Denotes.right _ op _ us _ _ _ hl hr, hw => by
    obtain ⟨hwl, hwr⟩ := Tree.wellFormed_operation.mp hw
    have hleft := commasFit_of_denotes next room (.operator op :: us ++ rest) hl hwl
    have hright := commasFit_of_denotes 0 room rest hr hwr
    simpa [commasFit, roomAfter] using hleft.trans hright

theorem commasFit_of_denoteArguments {ts : List Token} {args : List Tree} (next : Nat)
    (room : List Nat) (rest : List Token) : DenoteArguments ts args → args.length ≠ 0 →
      (∀ t ∈ args, t.WellFormed) →
      commasFit next ((args.length - 1) :: room) (ts ++ rest) = commasFit 0 (0 :: room) rest
  | .none, hne, _ => by contradiction
  | .one h, _, hw => commasFit_of_denotes next (0 :: room) rest h (hw _ (by simp))
  | @DenoteArguments.more _ us _ u args h hs, _, hw => by
    have hfirst := commasFit_of_denotes next ((args.length + 1) :: room) (.comma :: us ++ rest) h
      (hw _ (by simp))
    have hlater := commasFit_of_denoteArguments 0 room rest hs (by simp)
      (fun t ht => hw t (List.mem_cons_of_mem _ ht))
    simpa [commasFit] using hfirst.trans hlater

end

theorem noSurplus_of_denotes {n : Nat} {s : Tree} (h : Denotes n ts s) (hw : s.WellFormed) :
    NoSurplus ts := by
  refine ⟨separated_of_denotes h, ?_⟩
  simpa [commasFit] using commasFit_of_denotes 0 [] [] h hw

/-- Tokens of sound nesting and full balance are an infix expression if and only if nothing is
too many. -/
theorem exists_denotes_iff_noSurplus (hnest : nestingFault? 0 ts = none) (hb : balance ts = 1) :
    (∃ t : Tree, Denotes Level.expression ts t ∧ t.WellFormed) ↔ NoSurplus ts := by
  constructor
  · rintro ⟨t, hd, hw⟩
    exact noSurplus_of_denotes hd hw
  · rintro ⟨hsep, hfit⟩
    have h : Tidy false 0 [] ts := ⟨hsep, by simp, hnest, hfit⟩
    obtain ⟨m, us, rest, rfl, hl, hm, hc⟩ := h.exists_loose
    obtain rfl : m = 0 := by simpa using hm
    cases hc with
    | ended =>
      rw [List.append_nil] at hb ⊢
      obtain ⟨args, hd, hlen, hw⟩ : AreArguments 1 us := hl.complete hb
      match args, hd with
      | [t], .one hd => exact ⟨t, hd, hw t (by simp)⟩

end ReversePolish
