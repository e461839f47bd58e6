import Mathlib.Data.List.Forall2
import Mathlib.Data.List.Induction
import Mathlib.Data.List.Nodup
import Mathlib.Data.List.TakeWhile
import ReversePolish.CommandLine.Contract

/-! # Bindings on the command line
Each argument gives one pair, and of several pairs with the same name the last one counts. So the
order of the arguments makes no difference if all names are different. -/
namespace ReversePolish

namespace Bindings

variable {pairs pairs' : List (String × Float)} {name : String} {value : Float}

theorem entries_ofList (pairs : List (String × Float)) :
    (ofList pairs).entries = pairs.reverse := by
  induction pairs using List.reverseRecOn with
  | nil => rfl
  | append_singleton pairs pair ih => simp [ofList_concat _ pair.1 pair.2, bind, ih]

/-- The value of a name is the one that is given last. -/
theorem find?_ofList_eq_some :
    (ofList pairs).find? name = some value ↔
      ∃ before after, pairs = before ++ (name, value) :: after ∧ name ∉ after.map Prod.fst := by
  rw [find?, entries_ofList, List.lookup_eq_some_iff]
  constructor
  · rintro ⟨after, before, hpairs, hafter⟩
    refine ⟨before.reverse, after.reverse, ?_, ?_⟩
    · simpa using congrArg List.reverse hpairs
    · intro hmem
      obtain ⟨pair, hpair, rfl⟩ := List.mem_map.mp hmem
      simpa using hafter pair (List.mem_reverse.mp hpair)
  · rintro ⟨before, after, rfl, hafter⟩
    refine ⟨after.reverse, before.reverse, by simp, fun pair hpair => ?_⟩
    have hmem := List.mem_map_of_mem (f := Prod.fst) (List.mem_reverse.mp hpair)
    exact bne_iff_ne.mpr fun he => hafter (he ▸ hmem)

/-- If no name is given twice, every pair counts. -/
theorem find?_ofList_eq_some_iff_mem (h : (pairs.map Prod.fst).Nodup) :
    (ofList pairs).find? name = some value ↔ (name, value) ∈ pairs := by
  rw [find?_ofList_eq_some]
  constructor
  · rintro ⟨before, after, rfl, -⟩
    simp
  · intro hmem
    obtain ⟨before, after, rfl⟩ := List.append_of_mem hmem
    rw [List.map_append, List.map_cons] at h
    exact ⟨before, after, rfl, (List.nodup_cons.mp h.of_append_right).1⟩

theorem agrees_of_perm (hperm : pairs.Perm pairs') (h : (pairs.map Prod.fst).Nodup) :
    (ofList pairs).Agrees (ofList pairs') := by
  have h' : (pairs'.map Prod.fst).Nodup := (hperm.map Prod.fst).nodup_iff.mp h
  intro name
  refine Option.ext fun value => ?_
  rw [find?_ofList_eq_some_iff_mem h, find?_ofList_eq_some_iff_mem h', hperm.mem_iff]

end Bindings

namespace CommandLine

/-- The first equals sign is the only one that matters. -/
theorem gives_iff_of_split {arg name : String} {value : Float} {before after : List Char}
    (harg : arg.toList = before ++ '=' :: after) (h : '=' ∉ before) :
    Gives arg name value ↔
      name = .ofList (Text.trimmed before) ∧ Numeral.read? (Text.trimmed after) = some value := by
  constructor
  · rintro ⟨before', after', harg', h', hname, hvalue⟩
    have hsplit : before ++ '=' :: after = before' ++ '=' :: after' := harg.symm.trans harg'
    have hbefore := congrArg (List.takeWhile (· != '=')) hsplit
    have hafter := congrArg (List.dropWhile (· != '=')) hsplit
    rw [Text.takeWhile_bne h, Text.takeWhile_bne h'] at hbefore
    rw [Text.dropWhile_bne h, Text.dropWhile_bne h', List.cons.injEq] at hafter
    exact ⟨hbefore ▸ hname, hafter.2 ▸ hvalue⟩
  · rintro ⟨hname, hvalue⟩
    exact ⟨before, after, harg, h, hname, hvalue⟩

/-- The empty text is no numeral, so it needs no case of its own but for the message. -/
theorem readBinding_eq_ok {arg name : String} {value : Float} :
    readBinding arg = .ok (name, value) ↔ Gives arg name value := by
  by_cases harg : '=' ∈ arg.toList
  · obtain ⟨before, after, hsplit, hbefore⟩ := List.eq_append_cons_of_mem harg
    rw [gives_iff_of_split hsplit hbefore]
    simp only [readBinding, hsplit, Text.takeWhile_bne hbefore, Text.dropWhile_bne hbefore]
    cases hdigits : Text.trimmed after with
    | nil =>
      have hempty : Numeral.read? [] = none := rfl
      simp [hempty]
    | cons c digits =>
      cases hread : Numeral.read? (c :: digits) with
      | none => simp [hread]
      | some x => simp [hread, eq_comm]
  · have hdrop : arg.toList.dropWhile (· != '=') = [] :=
      List.dropWhile_eq_nil_iff.mpr (Text.bne_of_notMem harg)
    simp only [readBinding, hdrop]
    refine iff_of_false (by simp) ?_
    rintro ⟨before, after, hsplit, -⟩
    exact harg (by simp [hsplit])

end CommandLine
end ReversePolish
