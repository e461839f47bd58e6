import ReversePolish.Proofs.Session.Lines
import ReversePolish.Proofs.Session.Outcomes
import ReversePolish.Session.Turns

/-! # How an expression is dealt with by any session
Whatever its calculator remembers, a session asks for the unbound variables in their order, each
answer is one line, and the first that is no numeral is the last. It changes only if all answers
are numerals, and it writes an outcome unless a line could not be read. -/
namespace ReversePolish
open Text

/-! ## Replies that break off -/

section
variable {us replies : List Reply} {n : Nat} {input : List UInt8}

theorem Text.BreakOff.mem (h : BreakOff replies) : .malformed ∈ replies := by
  obtain ⟨before, rfl, -⟩ := h
  simp

theorem Text.BreakOff.append (h : BreakOff replies) (hus : .malformed ∉ us) :
    BreakOff (us ++ replies) := by
  obtain ⟨before, rfl, hbefore⟩ := h
  exact ⟨us ++ before, by simp, by simp [hus, hbefore]⟩

/-- A reply that could not be read is no reply to a request beyond the last line. -/
theorem Text.BreakOff.le_length_lines (h : BreakOff (firstReplies n input)) :
    n ≤ (lines input).length := by
  obtain ⟨before, hsplit, -⟩ := h
  by_contra hlt
  obtain ⟨k, hk⟩ := Nat.exists_eq_succ_of_ne_zero (Nat.sub_ne_zero_of_lt (Nat.lt_of_not_le hlt))
  rw [firstReplies_eq_lines, hk, List.replicate_succ', ← List.append_assoc] at hsplit
  have hlast := (List.append_inj' hsplit rfl).2
  simp at hlast

theorem Text.BreakOff.firstReplies_eq (h : BreakOff (firstReplies n input)) :
    firstReplies n input = ((lines input).take n).map decodeLine := by
  rw [firstReplies_eq_lines, Nat.sub_eq_zero_of_le h.le_length_lines]
  simp

/-- Replies that break off are those to the lines up to the first that cannot be read. -/
theorem Text.BreakOff.eq_of_lines {line : List UInt8} {before after : List (List UInt8)}
    (h : BreakOff (firstReplies n input)) (hlines : lines input = before ++ line :: after)
    (hbefore : .malformed ∉ before.map decodeLine) (hline : decodeLine line = .malformed) :
    n = before.length + 1 ∧ firstReplies n input = (before ++ [line]).map decodeLine := by
  have hreplies := h.firstReplies_eq
  obtain ⟨heard, hsplit, hheard⟩ := h
  have hall : (lines input).map decodeLine =
      heard ++ .malformed :: ((lines input).drop n).map decodeLine := by
    rw [← List.singleton_append, ← List.append_assoc, ← hsplit, hreplies, ← List.map_append,
      List.take_append_drop]
  have hall' : (lines input).map decodeLine =
      before.map decodeLine ++ .malformed :: after.map decodeLine := by
    rw [hlines, List.map_append, List.map_cons, hline]
  have heq : heard = before.map decodeLine :=
    calc heard = ((lines input).map decodeLine).takeWhile (· != .malformed) := by
          rw [hall, takeWhile_bne hheard]
      _ = before.map decodeLine := by rw [hall', takeWhile_bne hbefore]
  have hlength := congrArg List.length hsplit
  rw [length_firstReplies, heq] at hlength
  exact ⟨by simpa using hlength, by rw [hsplit, heq, List.map_append, List.map_singleton, hline]⟩

end

namespace Session

/-! ## One expression -/

/-- What follows the answers for the variables of an expression. Only if it was scanned and all
answers were numerals may the session have changed. -/
inductive Verdict (s : Session) (text : String) (answers : List Reply) :
    Option (Except Error Float) → Outcome (Option Float) → Prop
  | computed {outcome : Except Error Float} {t : Session} (scan : ∃ ts, tokenize text = .ok ts)
      (read : ∀ r ∈ answers, (Numeral.read? (typed r).toList).isSome) :
      Verdict s text answers (some outcome) ⟨.ok outcome.toOption, t⟩
  | refused {e : Error} (readable : .malformed ∉ answers) :
      Verdict s text answers (some (.error e)) ⟨.ok none, s⟩
  | broken (breaks : BreakOff answers) : Verdict s text answers none ⟨.error .invalidUtf8, s⟩

/-- What comes after the answers for `asked`. -/
structure Concludes (s : Session) (text : String) (input : List UInt8) (asked : List String)
    (told : Option (Except Error Float)) (p : Played (Outcome (Option Float))) : Prop where
  exchange : p.exchange = (told.map fun outcome => Utterance.said (outcomeLine outcome)).toList
  rest : p.rest = afterLines asked.length input
  verdict : Verdict s text (firstReplies asked.length input) told p.value

/-- The values of `asked` were asked for, and this outcome was told. -/
structure Dealt (s : Session) (text : String) (input : List UInt8) (asked : List String)
    (told : Option (Except Error Float)) (p : Played (Outcome (Option Float))) : Prop where
  begins : asked <+: unbound s.bindings text
  exchange : p.exchange = questions asked input ++
    (told.map fun outcome => Utterance.said (outcomeLine outcome)).toList
  rest : p.rest = afterLines asked.length input
  verdict : Verdict s text (firstReplies asked.length input) told p.value

section
variable {s : Session} {text : String} {input : List UInt8} {n : Nat} {asked : List String}
  {told : Option (Except Error Float)} {p : Played (Outcome (Option Float))}

theorem exchange_conclude (outcome : Except Error Float) :
    ((s.conclude text outcome).play input).exchange = [.said (outcomeLine outcome)] := by
  cases outcome <;> rfl

theorem rest_conclude (outcome : Except Error Float) :
    ((s.conclude text outcome).play input).rest = input := by
  cases outcome <;> rfl

theorem value_conclude (outcome : Except Error Float) :
    ((s.conclude text outcome).play input).value = ⟨.ok outcome.toOption, s⟩ := by
  cases outcome <;> rfl

theorem read_of_mem_firstReplies (h : ∀ m < n, (valueAfter m input).isSome) :
    ∀ r ∈ firstReplies n input, (Numeral.read? (typed r).toList).isSome := by
  intro r hr
  rw [firstReplies_eq_map_range] at hr
  obtain ⟨m, hm, rfl⟩ := List.mem_map.mp hr
  exact h m (List.mem_range.mp hm)

theorem malformed_notMem_of_read {answers : List Reply}
    (h : ∀ r ∈ answers, (Numeral.read? (typed r).toList).isSome) : .malformed ∉ answers := by
  intro hm
  have hread := h _ hm
  contradiction

theorem concludes_computed (scan : ∃ ts, tokenize text = .ok ts)
    (read : ∀ m < asked.length, (valueAfter m input).isSome) (vars : Bindings) :
    let r := s.calculator.evaluate text vars
    Concludes s text input asked (some r.answer)
      ((Dialogue.noteAll r.events (conclude { s with calculator := r.calculator } text
        r.answer)).play (afterLines asked.length input)) := by
  intro r
  rw [Dialogue.play_noteAll]
  refine ⟨?_, rest_conclude _, ?_⟩
  · rw [Played.exchange_after_noted, exchange_conclude]
    rfl
  · rw [Played.after_value, value_conclude]
    exact .computed scan (read_of_mem_firstReplies read)

theorem concludes_refused (readable : .malformed ∉ firstReplies asked.length input) (e : Error) :
    Concludes s text input asked (some (.error e))
      ((s.conclude text (.error e)).play (afterLines asked.length input)) where
  exchange := exchange_conclude _
  rest := rest_conclude _
  verdict := by
    rw [value_conclude]
    exact .refused readable

theorem concludes_broken (breaks : BreakOff (firstReplies asked.length input)) :
    Concludes s text input asked none
      ⟨⟨.error .invalidUtf8, s⟩, [], afterLines asked.length input⟩ where
  exchange := rfl
  rest := rfl
  verdict := .broken breaks

/-- The questions come before what follows them. -/
theorem Dealt.after {q : Played Values} (hbegins : asked <+: unbound s.bindings text)
    (hq : q.exchange = questions asked input) (hp : Concludes s text input asked told p) :
    Dealt s text input asked told (p.after q.transcript) where
  begins := hbegins
  exchange := by
    have hsaid : q.transcript.filter (fun u => u.event?.isNone) = questions asked input := hq
    rw [Played.exchange_after, hsaid, hp.exchange]
  rest := hp.rest
  verdict := hp.verdict

theorem exists_dealt_evaluate (s : Session) (text : String) (input : List UInt8) :
    ∃ asked told, Dealt s text input asked told ((s.evaluate text).play input) := by
  cases hnames : freeVariables text with
  | error e =>
    have hplay : (s.evaluate text).play input =
        ((s.conclude text (.error (.lex e))).play input).after [] := by
      rw [Session.evaluate, hnames]
      rfl
    rw [hplay]
    exact ⟨[], _, .after (q := ⟨.malformed, [], input⟩) List.nil_prefix rfl
      (concludes_refused List.not_mem_nil _)⟩
  | ok names =>
    obtain ⟨value, transcript, rest, hq⟩ : ∃ value transcript rest,
        (askValues s.bindings names).play input = ⟨value, transcript, rest⟩ := ⟨_, _, _, rfl⟩
    have hasked := asked_of_freeVariables hnames s.bindings input
    have hunbound : unbound s.bindings text = names.filter fun name => !s.bindings.binds name := by
      rw [unbound, hnames]
    obtain ⟨ts, hts, -⟩ := map_eq_ok.mp hnames
    rw [hq, ← hunbound] at hasked
    simp only [Session.evaluate, hnames, Dialogue.play_bind, hq]
    cases hasked with
    | complete values read exchange hrest hvalue =>
      subst hvalue hrest
      have hread (m : Nat) := isSome_of_read read (m := m)
      exact ⟨_, _, .after List.prefix_rfl exchange (concludes_computed ⟨ts, hts⟩ hread _)⟩
    | stopped n name here before failed exchange hrest hvalue =>
      have hlength : ((unbound s.bindings text).take (n + 1)).length = n + 1 :=
        List.length_take_of_le (List.getElem?_eq_some_iff.mp here).1
      have hprefix := List.take_prefix (n + 1) (unbound s.bindings text)
      have hbefore := malformed_notMem_of_read (read_of_mem_firstReplies before)
      have hanswers : firstReplies (n + 1) input =
          firstReplies n input ++ [(readLine (afterLines n input)).1] := firstReplies_add n 1 input
      generalize (unbound s.bindings text).take (n + 1) = asked at exchange hlength hprefix
      rw [← hlength] at hrest hanswers
      subst hrest
      by_cases hm : (readLine (afterLines n input)).1 = .malformed
      · obtain rfl : value = .malformed := hvalue.trans (if_pos hm)
        have hbreaks : BreakOff (firstReplies asked.length input) :=
          ⟨_, hm ▸ hanswers, hbefore⟩
        exact ⟨_, _, .after hprefix exchange (concludes_broken hbreaks)⟩
      · obtain rfl : value = .invalid name (typedAfter n input) := hvalue.trans (if_neg hm)
        have hreadable : .malformed ∉ firstReplies asked.length input := by
          rw [hanswers]
          simpa [hbefore] using Ne.symm hm
        exact ⟨_, _, .after hprefix exchange (concludes_refused hreadable _)⟩

end

/-! ## Questions and answers -/

theorem questions_eq_flatMap (names : List String) (input : List UInt8) :
    questions names input =
      ((names.map question).zip (firstReplies names.length input)).flatMap
        Utterance.ofQuestion := by
  induction names generalizing input with
  | nil => rfl
  | cons name names ih => simp [questions, ih, firstReplies, Utterance.ofQuestion]

theorem filterMap_ofQuestion (qs : List (String × Reply)) :
    (qs.flatMap Utterance.ofQuestion).filterMap Utterance.reply? = qs.map Prod.snd := by
  induction qs with
  | nil => rfl
  | cons q qs ih => exact congrArg (q.2 :: ·) ih

end Session
end ReversePolish
