import ReversePolish.Proofs.Session.Endings

/-! # Failures before evaluation
A request whose expression is never evaluated leaves the session as it was, bindings, calculator
and all. If the reason is a line that cannot be read, the request stops there: it has written its
prompts up to that line and nothing else, and the next request goes on with the line after. -/
namespace ReversePolish.Session
open Text

section
variable {s : Session} {text : String} {input : List UInt8} {asked : List String}
  {told : Option (Except Error Float)} {p : Played (Outcome (Option Float))}

theorem Dealt.replies (h : Dealt s text input asked told p) :
    p.replies = firstReplies asked.length input := by
  rw [Played.replies_eq_exchange, h.exchange, List.filterMap_append, replies_questions]
  cases told <;> simp [Utterance.reply?]

/-- None of the answers would have been a numeral. -/
theorem Hindrance.exists_unread {answers : List Reply} (h : Hindrance text answers)
    (scan : ∃ ts, tokenize text = .ok ts) :
    ∃ r ∈ answers, Numeral.read? (typed r).toList = none := by
  obtain ⟨ts, hts⟩ := scan
  cases h with
  | unscanned hscan => simp [hts] at hscan
  | refused heard failed => exact ⟨_, heard, failed⟩
  | ended heard => exact ⟨_, heard, rfl⟩
  | malformed heard => exact ⟨_, heard, rfl⟩

theorem Dealt.session_eq (h : Dealt s text input asked told p) (hp : Hindrance text p.replies) :
    p.value.session = s := by
  have hverdict := h.verdict
  rw [← h.replies] at hverdict
  generalize p.value = value at hverdict
  cases hverdict with
  | computed scan read =>
    obtain ⟨r, hr, hunread⟩ := hp.exists_unread scan
    have hread := read r hr
    simp [hunread] at hread
  | refused => rfl
  | broken => rfl

/-! ## Lines that cannot be read -/

theorem Dealt.broken_of_malformed (h : Dealt s text input asked told p)
    (hm : .malformed ∈ p.replies) :
    BreakOff (firstReplies asked.length input) ∧ told = none ∧
      p.value = ⟨.error .invalidUtf8, s⟩ := by
  have hverdict := h.verdict
  rw [h.replies] at hm
  generalize p.value = value at hverdict
  cases hverdict with
  | computed scan read => exact absurd hm (malformed_notMem_of_read read)
  | refused readable => exact absurd hm readable
  | broken breaks => exact ⟨breaks, rfl, rfl⟩

end

section
variable {α β : Type} {input : List UInt8} {asked : List String} {p : Played (Outcome α)}

theorem join_output_ofQuestion (qs : List (String × Reply)) :
    String.join ((qs.flatMap Utterance.ofQuestion).map Utterance.output) =
      String.join (qs.map Prod.fst) := by
  induction qs with
  | nil => rfl
  | cons q qs ih => simp [Utterance.ofQuestion, Utterance.output, ih]

/-- Questions whose answers break off have gone as far as the line that cannot be read. -/
theorem broken_of_breakOff (hbreaks : BreakOff (firstReplies asked.length input))
    (hanswer : p.value.answer = .error .invalidUtf8)
    (hexchange : p.exchange =
      (asked.zip (firstReplies asked.length input)).flatMap Utterance.ofQuestion)
    (hrest : p.rest = afterLines asked.length input) : Broken input asked p := by
  have hreplies : p.replies = firstReplies asked.length input := by
    rw [Played.replies_eq_exchange, hexchange, filterMap_ofQuestion, List.map_snd_zip (by simp)]
  refine ⟨hanswer, hreplies ▸ hexchange, ?_, hbreaks.le_length_lines,
    hreplies.trans hbreaks.firstReplies_eq, hreplies ▸ hbreaks, hrest, ?_⟩
  · rw [Played.output_eq_exchange, hexchange, join_output_ofQuestion, List.map_fst_zip (by simp)]
  · rw [hrest, lines_afterLines]

theorem Broken.firstReplies_eq (h : Broken input asked p) :
    firstReplies asked.length input = p.replies := by
  rw [firstReplies_eq_lines, Nat.sub_eq_zero_of_le h.enough, h.replies]
  simp

/-- One more question, which was answered by a line that can be read, comes before. -/
theorem Broken.cons {line prompt : String} (h : Broken (afterLine input) asked p)
    (hline : (readLine input).1 = .line line) :
    Broken input (prompt :: asked) (p.after [.said prompt, .heard (.line line)]) := by
  have hfirst : firstReplies (prompt :: asked).length input = [.line line] ++ p.replies := by
    rw [List.length_cons, firstReplies, hline, h.firstReplies_eq]
    rfl
  refine broken_of_breakOff ?_ h.answer ?_ h.rest
  · rw [hfirst]
    exact h.breaks.append (by simp)
  · rw [hfirst, Played.exchange_after, h.exchange]
    rfl

theorem Broken.relabel (h : Broken input asked p) (f : α → β) :
    Broken input asked (relabel f p) where
  answer := by
    show p.value.answer.map f = _
    rw [h.answer]
    rfl
  exchange := h.exchange
  output := h.output
  enough := h.enough
  replies := h.replies
  breaks := h.breaks
  rest := h.rest
  following := h.following

end

/-! ## Requests -/

section
variable {s : Session} {text : String} {input : List UInt8}

theorem session_evaluate_of_hindrance (h : Hindrance text ((s.evaluate text).play input).replies) :
    ((s.evaluate text).play input).value.session = s := by
  obtain ⟨asked, told, hdealt⟩ := exists_dealt_evaluate s text input
  exact hdealt.session_eq h

theorem exists_broken_evaluate (h : .malformed ∈ ((s.evaluate text).play input).replies) :
    ∃ asked, asked <+: prompts s.bindings (readLine input).1 (.evaluate text) ∧
      Broken input asked ((s.evaluate text).play input) := by
  obtain ⟨asked, told, hdealt⟩ := exists_dealt_evaluate s text input
  obtain ⟨hbreaks, rfl, hvalue⟩ := hdealt.broken_of_malformed h
  have hlength : (asked.map question).length = asked.length := List.length_map _
  refine ⟨asked.map question, hdealt.begins.map _, broken_of_breakOff ?_ ?_ ?_ ?_⟩
  · rwa [hlength]
  · rw [hvalue]
  · rw [hdealt.exchange, questions_eq_flatMap, hlength]
    exact List.append_nil _
  · rw [hlength, hdealt.rest]

theorem replies_runOnce_of_line {line : String} (h : (readLine input).1 = .line line)
    (hblank : trim line ≠ "") :
    (s.runOnce.play input).replies =
      .line line :: ((s.evaluate (trim line)).play (afterLine input)).replies := by
  rw [play_runOnce_of_line h hblank]
  rfl

theorem session_runOnce_of_hindered (h : Hindered .runOnce (s.runOnce.play input).replies) :
    (s.runOnce.play input).value.session = s := by
  cases hline : (readLine input).1 with
  | ended => rw [play_runOnce_of_ended hline]
  | malformed => rw [play_runOnce_of_malformed hline]
  | line line =>
    by_cases hblank : trim line = ""
    · rw [play_runOnce_of_blank hline hblank]
    · rw [replies_runOnce_of_line hline hblank] at h
      rw [play_runOnce_of_line hline hblank]
      cases h with
      | entry h => simp at h
      | runOnce h => exact session_evaluate_of_hindrance h

theorem exists_broken_runOnce (h : .malformed ∈ (s.runOnce.play input).replies) :
    ∃ asked, asked <+: prompts s.bindings (readLine input).1 .runOnce ∧
      Broken input asked (s.runOnce.play input) := by
  cases hline : (readLine input).1 with
  | ended =>
    rw [play_runOnce_of_ended hline] at h
    simp [Played.replies, Utterance.reply?] at h
  | malformed =>
    have hfirst : firstReplies 1 input = [.malformed] := hline ▸ rfl
    rw [play_runOnce_of_malformed hline]
    refine ⟨["Enter expression: "], List.prefix_rfl, broken_of_breakOff ?_ rfl ?_ rfl⟩
    · exact ⟨[], hfirst, List.not_mem_nil⟩
    · rw [List.length_singleton, hfirst]
      rfl
  | line line =>
    by_cases hblank : trim line = ""
    · rw [play_runOnce_of_blank hline hblank] at h
      simp [Played.replies, Utterance.reply?] at h
    · rw [replies_runOnce_of_line hline hblank] at h
      have hm := (List.mem_cons.mp h).resolve_left (by simp)
      obtain ⟨asked, hasked, hbroken⟩ := exists_broken_evaluate hm
      rw [play_runOnce_of_line hline hblank]
      exact ⟨"Enter expression: " :: asked, List.cons_prefix_cons.mpr ⟨rfl, hasked⟩,
        (hbroken.relabel _).cons hline⟩

end

variable {s : Session} {input : List UInt8} {request : Request}

theorem Broken.serveAll {asked : List String} (h : Broken input asked (s.serve input request))
    (hs : (s.serve input request).value.session = s) (more : List Request) :
    s.serveAll input (request :: more) =
      s.serve input request :: s.serveAll (afterLines asked.length input) more := by
  rw [Session.serveAll, hs, h.rest]

/-- A request that something keeps from having its expression evaluated leaves the session as it
was. If it has met a line that cannot be read, it stops there with the error, it has written only
the prompts that the lines up to there answer, and later requests go on with the next line. -/
theorem serve_hindered (h : Hindered request (s.serve input request).replies) :
    (s.serve input request).value.session = s ∧
      (.malformed ∈ (s.serve input request).replies →
        ∃ asked, asked <+: prompts s.bindings (readLine input).1 request ∧
          Broken input asked (s.serve input request) ∧
          ∀ more, s.serveAll input (request :: more) =
            s.serve input request :: s.serveAll (afterLines asked.length input) more) := by
  have hsession : (s.serve input request).value.session = s := by
    cases request with
    | run => cases h
    | evaluate text =>
      cases h with
      | evaluate h => exact session_evaluate_of_hindrance h
    | runOnce => exact session_runOnce_of_hindered h
  have hbroken (hm : .malformed ∈ (s.serve input request).replies) :
      ∃ asked, asked <+: prompts s.bindings (readLine input).1 request ∧
        Broken input asked (s.serve input request) := by
    cases request with
    | run => cases h
    | evaluate text =>
      obtain ⟨asked, hasked, hbroken⟩ := exists_broken_evaluate hm
      exact ⟨asked, hasked, hbroken.relabel _⟩
    | runOnce =>
      obtain ⟨asked, hasked, hbroken⟩ := exists_broken_runOnce hm
      exact ⟨asked, hasked, hbroken.relabel _⟩
  refine ⟨hsession, fun hm => ?_⟩
  obtain ⟨asked, hasked, h⟩ := hbroken hm
  exact ⟨asked, hasked, h, h.serveAll hsession⟩

/-- The second value is a line that cannot be read; what follows it is for the next request. -/
theorem serve_hindered_at_second_value :
    let s : Session := ⟨.ofList [("b", 1)], (Calculator.ofSize 1).after [.compile "b"]⟩
    let p := s.serve [52, 10, 255, 10, 55, 10] (.evaluate "c*a-b")
    Hindered (.evaluate "c*a-b") p.replies ∧ p.value.session = s ∧
      Broken [52, 10, 255, 10, 55, 10] ["Enter value for a: ", "Enter value for c: "] p ∧
      p.rest = [55, 10] := by
  intro s p
  have hm : .malformed ∈ p.replies := by decide +kernel
  have hhindered : Hindered (.evaluate "c*a-b") p.replies := .evaluate (.malformed hm)
  obtain ⟨hsession, hbroken⟩ := serve_hindered hhindered
  obtain ⟨asked, hasked, h, -⟩ := hbroken hm
  have hprompts : prompts s.bindings (readLine [52, 10, 255, 10, 55, 10]).1 (.evaluate "c*a-b") =
      ["Enter value for a: ", "Enter value for c: "] := by decide +kernel
  have hcount : p.replies.length = 2 := by decide +kernel
  have hlength := congrArg List.length h.firstReplies_eq
  rw [length_firstReplies, hcount] at hlength
  rw [hprompts] at hasked
  obtain rfl := hasked.eq_of_length hlength
  exact ⟨hhindered, hsession, h, h.rest⟩

end ReversePolish.Session
