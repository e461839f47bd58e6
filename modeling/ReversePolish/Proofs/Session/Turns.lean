import ReversePolish.Proofs.Session.Endings

/-! # A run accounts for every line
A run is turn after turn. Each turn but the last uses up a line for an expression and one for each
question after it, so there are at most as many turns as lines and one more; and since no turn reads
without asking, every line that is read answers one prompt. -/
namespace ReversePolish.Session
open Text

/-! ## One turn -/

/-- The turn that a line begins after which these names were asked for. -/
def Turn.ofLine (line : String) (input : List UInt8) (asked : List String)
    (told : Option (Except Error Float)) : Turn :=
  ⟨.line line, asked.zip (firstReplies asked.length input), told⟩

/-- How a turn goes: the input has ended, or a line was read and an outcome is told unless the line
is blank, or a line could not be read. -/
inductive Goes : Turn → Except InputError Bool → Prop
  | ended : Goes ⟨.ended, [], none⟩ (.ok false)
  | line {t : Turn} {text : String} (entry : t.entry = .line text)
      (readable : .malformed ∉ t.replies) (told : t.outcome.isSome ↔ trim text ≠ "") :
      Goes t (.ok true)
  | broken {t : Turn} (breaks : BreakOff t.replies) : Goes t (.error .invalidUtf8)

section
variable {s : Session} {t : Turn} {line text : String} {input : List UInt8} {asked : List String}
  {told : Option (Except Error Float)} {answer : Except InputError Bool}

theorem Turn.replies_ofLine :
    (Turn.ofLine line input asked told).replies =
      .line line :: firstReplies asked.length input := by
  simp [Turn.ofLine, Turn.replies, Turn.questions, Function.comp_def, List.map_snd_zip]

theorem Turn.exchange_ofLine :
    (Turn.ofLine line input asked told).exchange =
      [.said "Enter expression: ", .heard (.line line)] ++ (Session.questions asked input ++
        (told.map fun outcome => Utterance.said (outcomeLine outcome)).toList) := by
  rw [questions_eq_flatMap, List.zip_map_left, ← List.append_assoc]
  rfl

theorem Turn.filterMap_exchange (t : Turn) :
    t.exchange.filterMap Utterance.reply? = t.replies := by
  rw [Turn.exchange, List.filterMap_append, filterMap_ofQuestion]
  cases t.outcome <;> simp [Turn.replies, Utterance.reply?]

theorem Verdict.goes {value : Outcome (Option Float)}
    (h : Verdict s text (firstReplies asked.length input) told value) (hline : trim line ≠ "") :
    Goes (.ofLine line input asked told) (value.answer.map fun _ => true) := by
  cases h with
  | computed scan read =>
    refine .line rfl ?_ (iff_of_true rfl hline)
    simpa [Turn.replies_ofLine] using malformed_notMem_of_read read
  | refused readable =>
    refine .line rfl ?_ (iff_of_true rfl hline)
    simpa [Turn.replies_ofLine] using readable
  | broken breaks =>
    have hline' : Reply.malformed ∉ [.line line] := by simp
    exact .broken (Turn.replies_ofLine ▸ breaks.append hline')

theorem exists_turn (s : Session) (input : List UInt8) :
    ∃ t : Turn, (s.runOnce.play input).exchange = t.exchange ∧
      Goes t (s.runOnce.play input).value.answer := by
  cases hline : (readLine input).1 with
  | ended =>
    rw [play_runOnce_of_ended hline]
    exact ⟨_, rfl, .ended⟩
  | malformed =>
    rw [play_runOnce_of_malformed hline]
    exact ⟨⟨.malformed, [], none⟩, rfl, .broken ⟨[], rfl, List.not_mem_nil⟩⟩
  | line line =>
    by_cases hblank : trim line = ""
    · rw [play_runOnce_of_blank hline hblank]
      refine ⟨⟨.line line, [], none⟩, rfl, .line rfl ?_ ?_⟩
      · simp [Turn.replies, Turn.questions]
      · simp [hblank]
    · rw [play_runOnce_of_line hline hblank]
      obtain ⟨asked, told, h⟩ := exists_dealt_evaluate s (trim line) (afterLine input)
      refine ⟨.ofLine line (afterLine input) asked told, ?_, h.verdict.goes hblank⟩
      rw [Played.exchange_after, Turn.exchange_ofLine, ← h.exchange]
      rfl

theorem Goes.isSome_outcome_iff (h : Goes t answer) (readable : .malformed ∉ t.replies) :
    t.outcome.isSome ↔ ∃ text, t.entry = .line text ∧ trim text ≠ "" := by
  cases h with
  | ended => simp
  | line entry _ told => simp [entry, told]
  | broken breaks => exact absurd breaks.mem readable

/-- A turn after which the session goes on has used up at least one line. -/
theorem length_lines_rest_lt (h : (s.runOnce.play input).value.answer = .ok true) :
    (lines (s.runOnce.play input).rest).length < (lines input).length := by
  obtain ⟨n, hreads⟩ := s.runOnce.exists_reads_play input
  have hlt := runOnce_rest_length_lt h
  rw [hreads.rest] at hlt ⊢
  have hn : n ≠ 0 := by
    rintro rfl
    exact Nat.lt_irrefl _ hlt
  have hinput : input ≠ [] := List.ne_nil_of_length_pos (Nat.zero_lt_of_lt hlt)
  have hlines : 0 < (lines input).length := List.length_pos_iff.mpr (mt lines_eq_nil.mp hinput)
  rw [lines_afterLines, List.length_drop]
  omega

end

/-! ## Prompts for expressions -/

theorem question_ne (name : String) : question name ≠ "Enter expression: " := by
  intro h
  have hletter := congrArg (fun text => text.toList[6]?) h
  simp [question] at hletter

theorem outcomeLine_ne (outcome : Except Error Float) :
    outcomeLine outcome ≠ "Enter expression: " := by
  intro h
  have hletter := congrArg (fun text => text.toList[1]?) h
  cases outcome <;> simp [outcomeLine] at hletter

/-- Neither the prompts for values nor the line that tells an outcome are prompts for
expressions. -/
theorem Turn.count_exchange (t : Turn) : t.exchange.count (.said "Enter expression: ") = 1 := by
  have hvalues : .said "Enter expression: " ∉
      (t.values.map fun v => (question v.1, v.2)).flatMap Utterance.ofQuestion := by
    simp [Utterance.ofQuestion, question_ne]
  have houtcome : .said "Enter expression: " ∉
      (t.outcome.map fun outcome => Utterance.said (outcomeLine outcome)).toList := by
    cases t.outcome <;> simp [(outcomeLine_ne _).symm]
  rw [Turn.exchange, List.count_append, List.count_eq_zero.mpr houtcome, Turn.questions,
    List.flatMap_cons, List.count_append, List.count_eq_zero.mpr hvalues]
  rfl

theorem count_prompts_of_turns {α : Type} {p : Played α} {turns : List Turn}
    (h : p.exchange = turns.flatMap Turn.exchange) :
    p.transcript.count (.said "Enter expression: ") = turns.length := by
  have hexchange : p.exchange.count (.said "Enter expression: ") =
      p.transcript.count (.said "Enter expression: ") := List.count_filter rfl
  have hone : turns.map (List.count (.said "Enter expression: ") ∘ Turn.exchange) =
      turns.map fun _ => 1 := List.map_congr_left fun t _ => t.count_exchange
  rw [← hexchange, h, List.count_flatMap, hone]
  simp

/-! ## All turns -/

/-- How a run ends: with the input, or at a line that cannot be read. -/
inductive Ends (replies : List Reply) : Except InputError Unit → Prop
  | ended (heard : .ended ∈ replies) (readable : .malformed ∉ replies) : Ends replies (.ok ())
  | broken (breaks : BreakOff replies) : Ends replies (.error .invalidUtf8)

section
variable {replies us : List Reply} {answer : Except InputError Unit} {n : Nat} {input : List UInt8}

theorem Ends.prepend (h : Ends replies answer) (hus : .malformed ∉ us) :
    Ends (us ++ replies) answer := by
  cases h with
  | ended heard readable =>
    exact .ended (List.mem_append_right us heard) (by simp [hus, readable])
  | broken breaks => exact .broken (breaks.append hus)

theorem Ends.ended_of_valid (h : Ends (firstReplies n input) answer)
    (hvalid : ∀ line ∈ lines input, ByteArray.IsValidUTF8 ⟨line.toArray⟩) :
    answer = .ok () ∧ (lines input).length < n ∧ .malformed ∉ firstReplies n input := by
  have hreadable : .malformed ∉ firstReplies n input := by
    intro hm
    obtain ⟨line, hline, hmalformed⟩ := exists_malformed_line hm
    exact decodeLine_eq_malformed.mp hmalformed (hvalid line hline)
  cases h with
  | ended heard readable => exact ⟨rfl, length_lines_lt heard, hreadable⟩
  | broken breaks => exact absurd breaks.mem hreadable

theorem Ends.valid_of_ok (h : Ends (firstReplies n input) (.ok ())) :
    ∀ line ∈ lines input, ByteArray.IsValidUTF8 ⟨line.toArray⟩ := by
  cases h with
  | ended heard readable =>
    intro line hline
    by_contra hinvalid
    have hheard := decodeLine_mem_firstReplies heard line hline
    rw [decodeLine_eq_malformed.mpr hinvalid] at hheard
    exact readable hheard

/-- The replies break off at the first line that cannot be read. -/
theorem Ends.broken_of_invalid {line : List UInt8} {before after : List (List UInt8)}
    (h : Ends (firstReplies n input) answer) (hlines : lines input = before ++ line :: after)
    (hvalid : ∀ l ∈ before, ByteArray.IsValidUTF8 ⟨l.toArray⟩)
    (hinvalid : ¬ByteArray.IsValidUTF8 ⟨line.toArray⟩) :
    answer = .error .invalidUtf8 ∧ n = before.length + 1 ∧
      firstReplies n input = (before ++ [line]).map decodeLine := by
  have hmalformed := decodeLine_eq_malformed.mpr hinvalid
  have hbefore : .malformed ∉ before.map decodeLine := by
    intro hm
    obtain ⟨l, hl, hl'⟩ := List.mem_map.mp hm
    exact decodeLine_eq_malformed.mp hl' (hvalid l hl)
  cases h with
  | ended heard readable =>
    have hheard := decodeLine_mem_firstReplies heard line (by simp [hlines])
    exact absurd (hmalformed ▸ hheard) readable
  | broken breaks => exact ⟨rfl, breaks.eq_of_lines hlines hbefore hmalformed⟩

end

/-- A run over the input was made up of these turns. -/
structure MadeOf (input : List UInt8) (turns : List Turn) (p : Played (Outcome Unit)) : Prop where
  exchange : p.exchange = turns.flatMap Turn.exchange
  few : turns.length ≤ (lines input).length + 1
  told : ∀ t ∈ turns, .malformed ∉ t.replies →
    (t.outcome.isSome ↔ ∃ text, t.entry = .line text ∧ trim text ≠ "")
  ends : Ends (turns.flatMap Turn.replies) p.value.answer

theorem MadeOf.replies_eq {input : List UInt8} {turns : List Turn} {p : Played (Outcome Unit)}
    (h : MadeOf input turns p) : p.replies = turns.flatMap Turn.replies := by
  rw [Played.replies_eq_exchange, h.exchange, List.filterMap_flatMap]
  simp only [Turn.filterMap_exchange]

theorem Goes.ends {t : Turn} {answer : Except InputError Bool} (h : Goes t answer)
    (hdone : answer ≠ .ok true) : Ends t.replies (answer.map fun _ => ()) := by
  cases h with
  | ended => exact .ended List.mem_cons_self (by simp [Turn.replies, Turn.questions])
  | line => contradiction
  | broken breaks => exact .broken breaks

theorem exists_madeOf_run (s : Session) (input : List UInt8) :
    ∃ turns, MadeOf input turns (s.run input) := by
  induction hn : input.length using Nat.strong_induction_on generalizing s input with
  | _ length ih =>
    subst hn
    obtain ⟨t, hexchange, hgoes⟩ := exists_turn s input
    by_cases hmore : (s.runOnce.play input).value.answer = .ok true
    · obtain ⟨turns, hrest⟩ := ih _ (runOnce_rest_length_lt hmore)
        (s.runOnce.play input).value.session _ rfl
      rw [run_of_more hmore]
      have htold := List.forall_mem_cons.mpr ⟨hgoes.isSome_outcome_iff, hrest.told⟩
      refine ⟨t :: turns, ?_, ?_, htold, ?_⟩
      · rw [Played.exchange_after, hrest.exchange, List.flatMap_cons, ← hexchange]
        rfl
      · have hlt := length_lines_rest_lt hmore
        have hfew := hrest.few
        rw [List.length_cons]
        omega
      · rw [hmore] at hgoes
        cases hgoes with
        | line entry readable told => exact hrest.ends.prepend readable
    · rw [run_of_done hmore]
      refine ⟨[t], ?_, by simp, List.forall_mem_singleton.mpr hgoes.isSome_outcome_iff, ?_⟩
      · rw [List.flatMap_singleton, ← hexchange]
        rfl
      · rw [List.flatMap_singleton]
        exact hgoes.ends hmore

/-- A run succeeds if and only if all lines of its input can be read. -/
theorem answer_run_eq_ok (s : Session) (input : List UInt8) :
    (s.run input).value.answer = .ok () ↔
      ∀ line ∈ lines input, ByteArray.IsValidUTF8 ⟨line.toArray⟩ := by
  obtain ⟨turns, hmade⟩ := exists_madeOf_run s input
  obtain ⟨n, hreads⟩ := s.exists_reads_run input
  have hends := hmade.ends
  rw [← hmade.replies_eq, hreads.replies] at hends
  constructor
  · intro hanswer
    exact (hanswer ▸ hends).valid_of_ok
  · intro hvalid
    exact (hends.ended_of_valid hvalid).1

/-- A run is made up of turns, at most one more than the input has lines. If all lines can be read,
it succeeds with nothing left of the input; the lines answer the prompts of the turns one after
another, and a turn tells an outcome if and only if its expression is not blank. Otherwise it fails
at the first line that cannot be read and leaves all lines after it. -/
theorem run_accounts_for_every_line (s : Session) (input : List UInt8) :
    ∃ turns : List Turn, (s.run input).exchange = turns.flatMap Turn.exchange ∧
      (s.run input).transcript.count (.said "Enter expression: ") = turns.length ∧
      turns.length ≤ (lines input).length + 1 ∧
      ((∀ line ∈ lines input, ByteArray.IsValidUTF8 ⟨line.toArray⟩) →
        (s.run input).value.answer = .ok () ∧ (s.run input).rest = [] ∧
          (∃ k, turns.flatMap Turn.replies =
            (lines input).map decodeLine ++ List.replicate k .ended) ∧
          ∀ t ∈ turns, t.outcome.isSome ↔ ∃ text, t.entry = .line text ∧ trim text ≠ "") ∧
      ∀ before line after, lines input = before ++ line :: after →
        (∀ l ∈ before, ByteArray.IsValidUTF8 ⟨l.toArray⟩) →
        ¬ByteArray.IsValidUTF8 ⟨line.toArray⟩ →
          (s.run input).value.answer = .error .invalidUtf8 ∧
            turns.flatMap Turn.replies = (before ++ [line]).map decodeLine ∧
            lines (s.run input).rest = after := by
  obtain ⟨turns, hmade⟩ := exists_madeOf_run s input
  obtain ⟨n, hreads⟩ := s.exists_reads_run input
  have hreplies : turns.flatMap Turn.replies = firstReplies n input :=
    hmade.replies_eq.symm.trans hreads.replies
  have hends := hreplies ▸ hmade.ends
  refine ⟨turns, hmade.exchange, count_prompts_of_turns hmade.exchange, hmade.few, ?_, ?_⟩
  · intro hvalid
    obtain ⟨hanswer, hlt, hreadable⟩ := hends.ended_of_valid hvalid
    have hle := Nat.le_of_lt hlt
    have hrest : lines (s.run input).rest = [] := by
      rw [hreads.rest, lines_afterLines, List.drop_of_length_le hle]
    have hall : firstReplies n input =
        (lines input).map decodeLine ++ List.replicate (n - (lines input).length) .ended := by
      rw [firstReplies_eq_lines, List.take_of_length_le hle]
    refine ⟨hanswer, lines_eq_nil.mp hrest, ⟨_, hreplies.trans hall⟩, fun t ht => ?_⟩
    refine hmade.told t ht fun hm => hreadable ?_
    rw [← hreplies]
    exact List.mem_flatMap.mpr ⟨t, ht, hm⟩
  · intro before line after hlines hvalid hinvalid
    obtain ⟨hanswer, hn, hlast⟩ := hends.broken_of_invalid hlines hvalid hinvalid
    refine ⟨hanswer, hreplies.trans hlast, ?_⟩
    rw [hreads.rest, lines_afterLines, hlines, hn]
    simp

/-- The value for `a` is missing in the first input; the second has a line that cannot be read. -/
theorem run_accounts_for_missing_and_malformed_lines :
    let s : Session := ⟨.ofList [("b", 1)], .ofSize 1⟩
    let complete := s.run [98, 10, 97, 42, 98]
    let broken := s.run [98, 10, 255, 10, 98]
    (complete.value.answer = .ok () ∧ complete.rest = []) ∧
      broken.value.answer = .error .invalidUtf8 ∧ lines broken.rest = [[98]] := by
  intro s complete broken
  constructor
  · obtain ⟨turns, -, -, -, hvalid, -⟩ := run_accounts_for_every_line s [98, 10, 97, 42, 98]
    obtain ⟨hanswer, hrest, -⟩ := hvalid (by decide +kernel)
    exact ⟨hanswer, hrest⟩
  · obtain ⟨turns, -, -, -, -, hinvalid⟩ := run_accounts_for_every_line s [98, 10, 255, 10, 98]
    obtain ⟨hanswer, -, hrest⟩ :=
      hinvalid [[98]] [255] [[98]] (by decide +kernel) (by decide +kernel) (by decide +kernel)
    exact ⟨hanswer, hrest⟩

end ReversePolish.Session
