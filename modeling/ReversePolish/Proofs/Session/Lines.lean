import ReversePolish.Proofs.Session.History

/-! # Lines are read in their order
Whatever a session is asked, it reads its input from the beginning, line by line, and leaves the
rest. Requests for a line beyond the last one are answered with the end of the input. -/
namespace ReversePolish
open Text

section
variable {α : Type} {n m : Nat} {input : List UInt8} {p : Played α}

/-! ## Lines -/

theorem Text.decodeLine_ne_ended (bytes : List UInt8) : decodeLine bytes ≠ .ended := by
  unfold decodeLine
  split <;> simp

theorem Text.decodeLine_eq_malformed {bytes : List UInt8} :
    decodeLine bytes = .malformed ↔ ¬ByteArray.IsValidUTF8 ⟨bytes.toArray⟩ := by
  by_cases h : ByteArray.IsValidUTF8 ⟨bytes.toArray⟩
  · have hdecode : String.fromUTF8? ⟨bytes.toArray⟩ = some ⟨⟨bytes.toArray⟩, h⟩ := dif_pos h
    simp [decodeLine, hdecode, h]
  · have hdecode : String.fromUTF8? ⟨bytes.toArray⟩ = none := dif_neg h
    simp [decodeLine, hdecode, h]

theorem Text.readLine_fst_of_ne_nil (h : input ≠ []) :
    (readLine input).1 = decodeLine (firstLine input) := by
  rw [readLine, if_neg h]

theorem Text.lines_eq_nil : lines input = [] ↔ input = [] := by
  constructor
  · intro h
    by_contra hinput
    simp [lines_of_ne_nil hinput] at h
  · rintro rfl
    simp [lines]

theorem Text.lines_afterLines (n : Nat) (input : List UInt8) :
    lines (afterLines n input) = (lines input).drop n := by
  induction n generalizing input with
  | zero => rfl
  | succ n ih =>
    rw [afterLines_succ, ih]
    by_cases hinput : input = []
    · subst hinput
      simp [afterLine, lines]
    · rw [lines_of_ne_nil hinput, List.drop_succ_cons]

theorem Text.firstReplies_eq_map_range (n : Nat) (input : List UInt8) :
    firstReplies n input = (List.range n).map fun m => (readLine (afterLines m input)).1 := by
  induction n generalizing input with
  | zero => rfl
  | succ n ih =>
    simp [firstReplies, ih, List.range_succ_eq_map, afterLines_zero, afterLines_succ,
      Function.comp_def]

@[simp] theorem Text.length_firstReplies (n : Nat) (input : List UInt8) :
    (firstReplies n input).length = n := by
  simp [firstReplies_eq_map_range]

/-- Each request is answered with the next line, and with the end after the last line. -/
theorem Text.firstReplies_eq_lines (n : Nat) (input : List UInt8) :
    firstReplies n input =
      ((lines input).take n).map decodeLine ++
        List.replicate (n - (lines input).length) .ended := by
  induction n generalizing input with
  | zero => simp [firstReplies]
  | succ n ih =>
    rw [firstReplies, ih]
    by_cases hinput : input = []
    · subst hinput
      simp [lines, readLine_nil, afterLine, List.replicate_succ]
    · simp [lines_of_ne_nil hinput, readLine_fst_of_ne_nil hinput]

theorem Text.length_lines_lt (h : .ended ∈ firstReplies n input) : (lines input).length < n := by
  rw [firstReplies_eq_lines, List.mem_append] at h
  rcases h with hline | hend
  · obtain ⟨line, -, hended⟩ := List.mem_map.mp hline
    exact absurd hended (decodeLine_ne_ended line)
  · exact Nat.lt_of_sub_ne_zero (List.mem_replicate.mp hend).1

/-- Whoever hears the end of the input has heard all its lines. -/
theorem Text.decodeLine_mem_firstReplies (h : .ended ∈ firstReplies n input) :
    ∀ line ∈ lines input, decodeLine line ∈ firstReplies n input := by
  intro line hline
  rw [firstReplies_eq_lines, List.take_of_length_le (Nat.le_of_lt (length_lines_lt h))]
  exact List.mem_append_left _ (List.mem_map_of_mem hline)

theorem Text.exists_malformed_line (h : .malformed ∈ firstReplies n input) :
    ∃ line ∈ lines input, decodeLine line = .malformed := by
  rw [firstReplies_eq_lines, List.mem_append, or_iff_left (by simp)] at h
  obtain ⟨line, hline, hmalformed⟩ := List.mem_map.mp h
  exact ⟨line, List.mem_of_mem_take hline, hmalformed⟩

theorem Text.firstReplies_add (n m : Nat) (input : List UInt8) :
    firstReplies (n + m) input = firstReplies n input ++ firstReplies m (afterLines n input) := by
  induction n generalizing input with
  | zero => simp [firstReplies, afterLines_zero]
  | succ n ih => rw [Nat.add_right_comm, firstReplies, ih]; rfl

theorem Text.afterLines_add (n m : Nat) (input : List UInt8) :
    afterLines (n + m) input = afterLines m (afterLines n input) := by
  induction n generalizing input with
  | zero => rw [Nat.zero_add]; rfl
  | succ n ih => rw [Nat.add_right_comm, afterLines_succ, ih]; rfl

/-! ## What was heard -/

theorem Played.replies_after (us : List Utterance) (p : Played α) :
    (p.after us).replies = us.filterMap Utterance.reply? ++ p.replies :=
  List.filterMap_append

/-- Events are not heard. -/
theorem Played.replies_eq_exchange (p : Played α) :
    p.replies = p.exchange.filterMap Utterance.reply? := by
  unfold replies exchange
  induction p.transcript with
  | nil => rfl
  | cons u us ih =>
    cases u with
    | noted event => exact ih
    | said text => exact ih
    | heard reply => exact congrArg (reply :: ·) ih

/-! ## Reading forward -/

/-- The first `n` lines have been heard, and what follows them is left. -/
structure Reads (n : Nat) (input : List UInt8) (p : Played α) : Prop where
  replies : p.replies = firstReplies n input
  rest : p.rest = afterLines n input

theorem Reads.after {us : List Utterance} (h : Reads m (afterLines n input) p)
    (hus : us.filterMap Utterance.reply? = firstReplies n input) :
    Reads (n + m) input (p.after us) where
  replies := by rw [Played.replies_after, hus, h.replies, firstReplies_add]
  rest := by rw [afterLines_add]; exact h.rest

theorem Dialogue.exists_reads_play (d : Dialogue α) (input : List UInt8) :
    ∃ n, Reads n input (d.play input) := by
  induction d generalizing input with
  | finish value => exact ⟨0, rfl, rfl⟩
  | say text next ih =>
    obtain ⟨n, hn⟩ := ih input
    have hafter : Reads (0 + n) input ((next.play input).after [.said text]) := hn.after rfl
    exact ⟨_, hafter⟩
  | note event next ih =>
    obtain ⟨n, hn⟩ := ih input
    have hafter : Reads (0 + n) input ((next.play input).after [.noted event]) := hn.after rfl
    exact ⟨_, hafter⟩
  | ask next ih =>
    obtain ⟨n, hn⟩ := ih (readLine input).1 (readLine input).2
    rw [readLine_snd] at hn
    have hafter : Reads (1 + n) input
        (((next (readLine input).1).play (afterLine input)).after [.heard (readLine input).1]) :=
      hn.after rfl
    refine ⟨1 + n, ?_⟩
    rw [Dialogue.play, readLine_snd]
    exact hafter

end

namespace Session

/-- A run reads on where each of its turns has stopped. -/
theorem exists_reads_run (s : Session) (input : List UInt8) : ∃ n, Reads n input (s.run input) := by
  induction hn : input.length using Nat.strong_induction_on generalizing s input with
  | _ length ih =>
    subst hn
    obtain ⟨n, hturn⟩ := s.runOnce.exists_reads_play input
    by_cases hmore : (s.runOnce.play input).value.answer = .ok true
    · obtain ⟨m, hrest⟩ := ih _ (runOnce_rest_length_lt hmore)
        (s.runOnce.play input).value.session _ rfl
      rw [hturn.rest] at hrest
      rw [run_of_more hmore, hturn.rest]
      exact ⟨n + m, hrest.after hturn.replies⟩
    · rw [run_of_done hmore]
      exact ⟨n, hturn.replies, hturn.rest⟩

/-! ## Questions -/

theorem Follows.replies {bindings : Bindings} {q : Played (Except InputError (Except Error Float))}
    {p : Played (Outcome (Option Float))} (h : Follows bindings q p) : p.replies = q.replies := by
  rw [Played.replies_eq_exchange, h.exchange, List.filterMap_append, ← Played.replies_eq_exchange]
  cases q.value <;> simp [closing, Utterance.reply?]

theorem replies_questions (names : List String) (input : List UInt8) :
    (questions names input).filterMap Utterance.reply? = firstReplies names.length input := by
  induction names generalizing input with
  | nil => rfl
  | cons name names ih => exact congrArg ((readLine input).1 :: ·) (ih (afterLine input))

end Session
end ReversePolish
