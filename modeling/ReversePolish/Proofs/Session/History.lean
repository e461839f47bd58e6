import ReversePolish.Proofs.Session.Interviews

/-! # Sessions forget
Two sessions with the same bindings cannot be told apart by what they are asked, however much their
calculators may remember and whatever has happened before. Only the input that is left carries over
from one request to the next. -/
namespace ReversePolish.Session
open Text

/-- The same turn with its answer given another form. -/
def relabel {α β : Type} (f : α → β) (p : Played (Outcome α)) : Played (Outcome β) :=
  { p with value := ⟨p.value.answer.map f, p.value.session⟩ }

section
variable {s : Session} {input : List UInt8}

theorem play_runOnce_of_ended (h : (readLine input).1 = .ended) :
    s.runOnce.play input =
      ⟨⟨.ok false, s⟩, [.said "Enter expression: ", .heard .ended], afterLine input⟩ := by
  simp [runOnce, Dialogue.play, h, readLine_snd, Played.after]

theorem play_runOnce_of_malformed (h : (readLine input).1 = .malformed) :
    s.runOnce.play input =
      ⟨⟨.error .invalidUtf8, s⟩, [.said "Enter expression: ", .heard .malformed],
        afterLine input⟩ := by
  simp [runOnce, Dialogue.play, h, readLine_snd, Played.after]

theorem play_runOnce_of_blank {text : String} (h : (readLine input).1 = .line text)
    (htext : trim text = "") :
    s.runOnce.play input =
      ⟨⟨.ok true, s⟩, [.said "Enter expression: ", .heard (.line text)], afterLine input⟩ := by
  simp [runOnce, Dialogue.play, h, htext, readLine_snd, Played.after, pure]

theorem play_runOnce_of_line {text : String} (h : (readLine input).1 = .line text)
    (htext : trim text ≠ "") :
    s.runOnce.play input =
      (relabel (fun _ => true) ((s.evaluate (trim text)).play (afterLine input))).after
        [.said "Enter expression: ", .heard (.line text)] := by
  simp only [runOnce, Dialogue.play, h, htext, if_false, readLine_snd, Dialogue.play_bind]
  simp [pure, Dialogue.play, Played.after, relabel]

/-- As long as there is a line to read, a run is one turn and another run. -/
theorem run_of_more (h : (s.runOnce.play input).value.answer = .ok true) :
    s.run input =
      ((s.runOnce.play input).value.session.run (s.runOnce.play input).rest).after
        (s.runOnce.play input).transcript := by
  rw [run]
  split <;> simp_all

/-- Otherwise it is one turn. -/
theorem run_of_done (h : (s.runOnce.play input).value.answer ≠ .ok true) :
    s.run input = relabel (fun _ => ()) (s.runOnce.play input) := by
  rw [run]
  split <;> simp_all [relabel, Except.map]

end

/-- Two turns in which the same is said, heard and answered, and the sessions that they leave. -/
structure Alike {α : Type} (bindings bindings' : Bindings) (p q : Played (Outcome α)) : Prop where
  answer : p.value.answer = q.value.answer
  exchange : p.exchange = q.exchange
  rest : p.rest = q.rest
  left : p.value.session.Keeps bindings
  right : q.value.session.Keeps bindings'

section
variable {α β : Type} {bindings bindings' : Bindings} {p q : Played (Outcome α)}

theorem Alike.output (h : Alike bindings bindings' p q) : p.output = q.output := by
  rw [Played.output_eq_exchange, Played.output_eq_exchange, h.exchange]

/-- What was uttered before may differ in events only. -/
theorem Alike.after {us ws : List Utterance} (h : Alike bindings bindings' p q)
    (hsame : us.filter (fun u => u.event?.isNone) = ws.filter fun u => u.event?.isNone) :
    Alike bindings bindings' (p.after us) (q.after ws) where
  answer := h.answer
  exchange := by rw [Played.exchange_after, Played.exchange_after, hsame, h.exchange]
  rest := h.rest
  left := h.left
  right := h.right

theorem Alike.relabel (h : Alike bindings bindings' p q) (f : α → β) :
    Alike bindings bindings' (relabel f p) (relabel f q) where
  answer := congrArg (Except.map f) h.answer
  exchange := h.exchange
  rest := h.rest
  left := h.left
  right := h.right

end

variable {s t : Session} {bindings bindings' : Bindings}

theorem Follows.alike {q q' : Played (Except InputError (Except Error Float))}
    {p p' : Played (Outcome (Option Float))} (h : Follows bindings q p)
    (h' : Follows bindings' q' p') (hq : Matches q q') : Alike bindings bindings' p p' where
  answer := by rw [h.answer, h'.answer, hq.value]
  exchange := by rw [h.exchange, h'.exchange, hq.exchange, hq.closing_eq]
  rest := by rw [h.rest, h'.rest, hq.rest]
  left := h.keeps
  right := h'.keeps

/-- Values are asked for and given alike if the bindings agree. -/
theorem alike_evaluate (hb : bindings.Agrees bindings') (hs : s.Keeps bindings)
    (ht : t.Keeps bindings') (text : String) (input : List UInt8) :
    Alike bindings bindings' ((s.evaluate text).play input) ((t.evaluate text).play input) := by
  refine (follows_evaluate hs text input).alike (follows_evaluate ht text input) ?_
  rw [interview_congr hb]
  exact .refl _

theorem alike_runOnce (hb : bindings.Agrees bindings') (hs : s.Keeps bindings)
    (ht : t.Keeps bindings') (input : List UInt8) :
    Alike bindings bindings' (s.runOnce.play input) (t.runOnce.play input) := by
  cases hline : (readLine input).1 with
  | ended =>
    rw [play_runOnce_of_ended hline, play_runOnce_of_ended hline]
    exact ⟨rfl, rfl, rfl, hs, ht⟩
  | malformed =>
    rw [play_runOnce_of_malformed hline, play_runOnce_of_malformed hline]
    exact ⟨rfl, rfl, rfl, hs, ht⟩
  | line text =>
    by_cases htext : trim text = ""
    · rw [play_runOnce_of_blank hline htext, play_runOnce_of_blank hline htext]
      exact ⟨rfl, rfl, rfl, hs, ht⟩
    · have hturn := alike_evaluate hb hs ht (trim text) (afterLine input)
      rw [play_runOnce_of_line hline htext, play_runOnce_of_line hline htext]
      exact (hturn.relabel _).after rfl

theorem alike_run (hb : bindings.Agrees bindings') (hs : s.Keeps bindings)
    (ht : t.Keeps bindings') (input : List UInt8) :
    Alike bindings bindings' (s.run input) (t.run input) := by
  induction hn : input.length using Nat.strong_induction_on generalizing s t input with
  | _ n ih =>
    subst hn
    have hturn := alike_runOnce hb hs ht input
    by_cases hmore : (s.runOnce.play input).value.answer = .ok true
    · have hmore' : (t.runOnce.play input).value.answer = .ok true := hturn.answer ▸ hmore
      have hrest := ih _ (runOnce_rest_length_lt hmore) hturn.left hturn.right _ rfl
      rw [run_of_more hmore, run_of_more hmore', ← hturn.rest]
      exact hrest.after hturn.exchange
    · have hmore' : (t.runOnce.play input).value.answer ≠ .ok true := hturn.answer ▸ hmore
      rw [run_of_done hmore, run_of_done hmore']
      exact hturn.relabel _

/-- One request shows the same, whatever the calculators remember. -/
theorem alike_serve (hb : bindings.Agrees bindings') (hs : s.Keeps bindings)
    (ht : t.Keeps bindings') (input : List UInt8) (request : Request) :
    Alike bindings bindings' (s.serve input request) (t.serve input request) := by
  cases request with
  | runOnce => exact (alike_runOnce hb hs ht input).relabel _
  | run => exact (alike_run hb hs ht input).relabel _
  | evaluate text => exact (alike_evaluate hb hs ht text input).relabel _

theorem Alike.view_eq {p q : Played (Outcome Answer)} (h : Alike bindings bindings' p q) :
    view p = view q := by
  simp [view, h.answer, h.output, h.rest]

theorem map_view_serveAll (hs : s.Keeps bindings) (ht : t.Keeps bindings) (input : List UInt8)
    (requests : List Request) :
    (s.serveAll input requests).map view = (t.serveAll input requests).map view := by
  induction requests generalizing s t input with
  | nil => rfl
  | cons request requests ih =>
    have hturn := alike_serve (.refl bindings) hs ht input request
    simp only [serveAll, List.map_cons, hturn.view_eq, ← hturn.rest, ih hturn.left hturn.right]

theorem keeps_of_mem_serveAll (hs : s.Keeps bindings) {input : List UInt8}
    {requests : List Request} {p : Played (Outcome Answer)} (h : p ∈ s.serveAll input requests) :
    p.value.session.Keeps bindings := by
  induction requests generalizing s input with
  | nil => simp [serveAll] at h
  | cons request requests ih =>
    have hturn := alike_serve (.refl bindings) hs hs input request
    rcases List.mem_cons.mp h with rfl | h
    · exact hturn.left
    · exact ih hturn.left h

/-- After some requests the others are served as by a session that has just begun. -/
theorem map_view_serveAll_append (hs : s.Keeps bindings) (ht : t.Keeps bindings)
    (input : List UInt8) (before after : List Request) :
    (s.serveAll input (before ++ after)).map view =
      (s.serveAll input before).map view ++
        (t.serveAll (s.inputAfter input before) after).map view := by
  induction before generalizing s input with
  | nil => exact map_view_serveAll hs ht input after
  | cons request before ih =>
    have hturn := alike_serve (.refl bindings) hs hs input request
    simp only [List.cons_append, serveAll, List.map_cons, inputAfter, ih hturn.left]

theorem keeps_ofSize (bindings : Bindings) (size : Nat) :
    Keeps ⟨bindings, .ofSize size⟩ bindings :=
  ⟨rfl, Calculator.sound_ofSize size⟩

/-- What a session shows depends neither on how much it may remember nor on what it was asked
before, except through the input that is left; and it never keeps a value that was typed. -/
theorem serveAll_forgets (bindings : Bindings) (n m : Nat) (input : List UInt8)
    (before after : List Request) :
    let s : Session := ⟨bindings, .ofSize n⟩
    let fresh : Session := ⟨bindings, .ofSize m⟩
    (s.serveAll input before).map view = (fresh.serveAll input before).map view ∧
      (s.serveAll input (before ++ after)).map view =
        (s.serveAll input before).map view ++
          (fresh.serveAll (s.inputAfter input before) after).map view ∧
      ∀ p ∈ s.serveAll input before, p.value.session.bindings = bindings := by
  intro s fresh
  have hs : s.Keeps bindings := keeps_ofSize bindings n
  have hfresh : fresh.Keeps bindings := keeps_ofSize bindings m
  refine ⟨map_view_serveAll hs hfresh input before,
    map_view_serveAll_append hs hfresh input before after, ?_⟩
  intro p hp
  exact (keeps_of_mem_serveAll hs hp).bindings_eq

end ReversePolish.Session
