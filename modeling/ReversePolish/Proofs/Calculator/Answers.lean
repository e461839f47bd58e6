import ReversePolish.Calculator

/-! # Remembering changes no answer
What a calculator remembers is always the postfix form of the text it is remembered for: a hit and a
miss come to the same, and neither eviction nor clearing can make an entry wrong. Served one after
another, requests are answered as if each had been served without any memory. -/
namespace ReversePolish

namespace Cache

variable {α : Type} {c : Cache α} {key : String} {value : α}

theorem mem_of_find? (h : c.find? key = some value) : (key, value) ∈ c.entries := by
  obtain ⟨l₁, l₂, he, -⟩ := List.lookup_eq_some_iff.mp h
  simp [he]

theorem mem_insert {p : String × α} (h : p ∈ (c.insert key value).entries) :
    p = (key, value) ∨ p ∈ c.entries := by
  have hp := List.mem_of_mem_take h
  rcases List.mem_cons.mp hp with rfl | hp
  · exact .inl rfl
  · exact .inr (List.mem_filter.mp hp).1

end Cache

namespace Calculator

variable {c : Calculator} {text : String}

/-- Every form that is remembered is that of its text. -/
def Sound (c : Calculator) : Prop := ∀ p ∈ c.cache.entries, parse p.1 = .ok p.2

theorem sound_ofSize (size : Nat) : (ofSize size).Sound := by
  simp [Sound, ofSize]

theorem Sound.clear : c.clear.Sound := by
  simp [Sound, Calculator.clear, Cache.clear]

theorem Sound.insert {rpn : Rpn} (h : c.Sound) (hp : parse text = .ok rpn) :
    Sound ⟨c.cache.insert text rpn⟩ := by
  intro p hm
  rcases Cache.mem_insert hm with rfl | hm
  · exact hp
  · exact h p hm

/-- A text is compiled to its postfix form, and what is remembered stays right. -/
theorem Sound.compile (h : c.Sound) (text : String) :
    (c.compile text).answer = parse text ∧ (c.compile text).calculator.Sound := by
  unfold Calculator.compile
  cases hf : c.cache.find? text with
  | some rpn =>
    have hp : parse text = .ok rpn := h _ (Cache.mem_of_find? hf)
    exact ⟨hp.symm, h.insert hp⟩
  | none =>
    cases hp : parse text with
    | ok rpn => exact ⟨rfl, h.insert hp⟩
    | error e => exact ⟨rfl, h⟩

/-- One request is answered without regard to what is remembered. -/
theorem Sound.serve (h : c.Sound) (request : Request) :
    (c.serve request).answer = request.direct ∧ (c.serve request).calculator.Sound := by
  cases request with
  | compile text =>
    obtain ⟨ha, hs⟩ := h.compile text
    exact ⟨congrArg Answer.compiled ha, hs⟩
  | evaluate text vars =>
    obtain ⟨ha, hs⟩ := h.compile text
    refine ⟨congrArg Answer.value ?_, hs⟩
    simp only [Calculator.evaluate, ha, ReversePolish.evaluate]
    rfl
  | batch text contexts =>
    obtain ⟨ha, hs⟩ := h.compile text
    simp only [Calculator.serve, evaluateBatch, ha, Request.direct]
    cases parse text with
    | ok rpn => exact ⟨rfl, hs⟩
    | error e => exact ⟨rfl, hs⟩
  | clear => exact ⟨rfl, .clear⟩

theorem Sound.answer_evaluate (h : c.Sound) (text : String) (vars : Bindings) :
    (c.evaluate text vars).answer = ReversePolish.evaluate text vars :=
  Answer.value.inj (h.serve (.evaluate text vars)).1

theorem Sound.serveAll (h : c.Sound) (requests : List Request) :
    (c.serveAll requests).map Reply.answer = requests.map Request.direct := by
  induction requests generalizing c with
  | nil => rfl
  | cons request requests ih =>
    obtain ⟨ha, hs⟩ := h.serve request
    simp only [Calculator.serveAll, List.map_cons, ha, ih hs]

theorem Sound.after (h : c.Sound) (requests : List Request) : (c.after requests).Sound := by
  induction requests generalizing c with
  | nil => exact h
  | cons request requests ih => exact ih (h.serve request).2

theorem Reachable.sound (h : c.Reachable) : c.Sound := by
  obtain ⟨size, requests, rfl⟩ := h
  exact (sound_ofSize size).after requests

/-- A batch fails with the error of its text or has one outcome for each context, in their order. -/
theorem direct_batch (text : String) (contexts : List Bindings) :
    match parse text with
    | .error e => Request.direct (.batch text contexts) = .values (.error e)
    | .ok rpn => ∃ outcomes, Request.direct (.batch text contexts) = .values (.ok outcomes) ∧
        outcomes.length = contexts.length ∧
        ∀ i : Nat, outcomes[i]? = contexts[i]?.map rpn.evaluate := by
  cases h : parse text with
  | error e => simp [Request.direct, h, Except.map]
  | ok rpn =>
    refine ⟨contexts.map rpn.evaluate, ?_, by simp, by simp⟩
    simp [Request.direct, h, Except.map]

/-- Whatever a new calculator has been asked before and however much it may remember, it answers as
if it remembered nothing. -/
theorem answers_serveAll_ofSize (size : Nat) (requests : List Request) :
    ((ofSize size).serveAll requests).map Reply.answer = requests.map Request.direct ∧
      ∀ (text : String) (contexts : List Bindings),
        match parse text with
        | .error e => Request.direct (.batch text contexts) = .values (.error e)
        | .ok rpn => ∃ outcomes, Request.direct (.batch text contexts) = .values (.ok outcomes) ∧
            outcomes.length = contexts.length ∧
            ∀ i : Nat, outcomes[i]? = contexts[i]?.map rpn.evaluate :=
  ⟨(sound_ofSize size).serveAll requests, direct_batch⟩

end Calculator
end ReversePolish
