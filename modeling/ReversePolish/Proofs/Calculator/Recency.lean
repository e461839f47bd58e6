import Mathlib.Data.List.Lattice
import ReversePolish.Calculator.Recency
import ReversePolish.Proofs.Calculator.Answers

/-! # What is remembered
A calculator of size `n` remembers the `n` texts used last. This follows from one insertion: a text
that moves to the front of the latest ones makes the latest of one more use. -/
namespace ReversePolish

theorem Cache.find?_eq_none_iff {α : Type} {c : Cache α} {key : String} :
    c.find? key = none ↔ key ∉ c.keys := by
  rw [find?, List.lookup_eq_none_iff, keys]
  simp only [List.mem_map, bne_iff_ne, ne_eq, not_exists, not_and]
  exact forall₂_congr fun p _ => not_congr eq_comm

namespace Calculator

/-! ## The latest texts -/

theorem dedup_concat (texts : List String) (text : String) :
    (texts ++ [text]).dedup = texts.dedup.filter (· ≠ text) ++ [text] := by
  induction texts with
  | nil => rfl
  | cons a texts ih =>
    by_cases ha : a ∈ texts
    · rw [List.cons_append, List.dedup_cons_of_mem (by simp [ha]), List.dedup_cons_of_mem ha, ih]
    · rw [List.dedup_cons_of_notMem ha]
      by_cases hat : a = text
      · rw [List.cons_append, List.dedup_cons_of_mem (by simp [hat]), ih]
        simp [hat]
      · rw [List.cons_append, List.dedup_cons_of_notMem (by simp [ha, hat]), ih]
        simp [hat]

/-- What lies beyond the first `n` entries does not come back when another entry leaves them. -/
theorem take_filter_take {texts : List String} (h : texts.Nodup) (text : String) (n : Nat) :
    ((texts.take (n + 1)).filter (· ≠ text)).take n = (texts.filter (· ≠ text)).take n := by
  induction texts generalizing n with
  | nil => rfl
  | cons a texts ih =>
    obtain ⟨ha, hnodup⟩ := List.nodup_cons.mp h
    by_cases hat : a = text
    · have hself : ∀ l : List String, l ⊆ texts → l.filter (· ≠ text) = l := by
        intro l hl
        simp only [List.filter_eq_self, decide_eq_true_eq]
        rintro b hb rfl
        exact ha (hat ▸ hl hb)
      rw [List.take_succ_cons, List.filter_cons_of_neg (by simp [hat]),
        List.filter_cons_of_neg (by simp [hat]), hself _ (List.take_subset n texts),
        hself _ (List.Subset.refl texts), List.take_take, Nat.min_self]
    · cases n with
      | zero => rfl
      | succ n =>
        rw [List.take_succ_cons, List.filter_cons_of_pos (by simpa using hat),
          List.filter_cons_of_pos (by simpa using hat), List.take_succ_cons, List.take_succ_cons,
          ih hnodup n]

/-- One more use puts its text in front of the others. -/
theorem latest_concat (n : Nat) (texts : List String) (text : String) :
    latest n (texts ++ [text]) = (text :: (latest n texts).filter (· ≠ text)).take n := by
  cases n with
  | zero => rfl
  | succ n =>
    have hnodup : texts.dedup.reverse.Nodup := List.nodup_reverse.mpr (List.nodup_dedup texts)
    simp only [latest, dedup_concat, List.reverse_append, List.reverse_singleton,
      List.singleton_append, List.take_succ_cons, take_filter_take hnodup, List.filter_reverse]

theorem length_latest (n : Nat) (texts : List String) :
    (latest n texts).length = min n texts.dedup.length := by
  simp [latest]

theorem mem_of_mem_latest {n : Nat} {texts : List String} {text : String}
    (h : text ∈ latest n texts) : text ∈ texts :=
  List.mem_dedup.mp (List.mem_reverse.mp (List.mem_of_mem_take h))

/-- A text whose last use was followed by uses of `k` other texts is among the `n` latest ones if
`k < n`. -/
theorem mem_latest_append {n : Nat} {before after : List String} {text : String}
    (h : text ∉ after) :
    text ∈ latest n (before ++ text :: after) ↔ after.dedup.length < n := by
  obtain ⟨older, holder⟩ := List.suffix_union_right before (text :: after.dedup)
  have hlatest : latest n (before ++ text :: after) =
      (after.dedup.reverse ++ text :: older.reverse).take n := by
    rw [latest, List.dedup_append, List.dedup_cons_of_notMem h, ← holder]
    simp
  have hnot : text ∉ after.dedup.reverse.take n := fun hm =>
    h (List.mem_dedup.mp (List.mem_reverse.mp (List.mem_of_mem_take hm)))
  rw [hlatest, List.take_append, List.mem_append, or_iff_right hnot, List.length_reverse]
  constructor
  · intro hm
    by_contra hlt
    rw [Nat.sub_eq_zero_of_le (Nat.le_of_not_lt hlt)] at hm
    simp at hm
  · intro hlt
    obtain ⟨k, hk⟩ := Nat.exists_eq_add_of_lt hlt
    simp [hk, Nat.add_assoc]

theorem mem_latest {n : Nat} {texts : List String} {text : String} :
    text ∈ latest n texts ↔ ∃ before after, texts = before ++ text :: after ∧ text ∉ after ∧
      after.dedup.length < n := by
  constructor
  · intro h
    obtain ⟨later, earlier, htexts, hlater⟩ :=
      List.eq_append_cons_of_mem (List.mem_reverse.mpr (mem_of_mem_latest h))
    have htexts : texts = earlier.reverse ++ text :: later.reverse := by
      rw [← List.reverse_reverse texts, htexts]
      simp
    have hlater : text ∉ later.reverse := by simpa using hlater
    exact ⟨_, _, htexts, hlater, (mem_latest_append hlater).mp (htexts ▸ h)⟩
  · rintro ⟨before, after, rfl, hafter, hlt⟩
    exact (mem_latest_append hafter).mpr hlt

/-! ## One request -/

variable {c : Calculator} {size : Nat} {texts : List String}

/-- A hit and a miss leave the same calculator, and an error leaves the one that was. -/
theorem Sound.calculator_compile (h : c.Sound) (text : String) :
    (c.compile text).calculator =
      match parse text with
      | .ok rpn => ⟨c.cache.insert text rpn⟩
      | .error _ => c := by
  unfold Calculator.compile
  cases hf : c.cache.find? text with
  | some rpn =>
    have hp : parse text = .ok rpn := h _ (Cache.mem_of_find? hf)
    simp only [hp]
  | none => cases parse text <;> rfl

theorem cacheHit_mem_compile {text key : String} :
    .cacheHit key ∈ (c.compile text).events ↔ text = key ∧ key ∈ c.cache.keys := by
  unfold Calculator.compile
  cases hf : c.cache.find? text with
  | some rpn =>
    have hm : text ∈ c.cache.keys := by
      by_contra hm
      simp [Cache.find?_eq_none_iff.mpr hm] at hf
    constructor
    · intro h
      obtain rfl : key = text := by simpa using h
      exact ⟨rfl, hm⟩
    · rintro ⟨rfl, -⟩
      exact List.mem_singleton.mpr rfl
  | none =>
    have hm : text ∉ c.cache.keys := Cache.find?_eq_none_iff.mp hf
    have hnot : ¬(text = key ∧ key ∈ c.cache.keys) := fun ⟨he, hk⟩ => hm (he ▸ hk)
    cases parse text <;> simp [hnot]

theorem calculator_serve (c : Calculator) (request : Request) :
    (c.serve request).calculator =
      match request.text? with
      | some text => (c.compile text).calculator
      | none => c.clear := by
  cases request with
  | compile text => rfl
  | evaluate text vars => rfl
  | batch text contexts =>
    simp only [serve, evaluateBatch, Request.text?]
    cases (c.compile text).answer <;> rfl
  | clear => rfl

theorem cacheHit_mem_serve {request : Request} {key : String} :
    .cacheHit key ∈ (c.serve request).events ↔
      request.text? = some key ∧ key ∈ c.cache.keys := by
  have hcompile : ∀ text, .cacheHit key ∈ (c.compile text).events ↔
      some text = some key ∧ key ∈ c.cache.keys := by
    intro text
    rw [cacheHit_mem_compile, Option.some.injEq]
  cases request with
  | compile text => exact hcompile text
  | evaluate text vars => exact hcompile text
  | batch text contexts =>
    simp only [serve, evaluateBatch, Request.text?, ← hcompile text]
    cases (c.compile text).answer <;> simp
  | clear => simp [serve, Request.text?]

/-! ## All requests -/

/-- A calculator of the given size remembers the latest of the texts used so far, each with its
postfix form. -/
structure Remembers (c : Calculator) (size : Nat) (texts : List String) : Prop where
  capacity : c.cache.capacity = size
  keys : c.cache.keys = latest size texts
  sound : c.Sound

theorem remembers_ofSize (size : Nat) : (ofSize size).Remembers size [] where
  capacity := rfl
  keys := by simp [ofSize, Cache.keys, latest]
  sound := sound_ofSize size

theorem Remembers.serve (h : c.Remembers size texts) (request : Request) :
    (c.serve request).calculator.Remembers size (used texts request) := by
  have hsound := (h.sound.serve request).2
  rw [calculator_serve] at hsound ⊢
  cases ht : request.text? with
  | none =>
    simp only [used, ht] at hsound ⊢
    exact ⟨h.capacity, by simp [Calculator.clear, Cache.clear, Cache.keys, latest], hsound⟩
  | some text =>
    simp only [used, ht, h.sound.calculator_compile] at hsound ⊢
    cases hp : parse text with
    | error e => exact h
    | ok rpn =>
      simp only [hp] at hsound
      refine ⟨h.capacity, ?_, hsound⟩
      rw [Cache.keys_insert, h.keys, h.capacity, latest_concat]

theorem Remembers.after (h : c.Remembers size texts) (requests : List Request) :
    (c.after requests).Remembers size (requests.foldl used texts) := by
  induction requests generalizing c texts with
  | nil => exact h
  | cons request requests ih => exact ih (h.serve request)

/-- Whatever it has been asked, a calculator remembers the postfix forms of the texts used last, as
many as its size allows, and a request meets a hit exactly if it is about one of these. A text
without postfix form changes nothing. -/
theorem keys_after_ofSize (size : Nat) (requests : List Request) :
    let c := (ofSize size).after requests
    let texts := history requests
    c.cache.keys = latest size texts ∧
      (∀ p ∈ c.cache.entries, parse p.1 = .ok p.2) ∧
      c.size = min size texts.dedup.length ∧
      (∀ text, text ∈ latest size texts ↔ ∃ before after, texts = before ++ text :: after ∧
        text ∉ after ∧ after.dedup.length < size) ∧
      ∀ request : Request,
        (∀ text, .cacheHit text ∈ (c.serve request).events ↔
          request.text? = some text ∧ text ∈ latest size texts) ∧
        ∀ text e, request.text? = some text → parse text = .error e →
          (c.serve request).calculator = c := by
  intro c texts
  have h : c.Remembers size texts := (remembers_ofSize size).after requests
  refine ⟨h.keys, h.sound, ?_, fun _ => mem_latest, fun request => ⟨fun text => ?_, ?_⟩⟩
  · rw [← length_latest, ← h.keys, Cache.keys, List.length_map]
    rfl
  · rw [cacheHit_mem_serve, h.keys]
  · intro text e ht hp
    rw [calculator_serve, ht]
    simp only [h.sound.calculator_compile, hp]

/-- With room for two texts, a second use of the first one lets the other give way to a third. -/
theorem keys_after_second_use :
    let c := (ofSize 2).after [.compile "a", .evaluate "b" {}, .compile "a", .batch "c" []]
    c.cache.keys = ["c", "a"] ∧ c.size = 2 ∧
      .cacheHit "a" ∈ (c.serve (.compile "a")).events ∧
      .cacheHit "b" ∉ (c.serve (.compile "b")).events ∧
      (c.serve (.evaluate "(1" {})).calculator = c := by
  intro c
  obtain ⟨hkeys, -, hsize, -, hrequest⟩ := keys_after_ofSize 2
    [.compile "a", .evaluate "b" {}, .compile "a", .batch "c" []]
  have htexts : history [.compile "a", .evaluate "b" {}, .compile "a", .batch "c" []] =
      ["a", "b", "a", "c"] := by decide +kernel
  have hopen : parse "(1" = .error (.parse .mismatchedParens) := by decide +kernel
  rw [htexts] at hkeys hsize hrequest
  refine ⟨hkeys, hsize, ((hrequest _).1 "a").mpr ⟨rfl, by decide⟩, fun h => ?_,
    (hrequest _).2 "(1" _ rfl hopen⟩
  exact absurd (((hrequest _).1 "b").mp h).2 (by decide)

end Calculator
end ReversePolish
