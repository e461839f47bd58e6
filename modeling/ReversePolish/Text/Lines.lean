/-! # Lines of bytes
Input is a list of bytes that is read line by line. A line ends with a newline or with the input,
and is consumed whether or not its bytes are valid UTF-8. -/
namespace ReversePolish.Text

/-- What a request for a line is answered with. -/
inductive Reply where
  | line (text : String)
  /-- The bytes of the line are not UTF-8. -/
  | malformed
  /-- No input is left. -/
  | ended
  deriving DecidableEq, Repr

def newline : UInt8 := 10

/-- The bytes of the first line without its newline. -/
def firstLine (input : List UInt8) : List UInt8 := input.takeWhile (· != newline)

/-- What follows the first line and its newline. -/
def afterLine (input : List UInt8) : List UInt8 := (input.dropWhile (· != newline)).drop 1

def decodeLine (bytes : List UInt8) : Reply :=
  match String.fromUTF8? ⟨bytes.toArray⟩ with
  | some text => .line text
  | none => .malformed

def readLine (input : List UInt8) : Reply × List UInt8 :=
  if input = [] then (.ended, []) else (decodeLine (firstLine input), afterLine input)

/-! ## Splitting at the first of its kind -/

section
variable {α : Type} [BEq α] [LawfulBEq α] {a : α} {before : List α}

theorem bne_of_notMem (h : a ∉ before) : ∀ b ∈ before, (b != a) = true := fun _ hb =>
  bne_iff_ne.mpr fun he => h (he ▸ hb)

theorem takeWhile_bne (h : a ∉ before) (after : List α) :
    (before ++ a :: after).takeWhile (· != a) = before := by
  simp [List.takeWhile_append_of_pos (bne_of_notMem h)]

theorem dropWhile_bne (h : a ∉ before) (after : List α) :
    (before ++ a :: after).dropWhile (· != a) = a :: after := by
  simp [List.dropWhile_append_of_pos (bne_of_notMem h)]

end

/-! ## Reading on -/

theorem afterLine_length_lt {input : List UInt8} (h : input ≠ []) :
    (afterLine input).length < input.length := by
  have hl := congrArg List.length
    (List.takeWhile_append_dropWhile (p := (· != newline)) (l := input))
  have hp := List.length_pos_iff.mpr h
  simp only [List.length_append] at hl
  simp only [afterLine, List.length_drop]
  cases hd : input.dropWhile (· != newline) with
  | nil => simpa using hp
  | cons b rest => simp only [hd, List.length_cons] at hl ⊢; omega

theorem readLine_nil : readLine [] = (.ended, []) := rfl

theorem readLine_snd (input : List UInt8) : (readLine input).2 = afterLine input := by
  unfold readLine
  split
  · rename_i h
    subst h
    rfl
  · rfl

theorem readLine_length_le (input : List UInt8) : (readLine input).2.length ≤ input.length := by
  unfold readLine
  split
  · simp
  · exact Nat.le_of_lt (afterLine_length_lt (by assumption))

theorem readLine_length_lt {input : List UInt8} (h : (readLine input).1 ≠ .ended) :
    (readLine input).2.length < input.length := by
  unfold readLine at h ⊢
  split
  · simp_all
  · exact afterLine_length_lt (by assumption)

end ReversePolish.Text
