import ReversePolish.Text.Lines

/-! # Texts as bytes
A text is written as the bytes of its characters in UTF-8. Only the newline is written with the
byte that ends a line, so a text without newlines is read back as one line. -/
namespace ReversePolish.Text

/-- The bytes of a text in UTF-8. -/
def encode (text : String) : List UInt8 := text.toUTF8.data.toList

theorem encode_eq_flatMap (text : String) :
    encode text = text.toList.flatMap String.utf8EncodeChar := by
  have hbytes : (String.ofList text.toList).toByteArray.data.toList =
      text.toList.flatMap String.utf8EncodeChar := List.toList_data_toByteArray
  rwa [String.ofList_toList] at hbytes

theorem decodeLine_encode (text : String) : decodeLine (encode text) = .line text := by
  have hvalid : ByteArray.IsValidUTF8 ⟨(encode text).toArray⟩ := text.isValidUTF8
  have hdecode : String.fromUTF8? ⟨(encode text).toArray⟩ = some text := dif_pos hvalid
  simp [decodeLine, hdecode]

theorem eq_newline_of_mem_utf8EncodeChar {c : Char} (h : newline ∈ String.utf8EncodeChar c) :
    c = '\n' := by
  simp only [String.utf8EncodeChar] at h
  split at h
  · have hbyte : newline.toNat = c.val.toNat % 256 :=
      congrArg UInt8.toNat (List.mem_singleton.mp h)
    have hnewline : newline.toNat = '\n'.val.toNat := rfl
    have hcode : c.val.toNat = '\n'.val.toNat := by omega
    exact Char.ext (UInt32.toNat_inj.mp hcode)
  -- all bytes of a longer encoding are at least 128
  · split at h
    · simp [newline, ← UInt8.toNat_inj] at h
      omega
    · split at h
      · simp [newline, ← UInt8.toNat_inj] at h
        omega
      · simp [newline, ← UInt8.toNat_inj] at h
        omega

theorem newline_notMem_encode {text : String} (h : '\n' ∉ text.toList) :
    newline ∉ encode text := by
  rw [encode_eq_flatMap, List.mem_flatMap]
  rintro ⟨c, hc, hbyte⟩
  exact h (eq_newline_of_mem_utf8EncodeChar hbyte ▸ hc)

/-- A text without newlines that is followed by one is the first line. -/
theorem readLine_encode {text : String} (h : '\n' ∉ text.toList) (rest : List UInt8) :
    readLine (encode text ++ newline :: rest) = (.line text, rest) := by
  have hbytes := newline_notMem_encode h
  have hfirst : firstLine (encode text ++ newline :: rest) = encode text :=
    takeWhile_bne hbytes rest
  have hafter : afterLine (encode text ++ newline :: rest) = rest := by
    rw [afterLine, dropWhile_bne hbytes, List.drop_one, List.tail_cons]
  have hsome : encode text ++ newline :: rest ≠ [] := by simp
  rw [readLine, if_neg hsome, hfirst, hafter, decodeLine_encode]

end ReversePolish.Text
