/-
RrdCache/Proofs/Text/Utf8.lean

The bytes of texts.  `utf8 s` are the bytes that encode the characters `s`; decoding gives
the text back (`decodeUtf8?_utf8`), a line feed stands in the bytes only where it stands
in the text, and a character below U+0080 is the byte of its code.
-/
import RrdCache.Client.Exchange

namespace RrdCache

/-- The bytes that encode characters. -/
def utf8 (s : List Char) : List UInt8 :=
  s.flatMap String.utf8EncodeChar

@[simp] theorem utf8_nil : utf8 [] = [] := rfl

@[simp] theorem utf8_cons (c : Char) (s : List Char) :
    utf8 (c :: s) = String.utf8EncodeChar c ++ utf8 s := rfl

@[simp] theorem utf8_append (s t : List Char) : utf8 (s ++ t) = utf8 s ++ utf8 t :=
  List.flatMap_append

/-- Decoding takes encoded characters back. -/
theorem decodeUtf8?_utf8 (s : List Char) : decodeUtf8? (utf8 s) = some (String.ofList s) := by
  have hbytes : (⟨(utf8 s).toArray⟩ : ByteArray) = s.utf8Encode := by
    rw [List.utf8Encode, ← utf8]
    exact ByteArray.ext List.data_toByteArray.symm
  have hvalid : ByteArray.IsValidUTF8 s.utf8Encode := .intro s rfl
  rw [decodeUtf8?, hbytes, String.fromUTF8?, dif_pos hvalid]
  rfl

/-- The bytes of a text are those of its characters. -/
theorem toUTF8_toList (s : List Char) : (String.ofList s).toUTF8.data.toList = utf8 s := by
  rw [String.toUTF8_eq_toByteArray]
  exact List.toList_data_toByteArray

/-- Only the bytes of a text are decoded to it. -/
theorem eq_utf8_of_decodeUtf8? {bytes : List UInt8} {s : String}
    (h : decodeUtf8? bytes = some s) : bytes = utf8 s.toList := by
  rw [decodeUtf8?, String.fromUTF8?] at h
  split at h
  · obtain rfl := Option.some.inj h
    rw [← toUTF8_toList, String.ofList_toList]
    rfl
  · cases h

/-! ### Single bytes -/

/-- A character below U+0080 is one byte, its code. -/
theorem utf8EncodeChar_ascii {c : Char} (h : c.toNat < 128) :
    String.utf8EncodeChar c = [UInt8.ofNat c.toNat] := by
  have hc : c.val.toNat ≤ 127 := Nat.le_of_lt_succ h
  rw [String.utf8EncodeChar, if_pos hc]
  rfl

theorem utf8_ascii {s : List Char} (h : ∀ c ∈ s, c.toNat < 128) :
    utf8 s = s.map fun c => UInt8.ofNat c.toNat := by
  induction s with
  | nil => rfl
  | cons c s ih =>
    obtain ⟨hc, hs⟩ := List.forall_mem_cons.1 h
    rw [utf8_cons, utf8EncodeChar_ascii hc, ih hs]
    rfl

/-- Only the line feed has its byte in its encoding. -/
theorem lf_mem_utf8EncodeChar {c : Char} :
    (10 : UInt8) ∈ String.utf8EncodeChar c ↔ c = '\n' := by
  constructor
  · intro h
    have hcode : c.val.toNat = 10 := by
      revert h
      -- every byte of a longer encoding is at least 0x80
      fun_cases String.utf8EncodeChar c <;>
        simp only [List.mem_cons, List.not_mem_nil, or_false, ← UInt8.toNat_inj,
          UInt8.toNat_ofNat', UInt8.reduceToNat] at * <;>
        omega
    exact Char.ext (UInt32.toNat_inj.1 hcode)
  · rintro rfl
    decide

theorem lf_mem_utf8 {s : List Char} : (10 : UInt8) ∈ utf8 s ↔ '\n' ∈ s := by
  simp only [utf8, List.mem_flatMap, lf_mem_utf8EncodeChar, exists_eq_right]

@[simp] theorem utf8_lf : utf8 ['\n'] = [10] := by
  decide

/-- A character whose bytes end in a line feed is one. -/
theorem eq_lf_of_getLast? {c : Char} {bytes : List UInt8}
    (h : (bytes ++ String.utf8EncodeChar c).getLast? = some 10) : c = '\n' := by
  have hne : String.utf8EncodeChar c ≠ [] := by
    apply List.ne_nil_of_length_pos
    rw [String.length_utf8EncodeChar]
    exact c.utf8Size_pos
  rw [List.getLast?_append, List.getLast?_eq_some_getLast hne, Option.some_or] at h
  have hlast := Option.some.inj h
  exact lf_mem_utf8EncodeChar.1 (hlast ▸ List.getLast_mem hne)

/-- A text whose bytes end in a line feed ends in one. -/
theorem utf8_eq_append_lf {s : List Char} {bytes : List UInt8} (h : utf8 s = bytes ++ [10]) :
    ∃ body, s = body ++ ['\n'] ∧ utf8 body = bytes := by
  rcases hlast : s.getLast? with - | c
  · rw [List.getLast?_eq_none_iff] at hlast
    simp [hlast] at h
  · obtain ⟨body, rfl⟩ := List.getLast?_eq_some_iff.1 hlast
    rw [utf8_append, utf8_cons, utf8_nil, List.append_nil] at h
    have hend : (utf8 body ++ String.utf8EncodeChar c).getLast? = some 10 := by
      rw [h, List.getLast?_append]
      rfl
    obtain rfl := eq_lf_of_getLast? hend
    exact ⟨body, rfl, List.append_cancel_right h⟩

end RrdCache
