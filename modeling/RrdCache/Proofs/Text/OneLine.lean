/-
RrdCache/Proofs/Text/OneLine.lean

Texts that stay on one line: no carriage return and no line feed stands in them.  Texts
that are put together from such texts are of that kind, and whatever stands between quotation
marks is, since both characters are escaped there.  Numbers are spelled without them.
-/
import RrdCache.CommandLine.Output
import RrdCache.Proofs.Request.Fields
import RrdCache.Proofs.Text.Scan

namespace RrdCache

/-- A text without line breaks. -/
def OneLine (s : String) : Prop :=
  Shape.IsText s.toList

instance (s : String) : Decidable (OneLine s) :=
  inferInstanceAs (Decidable (Shape.IsText s.toList))

namespace Shape

variable {s t : List Char}

theorem IsText.append (hs : IsText s) (ht : IsText t) : IsText (s ++ t) :=
  fun c hc => (List.mem_append.1 hc).elim (hs c) (ht c)

theorem IsText.cons {c : Char} (hc : c ≠ '\r' ∧ c ≠ '\n') (hs : IsText s) : IsText (c :: s) :=
  List.forall_mem_cons.2 ⟨hc, hs⟩

theorem IsText.subset (hs : IsText s) (h : t ⊆ s) : IsText t :=
  fun c hc => hs c (h hc)

theorem isText_of_isGraphic (h : ∀ c ∈ s, isGraphic c) : IsText s := by
  intro c hc
  refine ⟨?_, ?_⟩ <;> rintro rfl <;> exact absurd (h _ hc) (by decide)

end Shape

namespace OneLine

variable {s t : String} {words ending : List Char}

theorem ofList {s : List Char} (hs : Shape.IsText s) : OneLine (String.ofList s) := by
  rwa [OneLine, String.toList_ofList]

theorem append (hs : OneLine s) (ht : OneLine t) : OneLine (s ++ t) := by
  rw [OneLine, String.toList_append]
  exact Shape.IsText.append hs ht

/-- A text with words before it. -/
theorem after (hs : OneLine s) (hwords : Shape.IsText words) :
    OneLine (String.ofList words ++ s) :=
  (ofList hwords).append hs

/-- A text with words behind it. -/
theorem before (hs : OneLine s) (hwords : Shape.IsText words) :
    OneLine (s ++ String.ofList words) :=
  hs.append (ofList hwords)

/-- A text with words on both sides. -/
theorem between (hs : OneLine s) (hwords : Shape.IsText words) (hending : Shape.IsText ending) :
    OneLine (String.ofList words ++ s ++ String.ofList ending) :=
  (hs.after hwords).before hending

/-- Two texts with words between them. -/
theorem joined (hs : OneLine s) (hwords : Shape.IsText words) (ht : OneLine t) :
    OneLine (s ++ String.ofList words ++ t) :=
  (hs.before hwords).append ht

theorem of_isToken (hs : IsToken s) : OneLine s :=
  Shape.isText_of_isGraphic hs.2

theorem intercalate {separator : String} (hseparator : OneLine separator) {parts : List String}
    (hparts : ∀ s ∈ parts, OneLine s) : OneLine (String.intercalate separator parts) := by
  intro c hc
  rcases mem_toList_intercalate hc with hc | ⟨s, hs, hc⟩
  · exact hseparator c hc
  · exact hparts s hs c hc

end OneLine

/-! ### Numbers -/

theorem oneLine_spelling (i : Int) : OneLine (Numeral.spelling i) :=
  .of_isToken (isToken_spelling i)

theorem Binary64.oneLine_text (x : Binary64) : OneLine x.text := by
  apply OneLine.ofList
  rcases x.chars_cases with rfl | ⟨negative, -, h⟩ | ⟨negative, m, -, h⟩
  · decide
  · rw [h]
    cases negative <;> decide
  · have hsign : Shape.IsText (if negative then ['-'] else []) := by cases negative <;> decide
    rw [h]
    apply hsign.append
    exact Shape.isText_of_isGraphic fun c hc => isGraphic_of_isDecimalChar (m.text_chars c hc)

/-! ### Quotation marks -/

namespace Quoted

open Shape (IsText)

/-- The digits of codes. -/
def hexDigits : List Char :=
  "0123456789abcdef".toList

theorem mem_hexDigits_of_toDigits {n : Nat} {c : Char} (h : c ∈ Nat.toDigits 16 n) :
    c ∈ hexDigits := by
  have hdigit : ∀ d < 16, Nat.digitChar d ∈ hexDigits := by decide
  induction n using Nat.strongRecOn with
  | ind n ih =>
    rw [Nat.toDigits_eq_if (by decide)] at h
    split at h
    · rw [List.mem_singleton.1 h]
      exact hdigit _ ‹_›
    · rcases List.mem_append.1 h with h | h
      · exact ih _ (Nat.div_lt_self (by omega) (by decide)) h
      · rw [List.mem_singleton.1 h]
        exact hdigit _ (Nat.mod_lt _ (by decide))

theorem mem_hex {width n : Nat} {c : Char} (h : c ∈ hex width n) : c ∈ hexDigits := by
  rcases List.mem_append.1 h with h | h
  · rw [List.eq_of_mem_replicate h]
    decide
  · exact mem_hexDigits_of_toDigits h

theorem isText_hex (width n : Nat) : IsText (hex width n) :=
  have hplain : '\r' ∉ hexDigits ∧ '\n' ∉ hexDigits := by decide
  fun _ hc => ⟨ne_of_mem_of_not_mem (mem_hex hc) hplain.1,
    ne_of_mem_of_not_mem (mem_hex hc) hplain.2⟩

theorem isText_byCode (n : Nat) : IsText (byCode n) := by
  have hcode (letter : Char) (h : letter ≠ '\r' ∧ letter ≠ '\n') (width : Nat) :
      IsText ('\\' :: letter :: hex width n) :=
    .cons (by decide) (.cons h (isText_hex width n))
  rw [byCode]
  split
  · exact hcode 'x' (by decide) 2
  · split
    · exact hcode 'u' (by decide) 4
    · exact hcode 'U' (by decide) 8

/-- Both line breaks have escapes of their own, which come before any other character. -/
theorem isText_escape (shown : Char → Bool) {q : Char} (hq : q ≠ '\r' ∧ q ≠ '\n') (c : Char) :
    IsText (escape shown q c) := by
  rw [escape]
  split
  · rename_i h
    rcases h with rfl | rfl
    · exact .cons (by decide) (.cons hq (by decide))
    · decide
  · split
    · decide
    · split
      · decide
      · split
        · decide
        · split
          · exact .cons ⟨‹_›, ‹_›⟩ (by decide)
          · exact isText_byCode _

theorem isText_enclose (shown : Char → Bool) (s : List Char) : IsText (enclose shown s) := by
  have hmark : mark s ≠ '\r' ∧ mark s ≠ '\n' := by
    rw [mark]
    split <;> decide
  refine .cons hmark (.append ?_ (.cons hmark (by decide)))
  intro c hc
  obtain ⟨d, -, hc⟩ := List.mem_flatMap.1 hc
  exact isText_escape shown hmark d c hc

end Quoted

theorem oneLine_quoted (s : String) : OneLine (quoted s) :=
  .ofList (Quoted.isText_enclose _ _)

theorem oneLine_quotedBytes (bytes : List UInt8) : OneLine (quotedBytes bytes) :=
  .ofList (.cons (by decide) (Quoted.isText_enclose _ _))

theorem Scalar.oneLine_shown (v : Scalar) : OneLine v.shown := by
  cases v with
  | null | blank => decide
  | bool b => cases b <;> decide
  | int i => exact oneLine_spelling i
  | float x => exact x.oneLine_text
  | text s => exact oneLine_quoted s

/-! ### Literals -/

namespace Output

mutual

/-- A literal stays on its line, whatever texts stand in it. -/
theorem oneLine_literal : (o : Output) → OneLine o.literal
  | .text s => oneLine_quoted s
  | .whole i => oneLine_spelling i
  | .number x => x.oneLine_text
  | .missing => by decide
  | .list items => by
    rw [literal]
    have hitems : OneLine (", ".intercalate (literals items)) :=
      .intercalate (.ofList (by decide)) (oneLine_literals items)
    exact hitems.between (by decide) (by decide)
  | .record fields => by
    rw [literal]
    have hfields : OneLine (", ".intercalate (literalFields fields)) :=
      .intercalate (.ofList (by decide)) (oneLine_literalFields fields)
    exact hfields.between (by decide) (by decide)

theorem oneLine_literals : (items : List Output) → ∀ s ∈ literals items, OneLine s
  | [] => by simp [literals]
  | o :: items => List.forall_mem_cons.2 ⟨oneLine_literal o, oneLine_literals items⟩

theorem oneLine_literalFields :
    (fields : List (String × Output)) → ∀ s ∈ literalFields fields, OneLine s
  | [] => by simp [literalFields]
  | (key, o) :: fields => by
    rw [literalFields]
    refine List.forall_mem_cons.2 ⟨?_, oneLine_literalFields fields⟩
    exact (oneLine_quoted key).joined (by decide) (oneLine_literal o)

end

end Output

end RrdCache
