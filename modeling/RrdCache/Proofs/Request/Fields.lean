/-
RrdCache/Proofs/Request/Fields.lean

The fields of request lines are tokens.  An identifier that was checked, a directory that
was checked, a number that was written: none of them holds a blank, a line feed or anything
beyond graphic ASCII.

`Scalar.spelled` and its like give the text of a field without any check.  Where the field
can be written at all, that text is what is written.
-/
import Mathlib.Data.List.TakeWhile
import RrdCache.Identifier.Checked
import RrdCache.Proofs.Number.Spelling
import RrdCache.Proofs.Result
import RrdCache.Proofs.Text.Token
import RrdCache.Request.Fields

namespace RrdCache

/-! ### Identifiers and directories -/

theorem isToken_of_identifier {s : String} (h : identifierProblem? s = none) : IsToken s := by
  rw [identifierProblem?] at h
  split at h
  · cases h
  rename_i hlength
  split at h
  · rename_i hall
    have hne : s.toList ≠ [] := by
      intro hnil
      exact hlength (.inl (by rw [hnil]; rfl))
    refine ⟨hne, ?_⟩
    intro c hc
    have hchar := List.all_eq_true.1 hall c hc
    simp only [isIdentifierChar, Bool.or_eq_true, beq_iff_eq] at hchar
    rcases hchar with (hchar | rfl) | rfl
    · exact isGraphic_of_isAlphanum hchar
    · decide
    · decide
  · cases h

namespace Identifier

theorem isToken (i : Identifier) : IsToken i.text :=
  isToken_of_identifier i.sound

/-- A text that passes for an identifier is that identifier's text. -/
theorem ofString_eq_ok {role value : String} {i : Identifier} :
    ofString role value = .ok i ↔ i.text = value := by
  rw [ofString]
  constructor
  · intro h
    split at h
    · cases h
      rfl
    · cases h
  · rintro rfl
    split
    · rfl
    · rename_i problem hproblem
      exact absurd (i.sound.symm.trans hproblem) (by simp)

theorem isToken_file (i : Identifier) : IsToken i.file :=
  i.isToken.append (by decide)

/-- The file of a path that was taken. -/
theorem file_eq {path : String} {i : Identifier} (h : ofPath path = .ok i) :
    i.file = path ++ ".rrd" := by
  rw [file, ofString_eq_ok.1 h]

end Identifier

theorem checkIdentifier_eq_ok {role value : String} :
    checkIdentifier role value = .ok () ↔ ∃ i : Identifier, i.text = value := by
  rw [checkIdentifier]
  constructor
  · intro h
    obtain ⟨i, hi, -⟩ := Result.map_eq_ok.1 h
    exact ⟨i, Identifier.ofString_eq_ok.1 hi⟩
  · rintro ⟨i, hi⟩
    exact Result.map_eq_ok.2 ⟨i, Identifier.ofString_eq_ok.2 hi, rfl⟩

theorem isToken_of_checkIdentifier {role value : String}
    (h : checkIdentifier role value = .ok ()) : IsToken value := by
  obtain ⟨i, rfl⟩ := checkIdentifier_eq_ok.1 h
  exact i.isToken

theorem mem_dropWhile_or {α : Type} {p : α → Bool} {s : List α} {a : α} (h : a ∈ s) :
    a ∈ s.dropWhile p ∨ p a := by
  rw [← List.takeWhile_append_dropWhile (p := p) (l := s), List.mem_append] at h
  rcases h with h | h
  · exact .inr (List.mem_takeWhile_imp h)
  · exact .inl h

/-- Trimming takes away nothing but what is trimmed. -/
theorem mem_trim_or {α : Type} {p : α → Bool} {s : List α} {a : α} (h : a ∈ s) :
    a ∈ trim p s ∨ p a := by
  rcases mem_dropWhile_or h with h | h
  · rcases mem_dropWhile_or (List.mem_reverse.2 h) with h | h
    · exact .inl (List.mem_reverse.2 h)
    · exact .inr h
  · exact .inr h

/-- A directory holds identifiers and slashes only. -/
theorem isToken_of_checkDirectory {value : String} (h : checkDirectory value = .ok ()) :
    IsToken value := by
  rw [checkDirectory] at h
  split at h
  · rename_i hroot
    rw [hroot]
    decide
  split at h
  · cases h
  rename_i hempty
  rw [Result.forM_eq_ok] at h
  refine ⟨?_, fun c hc => ?_⟩
  · intro hnil
    exact hempty (by rw [hnil]; rfl)
  -- what was cut off at the ends is slashes, and the rest is segments between slashes
  have hslash : isGraphic '/' := by decide
  rcases mem_trim_or hc with hc | hc
  · have hjoined : ['/'].intercalate ((trim (· == '/') value.toList).splitOn '/')
        = trim (· == '/') value.toList := List.intercalate_splitOn '/'
    rw [← hjoined] at hc
    rcases mem_intercalate hc with hc | ⟨segment, hsegment, hc⟩
    · rwa [List.mem_singleton.1 hc]
    · -- a segment between two slashes is an identifier
      have hchecked := h (String.ofList segment) (List.mem_map_of_mem hsegment)
      have htoken := isToken_of_checkIdentifier hchecked
      exact htoken.2 c (by rwa [String.toList_ofList])
  · rwa [eq_of_beq hc]

/-! ### Numbers -/

theorem isToken_spelling (i : Int) : IsToken (Numeral.spelling i) := by
  rw [Numeral.spelling, IsToken, String.toList_ofList]
  refine ⟨Numeral.digits_ne_nil i, ?_⟩
  intro c hc
  rcases Numeral.mem_digits hc with h | ⟨rfl, -⟩
  · exact isGraphic_of_isDigit h
  · decide

theorem intField_eq_ok {i : Int} {s : String} :
    intField i = .ok s ↔ ¬ Numeral.Overlong i ∧ Numeral.spelling i = s := by
  rw [intField, Result.liftNumeral_eq_ok]
  by_cases hi : Numeral.Overlong i
  · rw [Numeral.text_of_overlong hi]
    constructor
    · intro h
      cases h
    · intro h
      exact absurd hi h.1
  · rw [Numeral.text_of_not_overlong hi, Except.ok.injEq]
    exact (and_iff_right hi).symm

theorem Magnitude.text_ne_nil (m : Magnitude) : m.text ≠ [] := by
  rcases m.text_mark with h | h <;> exact List.ne_nil_of_mem h

/-- A double on a request line is a token. -/
theorem Binary64.isToken_field (x : Binary64) : IsToken x.field := by
  rw [field]
  split
  · decide
  rename_i hnan
  rw [Binary64.text, IsToken, String.toList_ofList]
  rcases x.chars_cases with rfl | ⟨negative, -, h⟩ | ⟨negative, m, -, h⟩
  · exact absurd rfl hnan
  · rw [h]
    cases negative <;> exact ⟨by decide, List.all_eq_true.1 (by decide)⟩
  · rw [h]
    refine ⟨by simp [m.text_ne_nil], ?_⟩
    intro c hc
    rcases List.mem_append.1 hc with hc | hc
    · cases negative
      · cases hc
      · obtain rfl := List.mem_singleton.1 hc
        decide
    · exact isGraphic_of_isDecimalChar (m.text_chars c hc)

namespace Scalar

/-- The text of a number on a request line; a text counts as the double that it spells. -/
def spelled : Scalar → String
  | int i => Numeral.spelling i
  | float x => x.field
  | text s => ((Binary64.ofText? s.toList).map Binary64.field).getD ""
  | _ => ""

/-- The text of a bound on a request line. -/
def spelledBound (v : Scalar) : String :=
  if v = null then unknownWord else v.spelled

/-- The text of a share on a request line. -/
def spelledShare (v : Scalar) : String :=
  (v.toBinary64?.map Binary64.field).getD ""

/-- The word that a value is. -/
def word : Scalar → String
  | text s => s
  | _ => ""

theorem field_eq {v : Scalar} {s : String} (h : v.field = .ok s) :
    s = v.spelled ∧ IsToken s := by
  cases v with
  | int i =>
    obtain ⟨-, rfl⟩ := intField_eq_ok.1 h
    exact ⟨rfl, isToken_spelling i⟩
  | float x =>
    obtain rfl := Except.ok.inj h
    exact ⟨rfl, x.isToken_field⟩
  | text t =>
    rw [field] at h
    split at h
    · rename_i x hx
      obtain rfl := Except.ok.inj h
      refine ⟨?_, x.isToken_field⟩
      rw [spelled, hx]
      rfl
    · cases h
  | null | bool _ | blank => cases h

theorem boundField_eq {v : Scalar} {s : String} (h : boundField v = .ok s) :
    s = v.spelledBound ∧ IsToken s := by
  rw [boundField] at h
  rw [spelledBound]
  split at h
  · rename_i hnull
    obtain rfl := Except.ok.inj h
    rw [if_pos hnull]
    exact ⟨rfl, by decide⟩
  · rename_i hnull
    rw [if_neg hnull]
    exact field_eq h

end Scalar

/-- The text of a limit of a range on a request line. -/
def Slot.spelled : Slot Int → String
  | given i => Numeral.spelling i
  | blank => "[]"

theorem limitField_eq {limit : Slot Int} {s : String} (h : limitField limit = .ok s) :
    s = limit.spelled ∧ IsToken s := by
  cases limit with
  | given i =>
    obtain ⟨-, rfl⟩ := intField_eq_ok.1 h
    exact ⟨rfl, isToken_spelling i⟩
  | blank =>
    obtain rfl := Except.ok.inj h
    exact ⟨rfl, by decide⟩

/-! ### Lists of fields -/

/-- Fields that are tokens with known texts, one after the other. -/
theorem mapM_spelled {α : Type} {f : α → Except Error String} {g : α → String} {xs : List α}
    (hf : ∀ a ∈ xs, ∀ s, f a = .ok s → s = g a ∧ IsToken s) {fields : List String}
    (h : xs.mapM f = .ok fields) : fields = xs.map g ∧ ∀ t ∈ fields, IsToken t := by
  have hfields := Result.mapM_eq_ok.1 h
  clear h
  induction hfields with
  | nil => exact ⟨rfl, by simp⟩
  | cons hx _ ih =>
    obtain ⟨hfirst, hlater⟩ := List.forall_mem_cons.1 hf
    obtain ⟨rfl, htoken⟩ := hfirst _ hx
    obtain ⟨rfl, htokens⟩ := ih hlater
    exact ⟨rfl, List.forall_mem_cons.2 ⟨htoken, htokens⟩⟩

/-! ### Words -/

/-- A kind that was found is named by what was given. -/
theorem SourceKind.eq_of_ofScalar? {v : Scalar} {k : SourceKind} (h : ofScalar? v = some k) :
    v = .text k.word := by
  have hv := List.find?_some h
  exact (of_decide_eq_true hv).symm

theorem SourceKind.isToken_word (k : SourceKind) : IsToken k.word := by
  cases k <;> decide

/-- A consolidation function that was found is named by what was given. -/
theorem Consolidation.eq_of_ofScalar? {v : Scalar} {f : Consolidation}
    (h : ofScalar? v = some f) : v = .text f.word := by
  have hv := List.find?_some h
  exact (of_decide_eq_true hv).symm

theorem Consolidation.isToken_word (f : Consolidation) : IsToken f.word := by
  cases f <;> decide

end RrdCache
