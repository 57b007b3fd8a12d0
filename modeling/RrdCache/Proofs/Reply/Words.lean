/-
RrdCache/Proofs/Reply/Words.lean

Tokens of data lines as doubles.  What has the shape of a number on a data line is a number,
but for the words that are spelt with a foreign letter i: the shape lets the dotted capital
and the dotless small one pass for the plain letter, and the conversion does not.

Main result (`ofText?_eq_none_iff`): a token of the right shape is refused by the conversion
if and only if one of these two letters stands in it.
-/
import RrdCache.Proofs.Number.Reading
import RrdCache.Reply.Row

namespace RrdCache

theorem isAlpha_of_toLower {c : Char} (h : c.toLower.isAlpha) : c.isAlpha := by
  by_cases hupper : c.isUpper
  · unfold Char.isAlpha
    rw [hupper, Bool.true_or]
  · have hsame : c.toLower = c := by
      unfold Char.toLower
      rw [dif_neg]
      unfold Char.isUpper at hupper
      simpa using hupper
    rwa [hsame] at h

namespace Row

/-- One of the two letters that count as the plain i for shapes, but not for words. -/
def isForeignI (c : Char) : Bool :=
  c == 'İ' || c == 'ı'

/-- A token that is spelt with a foreign letter i. -/
def HasForeignI (token : List Char) : Prop :=
  ∃ c ∈ token, isForeignI c

theorem caseless_eq {c : Char} (h : isForeignI c = false) : caseless c = c.toLower := by
  simp only [isForeignI, Bool.or_eq_false_iff, beq_eq_false_iff_ne] at h
  rw [caseless, if_neg]
  simp [h.1, h.2]

theorem eq_of_isForeignI {c : Char} (h : isForeignI c) : c = 'İ' ∨ c = 'ı' := by
  simpa [isForeignI] using h

theorem isFolded_of_isForeignI {c : Char} (h : isForeignI c) : IsFolded c := by
  rcases eq_of_isForeignI h with rfl | rfl <;> decide

theorem caseless_of_isDigit {c : Char} (h : c.isDigit) : caseless c = c := by
  have hforeign : isForeignI c = false := by
    rw [Bool.eq_false_iff]
    intro hi
    rcases eq_of_isForeignI hi with rfl | rfl <;> exact absurd h (by decide)
  rw [caseless_eq hforeign, toLower_of_isDigit h]

/-! ### Words -/

/-- A word with a foreign letter is none. -/
theorem ofWord?_of_hasForeignI {body : List Char} (h : HasForeignI body) (negative : Bool) :
    Binary64.ofWord? negative body = none := by
  obtain ⟨c, hc, hi⟩ := h
  refine Binary64.ofWord?_eq_none hc ?_ negative
  -- lowering leaves the foreign letter, which no word has
  rcases eq_of_isForeignI hi with rfl | rfl <;> decide

section Word

variable {body : List Char} (h : numberWords.contains (String.ofList (body.map caseless)))

include h

theorem map_caseless_mem :
    body.map caseless ∈ ["nan".toList, "inf".toList, "infinity".toList] := by
  simp only [numberWords, List.contains_cons, List.contains_nil, Bool.or_false, Bool.or_eq_true,
    beq_iff_eq, ← String.toList_inj, String.toList_ofList] at h
  simpa using h

/-- A word is letters of ASCII, but for the foreign letters i. -/
theorem isAlpha_of_mem_word {c : Char} (hc : c ∈ body) : isForeignI c ∨ c.isAlpha := by
  by_cases hforeign : isForeignI c
  · exact .inl hforeign
  · right
    have hwords : ∀ w ∈ ["nan".toList, "inf".toList, "infinity".toList], w.all Char.isAlpha := by
      decide
    have hword := hwords _ (map_caseless_mem h)
    have halpha := List.all_eq_true.1 hword _ (List.mem_map_of_mem hc)
    rw [caseless_eq (by simpa using hforeign)] at halpha
    exact isAlpha_of_toLower halpha

theorem isFolded_of_mem_word {c : Char} (hc : c ∈ body) : IsFolded c := by
  rcases isAlpha_of_mem_word h hc with hforeign | halpha
  · exact isFolded_of_isForeignI hforeign
  · exact isFolded_of_isGraphic (isGraphic_of_isAlpha halpha)

/-- A word of plain letters is a double. -/
theorem ofWord?_isSome (hplain : ∀ c ∈ body, isForeignI c = false) (negative : Bool) :
    (Binary64.ofWord? negative body).isSome := by
  have hlower : body.map Char.toLower = body.map caseless :=
    List.map_congr_left fun c hc => (caseless_eq (hplain c hc)).symm
  have hmem := map_caseless_mem h
  rw [Binary64.ofWord?, hlower]
  simp only [List.mem_cons, List.not_mem_nil, or_false] at hmem
  rcases hmem with hw | hw | hw <;> rw [hw] <;> cases negative <;> decide

/-- A word is no decimal: its first letter begins none. -/
theorem ofChars?_word : Decimal.ofChars? body = none := by
  have hmem := map_caseless_mem h
  cases body with
  | nil => simp at hmem
  | cons c body =>
    refine Decimal.ofChars?_eq_none ?_ body
    have hfirst : caseless c = 'n' ∨ caseless c = 'i' := by
      simp only [List.map_cons, List.mem_cons, List.not_mem_nil, or_false] at hmem
      rcases hmem with hw | hw | hw
      · exact .inl (List.cons.inj hw).1
      · exact .inr (List.cons.inj hw).1
      · exact .inr (List.cons.inj hw).1
    -- a digit stays a digit, and the other four characters are looked at one by one
    rw [Bool.eq_false_iff]
    intro hstart
    simp only [isDecimalStart, Bool.or_eq_true, beq_iff_eq] at hstart
    rcases hstart with (((hdigit | rfl) | rfl) | rfl) | rfl
    · have hsame := caseless_of_isDigit hdigit
      rw [hsame] at hfirst
      rcases hfirst with rfl | rfl <;> exact absurd hdigit (by decide)
    all_goals exact absurd hfirst (by decide)

end Word

/-! ### Decimals -/

theorem isGraphic_of_rowChar {c : Char} (h : isDecimalChar c) : isGraphic c := by
  rw [isDecimalChar, Bool.or_eq_true] at h
  rcases h with h | h
  · exact isGraphic_of_isDigit h
  · have hmarks : ".+-eE".toList.all isGraphic := by decide
    exact List.all_eq_true.1 hmarks c (List.contains_iff_mem.1 h)

/-! ### Tokens -/

theorem isFolded_of_sign {token : List Char}
    (h : ∀ c ∈ (Numeral.sign token).2, IsFolded c) : ∀ c ∈ token, IsFolded c := by
  intro c hc
  rcases mem_sign_or hc with hc | rfl | rfl
  · exact h c hc
  · decide
  · decide

/-- A foreign letter stands behind the sign. -/
theorem hasForeignI_sign {token : List Char} :
    HasForeignI token ↔ HasForeignI (Numeral.sign token).2 := by
  constructor
  · rintro ⟨c, hc, hi⟩
    rcases mem_sign_or hc with hc | rfl | rfl
    · exact ⟨c, hc, hi⟩
    · exact absurd hi (by decide)
    · exact absurd hi (by decide)
  · rintro ⟨c, hc, hi⟩
    exact ⟨c, mem_of_mem_sign hc, hi⟩

theorem ofText?_eq {token : List Char} (h : ∀ c ∈ (Numeral.sign token).2, IsFolded c) :
    Binary64.ofText? token
      = Binary64.ofUnsigned? (Numeral.sign token).1 (Numeral.sign token).2 := by
  rw [Binary64.ofText?, folded_eq_self (isFolded_of_sign h), Binary64.ofChars?]

/-- Of all that has the shape of a number, just the words with a foreign letter i are
refused. -/
theorem ofText?_eq_none_iff {token : List Char} (h : isNumber token) :
    Binary64.ofText? token = none ↔ HasForeignI token := by
  rw [isNumber, Bool.or_eq_true, Bool.and_eq_true] at h
  rw [hasForeignI_sign]
  rcases h with hword | ⟨hall, hdecimal⟩
  -- a word is no decimal, so that it is a double only as a word
  · rw [ofText?_eq fun c hc => isFolded_of_mem_word hword hc, Binary64.ofUnsigned?]
    by_cases hforeign : HasForeignI (Numeral.sign token).2
    · rw [ofWord?_of_hasForeignI hforeign, ofChars?_word hword]
      exact ⟨fun _ => hforeign, fun _ => rfl⟩
    · have hplain : ∀ c ∈ (Numeral.sign token).2, isForeignI c = false := by
        intro c hc
        rw [Bool.eq_false_iff]
        exact fun hi => hforeign ⟨c, hc, hi⟩
      obtain ⟨x, hx⟩ := Option.isSome_iff_exists.1
        (ofWord?_isSome hword hplain (Numeral.sign token).1)
      rw [hx]
      constructor
      · intro hnone
        cases hnone
      · intro hi
        exact absurd hi hforeign
  -- a decimal is graphic ASCII, where no foreign letter stands
  · have hgraphic : ∀ c ∈ (Numeral.sign token).2, isGraphic c := fun c hc =>
      isGraphic_of_rowChar (List.all_eq_true.1 hall c hc)
    obtain ⟨d, hd⟩ := Option.isSome_iff_exists.1 hdecimal
    rw [ofText?_eq fun c hc => isFolded_of_isGraphic (hgraphic c hc), Binary64.ofUnsigned?, hd]
    constructor
    · intro hnone
      split at hnone <;> cases hnone
    · rintro ⟨c, hc, hi⟩
      have hc := hgraphic c hc
      rcases eq_of_isForeignI hi with rfl | rfl <;> exact absurd hc (by decide)

end Row

end RrdCache
