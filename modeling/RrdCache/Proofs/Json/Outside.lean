/-
RrdCache/Proofs/Json/Outside.lean

What a JSON text shows outside its strings.  Strings may hold any characters, but outside of
them a text is made of few.  `Bare s t` says that `s` ends outside its strings, and that `t` is
left of it without them; texts that follow each other are bare one by one.

Main result (`IsText.outside_subset`).  A character that is none of those few, and stands
outside the strings, makes a text no JSON.
-/
import RrdCache.Proofs.Json.Grammar

namespace RrdCache

namespace Json

/-! ### Outside strings -/

/-- Where a character of a text stands: outside strings, inside one, or there after a
backslash. -/
inductive Mode
  | outside
  | inside
  | escaped

/-- The characters of a text that stand outside its strings, if it starts at this place. -/
def outside : Mode → List Char → List Char
  | _, [] => []
  | .outside, c :: s => if c = '"' then outside .inside s else c :: outside .outside s
  | .inside, c :: s =>
    if c = '"' then outside .outside s
    else if c = '\\' then outside .escaped s
    else outside .inside s
  | .escaped, _ :: s => outside .inside s

/-- A text that ends outside its strings, and what is left of it without them. -/
def Bare (s t : List Char) : Prop :=
  ∀ rest, outside .outside (s ++ rest) = t ++ outside .outside rest

variable {s t s' t' : List Char} {c : Char}

theorem Bare.eq_outside (h : Bare s t) : t = outside .outside s := by
  have hs := h []
  simpa [outside] using hs.symm

theorem Bare.append (h : Bare s t) (h' : Bare s' t') : Bare (s ++ s') (t ++ t') := by
  intro rest
  rw [List.append_assoc, h, h', List.append_assoc]

theorem bare_of_no_quote (h : '"' ∉ s) : Bare s s := by
  intro rest
  induction s with
  | nil => rfl
  | cons c s ih =>
    obtain ⟨hc, hs⟩ := not_or.1 (mt List.mem_cons.2 h)
    show outside .outside (c :: (s ++ rest)) = _
    rw [outside, if_neg (Ne.symm hc), ih hs]
    rfl

/-! ### Strings -/

/-- What stays inside a string. -/
def Stays (s : List Char) : Prop :=
  ∀ rest, outside .inside (s ++ rest) = outside .inside rest

theorem stays_of_plain (h : ∀ c ∈ s, c ≠ '"' ∧ c ≠ '\\') : Stays s := by
  intro rest
  induction s with
  | nil => rfl
  | cons c s ih =>
    obtain ⟨⟨hquote, hslash⟩, hs⟩ := List.forall_mem_cons.1 h
    show outside .inside (c :: (s ++ rest)) = _
    rw [outside, if_neg hquote, if_neg hslash, ih hs]

theorem IsChar.stays (h : IsChar s) : Stays s := by
  cases h with
  | itself hlow hquote hslash => exact stays_of_plain (List.forall_mem_singleton.2 ⟨hquote, hslash⟩)
  | named h => exact fun rest => rfl
  | code hlength hhex =>
    have hplain : '"' ∉ hexDigits ∧ '\\' ∉ hexDigits := by decide
    have hdigits : Stays _ := stays_of_plain fun d hd =>
      ⟨ne_of_mem_of_not_mem (hhex hd) hplain.1, ne_of_mem_of_not_mem (hhex hd) hplain.2⟩
    exact fun rest => hdigits rest

theorem IsChars.stays (h : IsChars s) : Stays s := by
  induction h with
  | nil => exact fun _ => rfl
  | cons hc hs ih =>
    intro rest
    rw [List.append_assoc, hc.stays, ih]

/-- Nothing of a string stands outside of it. -/
theorem IsString.bare (h : IsString s) : Bare s [] := by
  cases h with
  | @quoted s h =>
    intro rest
    show outside .outside ('"' :: (s ++ ['"'] ++ rest)) = _
    rw [outside, if_pos rfl, List.append_assoc, h.stays]
    exact if_pos rfl

/-! ### Texts -/

/-- The characters that stand outside the strings of a text. -/
def outsideChars : List Char :=
  " \t\n\r[]\x7b\x7d:,nulltruefalse0123456789+-.eE".toList

/-- A text that ends outside its strings; `few` tells whether it shows no other characters
there. -/
def Shows (few : Bool) (s : List Char) : Prop :=
  ∃ t, Bare s t ∧ (t ⊆ outsideChars ↔ few = true)

theorem Shows.append {few few' : Bool} (h : Shows few s) (h' : Shows few' s') :
    Shows (few && few') (s ++ s') := by
  obtain ⟨t, hbare, hfew⟩ := h
  obtain ⟨t', hbare', hfew'⟩ := h'
  refine ⟨t ++ t', hbare.append hbare', ?_⟩
  rw [List.append_subset, hfew, hfew', Bool.and_eq_true]

theorem shows_of_subset (h : s ⊆ outsideChars) : Shows true s := by
  refine ⟨s, bare_of_no_quote fun hquote => ?_, by simpa using h⟩
  exact absurd (h hquote) (by decide)

theorem IsString.shows (h : IsString s) : Shows true s :=
  ⟨[], h.bare, by simp⟩

theorem IsSpace.subset (h : IsSpace s) : s ⊆ outsideChars := by
  intro c hc
  rcases h c hc with rfl | rfl | rfl | rfl <;> decide

theorem IsMark.shows (h : IsMark c s) (hc : c ∈ outsideChars) : Shows true s := by
  cases h with
  | around hbefore hafter =>
    apply shows_of_subset
    exact List.append_subset.2 ⟨hbefore.subset, List.cons_subset.2 ⟨hc, hafter.subset⟩⟩

theorem mem_outsideChars_of_isDigit (hc : c.isDigit) : c ∈ outsideChars := by
  have hall : ∀ n < 58, 48 ≤ n → Char.ofNat n ∈ outsideChars := by decide
  simp only [Char.isDigit, Bool.and_eq_true, decide_eq_true_eq, ge_iff_le,
    UInt32.le_iff_toNat_le] at hc
  have hmem := hall c.toNat (Nat.lt_succ_of_le hc.2) hc.1
  rwa [Char.ofNat_toNat] at hmem

theorem IsDigits.subset (h : IsDigits s) : s ⊆ outsideChars :=
  fun c hc => mem_outsideChars_of_isDigit (h.2 c hc)

theorem IsWhole.subset (h : IsWhole s) : s ⊆ outsideChars := by
  cases h with
  | zero => decide
  | digits hc hne hs =>
    exact List.cons_subset.2
      ⟨mem_outsideChars_of_isDigit hc, fun d hd => mem_outsideChars_of_isDigit (hs d hd)⟩

theorem IsFraction.subset (h : IsFraction s) : s ⊆ outsideChars := by
  cases h with
  | none => exact List.nil_subset _
  | point h => exact List.cons_subset.2 ⟨by decide, h.subset⟩

theorem IsExponent.subset (h : IsExponent s) : s ⊆ outsideChars := by
  cases h with
  | none => exact List.nil_subset _
  | letter he hsign h =>
    refine List.cons_subset.2 ⟨?_, List.append_subset.2 ⟨?_, h.subset⟩⟩
    · rcases he with rfl | rfl <;> decide
    · rcases hsign with rfl | rfl | rfl <;> decide

theorem IsNumber.subset (h : IsNumber s) : s ⊆ outsideChars := by
  cases h with
  | parts hminus hwhole hfraction hexponent =>
    simp only [List.append_subset]
    refine ⟨⟨⟨?_, hwhole.subset⟩, hfraction.subset⟩, hexponent.subset⟩
    rcases hminus with rfl | rfl <;> decide

mutual

theorem IsValue.shows : {s : List Char} → IsValue s → Shows true s
  | _, .word h => by
    apply shows_of_subset
    rcases h with rfl | rfl | rfl <;> decide
  | _, .number h => shows_of_subset h.subset
  | _, .string h => h.shows
  | _, .emptyArray hopening hclosing =>
    (hopening.shows (by decide)).append (hclosing.shows (by decide))
  | _, .array hopening hitems hclosing =>
    ((hopening.shows (by decide)).append hitems.shows).append
      (hclosing.shows (by decide))
  | _, .emptyObject hopening hclosing =>
    (hopening.shows (by decide)).append (hclosing.shows (by decide))
  | _, .object hopening hmembers hclosing =>
    ((hopening.shows (by decide)).append hmembers.shows).append
      (hclosing.shows (by decide))

theorem IsItems.shows : {s : List Char} → IsItems s → Shows true s
  | _, .last h => h.shows
  | _, .cons h hcomma hrest =>
    (h.shows.append (hcomma.shows (by decide))).append hrest.shows

theorem IsMember.shows : {s : List Char} → IsMember s → Shows true s
  | _, .named hname hcolon hvalue =>
    (hname.shows.append (hcolon.shows (by decide))).append hvalue.shows

theorem IsMembers.shows : {s : List Char} → IsMembers s → Shows true s
  | _, .last h => h.shows
  | _, .cons h hcomma hrest =>
    (h.shows.append (hcomma.shows (by decide))).append hrest.shows

end

/-- Outside its strings a text has few characters. -/
theorem IsText.outside_subset (h : IsText s) : outside .outside s ⊆ outsideChars := by
  cases h with
  | around hbefore hvalue hafter =>
    obtain ⟨t, hbare, hfew⟩ := ((shows_of_subset hbefore.subset).append hvalue.shows).append
      (shows_of_subset hafter.subset)
    rw [← hbare.eq_outside]
    exact hfew.2 rfl

end Json

end RrdCache
