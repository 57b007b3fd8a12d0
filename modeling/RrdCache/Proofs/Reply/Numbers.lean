/-
RrdCache/Proofs/Reply/Numbers.lean

The numbers of data lines, said without the readers.  A number is a sign and either a decimal
or a word: a decimal has digits before its point, after it or on both sides, and perhaps an
exponent; the words are those for infinity and for no number, in capitals or small letters of
ASCII.

Main result: these are the tokens that have the shape of a number and are converted as well,
and the conversion gives the double that the parts of the token name (`Row.names_iff`).
-/
import RrdCache.Proofs.Number.RoundTrip
import RrdCache.Proofs.Reply.Grammar
import RrdCache.Proofs.Reply.Words

namespace RrdCache

/-! ### Decimals -/

namespace Decimal

open Shape

/-- The text of a coefficient: its digits, and perhaps a point before, among or after them. -/
inductive Coefficient : (text whole fraction : List Char) → Prop
  | whole {whole : List Char} (digits : IsDigits whole) : Coefficient whole whole []
  | pointed {whole fraction : List Char} (digits : IsDigits (whole ++ fraction)) :
    Coefficient (whole ++ '.' :: fraction) whole fraction

/-- The text of an exponent; without one the exponent is zero. -/
inductive Exponent : List Char → Int → Prop
  | missing : Exponent [] 0
  | given {letter : Char} {sign digits : List Char} (letter_cases : letter = 'e' ∨ letter = 'E')
    (sign_cases : sign = [] ∨ sign = ['+'] ∨ sign = ['-']) (isDigits : IsDigits digits) :
    Exponent (letter :: (sign ++ digits))
      (Numeral.signed (sign = ['-']) (Numeral.natOfDigits digits))

/-- A coefficient and an exponent, and the decimal that they make up. -/
inductive Spells : Decimal → List Char → Prop
  | parts {text whole fraction exponent : List Char} {n : Int}
    (coefficient : Coefficient text whole fraction) (power : Exponent exponent n) :
    Spells ⟨Numeral.natOfDigits (whole ++ fraction), n - fraction.length⟩ (text ++ exponent)

/-! #### Reading the parts -/

variable {s : List Char}

/-- Where no underscore stands, a run of digits is cut off in front. -/
theorem exists_digitRun (hs : '_' ∉ s) :
    ∃ run rest, s = run ++ rest ∧ (∀ c ∈ run, c.isDigit) ∧ EndsRun rest := by
  refine ⟨_, _, List.takeWhile_append_dropWhile.symm, fun c hc => ?_, Scan.ends_dropWhile⟩
  have hpart := List.mem_takeWhile_imp hc
  have hmem := (List.takeWhile_sublist _).subset hc
  rw [Bool.or_eq_true, beq_iff_eq] at hpart
  exact hpart.resolve_right fun h => hs (h ▸ hmem)

theorem Exponent.endsRun {n : Int} (h : Exponent s n) : EndsRun s := by
  cases h with
  | missing => exact Scan.ends_nil
  | given letter_cases => rcases letter_cases with rfl | rfl <;> exact Scan.ends_cons.2 (by decide)

/-- An exponent without underscores is read if it is one. -/
theorem exponent?_eq_some_iff {n : Int} (hs : '_' ∉ s) : exponent? s = some n ↔ Exponent s n := by
  constructor
  · intro h
    rcases s with - | ⟨c, rest⟩
    · obtain rfl := Option.some.inj h
      exact .missing
    · obtain ⟨sign, hsign, hrest, hnegative⟩ := Numeral.exists_sign rest
      rw [exponent?] at h
      generalize Numeral.sign rest = split at h hrest hnegative
      obtain ⟨negative, digits⟩ := split
      subst hrest hnegative
      split at h
      · rename_i hletter
        dsimp only at h
        split at h
        · rename_i hpart
          have hdigits : ∀ d ∈ digits, d.isDigit := by
            intro d hd
            have hd' := List.all_eq_true.1 hpart d hd
            rw [Bool.or_eq_true, beq_iff_eq] at hd'
            refine hd'.resolve_right ?_
            rintro rfl
            exact hs (by simp [hd])
          have hne : digits ≠ [] := by
            rintro rfl
            cases h
          rw [Numeral.ungroup?_eq_some hne hdigits] at h
          obtain rfl := Option.some.inj h
          exact .given hletter hsign ⟨hne, hdigits⟩
        · cases h
      · cases h
  · intro h
    cases h with
    | missing => rfl
    | @given letter sign digits hletter hsign hdigits =>
      have hall : (digits.all fun d => d.isDigit || d == '_') = true :=
        List.all_eq_true.2 fun d hd => by simp [hdigits.2 d hd]
      rw [exponent?, if_pos hletter, Numeral.sign_append_digits hsign hdigits.1 hdigits.2]
      dsimp only
      rw [if_pos hall, Numeral.ungroup?_eq_some hdigits.1 hdigits.2, Option.map_some]

theorem Exponent.fractionRun_eq {n : Int} (h : Exponent s n) : fractionRun s = ([], s) := by
  cases h with
  | missing => rfl
  | given letter_cases => rcases letter_cases with rfl | rfl <;> rfl

/-- A decimal without underscores is read if it is one. -/
theorem ofChars?_eq_some_iff {d : Decimal} (hs : '_' ∉ s) : ofChars? s = some d ↔ d.Spells s := by
  constructor
  · intro h
    obtain ⟨whole, rest, rfl, hwhole, hends⟩ := exists_digitRun hs
    have hrest : '_' ∉ rest := fun h => hs (List.mem_append_right _ h)
    by_cases hpoint : ∃ more, rest = '.' :: more
    · obtain ⟨more, rfl⟩ := hpoint
      obtain ⟨fraction, exponent, rfl, hfraction, hends'⟩ :=
        exists_digitRun fun h => hrest (List.mem_cons_of_mem _ h)
      rw [ofChars?_append hwhole hends (fractionRun_pointed hfraction hends') hfraction,
        Option.bind_eq_some_iff] at h
      obtain ⟨n, hn, h⟩ := h
      split at h
      · cases h
      · rename_i hne
        obtain rfl := Option.some.inj h
        have hdigits : IsDigits (whole ++ fraction) :=
          ⟨by simpa using hne, List.forall_mem_append.2 ⟨hwhole, hfraction⟩⟩
        have hspells := Spells.parts (.pointed hdigits)
          ((exponent?_eq_some_iff fun h => hrest (by simp [h])).1 hn)
        simpa using hspells
    · have hplain : fractionRun rest = ([], rest) := by
        rw [fractionRun]
        rintro more rfl
        exact hpoint ⟨more, rfl⟩
      rw [ofChars?_append hwhole hends hplain (List.forall_mem_nil _),
        Option.bind_eq_some_iff] at h
      obtain ⟨n, hn, h⟩ := h
      split at h
      · cases h
      · rename_i hne
        obtain rfl := Option.some.inj h
        exact .parts (.whole ⟨by simpa using hne, hwhole⟩) ((exponent?_eq_some_iff hrest).1 hn)
  · rintro ⟨hcoefficient, hexponent⟩
    have hread := (exponent?_eq_some_iff (fun h => hs (by simp [h]))).2 hexponent
    cases hcoefficient with
    | whole digits =>
      rw [ofChars?_append digits.2 hexponent.endsRun hexponent.fractionRun_eq
        (List.forall_mem_nil _), hread, Option.bind_some, if_neg (by simp [digits.1])]
    | pointed digits =>
      obtain ⟨hwhole, hfraction⟩ := List.forall_mem_append.1 digits.2
      rw [List.append_assoc, List.cons_append,
        ofChars?_append hwhole (Scan.ends_cons.2 (by decide))
          (fractionRun_pointed hfraction hexponent.endsRun) hfraction,
        hread, Option.bind_some, if_neg (by simpa using digits.1)]

/-! #### The characters -/

theorem Coefficient.chars {text whole fraction : List Char} (h : Coefficient text whole fraction) :
    ∀ c ∈ text, c.isDigit ∨ c = '.' := by
  intro c hc
  cases h with
  | whole digits => exact .inl (digits.2 c hc)
  | pointed digits =>
    rcases List.mem_append.1 hc with hc | hc
    · exact .inl (digits.2 c (List.mem_append_left _ hc))
    · rcases List.mem_cons.1 hc with rfl | hc
      · exact .inr rfl
      · exact .inl (digits.2 c (List.mem_append_right _ hc))

theorem Exponent.chars {n : Int} (h : Exponent s n) : ∀ c ∈ s, Row.isDecimalChar c := by
  intro c hc
  cases h with
  | missing => cases hc
  | given letter_cases sign_cases digits =>
    rcases List.mem_cons.1 hc with rfl | hc
    · rcases letter_cases with rfl | rfl <;> decide
    · rcases List.mem_append.1 hc with hc | hc
      · rcases sign_cases with rfl | rfl | rfl
        · cases hc
        · obtain rfl := List.mem_singleton.1 hc
          decide
        · obtain rfl := List.mem_singleton.1 hc
          decide
      · rw [Row.isDecimalChar, digits.2 c hc, Bool.true_or]

theorem Spells.chars {d : Decimal} (h : d.Spells s) : ∀ c ∈ s, Row.isDecimalChar c := by
  obtain ⟨hcoefficient, hexponent⟩ := h
  refine List.forall_mem_append.2 ⟨fun c hc => ?_, hexponent.chars⟩
  rcases hcoefficient.chars c hc with hdigit | rfl
  · rw [Row.isDecimalChar, hdigit, Bool.true_or]
  · decide

theorem Spells.exists_digit {d : Decimal} (h : d.Spells s) : ∃ c ∈ s, c.isDigit := by
  obtain ⟨hcoefficient, -⟩ := h
  cases hcoefficient with
  | whole digits =>
    obtain ⟨c, hc⟩ := List.exists_mem_of_ne_nil _ digits.1
    exact ⟨c, List.mem_append_left _ hc, digits.2 c hc⟩
  | pointed digits =>
    obtain ⟨c, hc⟩ := List.exists_mem_of_ne_nil _ digits.1
    refine ⟨c, ?_, digits.2 c hc⟩
    rcases List.mem_append.1 hc with hc | hc <;> simp [hc]

theorem not_mem_underscore (h : ∀ c ∈ s, Row.isDecimalChar c) : '_' ∉ s := fun hmem =>
  absurd (h _ hmem) (by decide)

end Decimal

/-! ### Numbers -/

namespace Row

/-- A number without its sign, and the double that it names with this sign. -/
inductive NamesUnsigned (negative : Bool) : List Char → Binary64 → Prop
  | decimal {s : List Char} {d : Decimal} (spells : d.Spells s) :
    NamesUnsigned negative s (d.round negative)
  | infinity {s : List Char}
    (word : s.map Char.toLower = "inf".toList ∨ s.map Char.toLower = "infinity".toList) :
    NamesUnsigned negative s (.infinite negative)
  | nan {s : List Char} (word : s.map Char.toLower = "nan".toList) : NamesUnsigned negative s .nan

/-- A number, and the double that it names. -/
inductive Names : List Char → Binary64 → Prop
  | signed {sign s : List Char} {x : Binary64}
    (sign_cases : sign = [] ∨ sign = ['+'] ∨ sign = ['-'])
    (names : NamesUnsigned (sign = ['-']) s x) : Names (sign ++ s) x

variable {negative : Bool} {s : List Char} {x : Binary64}

/-- The words whose letters are those of ASCII. -/
def IsWord (s : List Char) : Prop :=
  s.map Char.toLower ∈ ["nan".toList, "inf".toList, "infinity".toList]

theorem NamesUnsigned.cases (h : NamesUnsigned negative s x) :
    IsWord s ∨ ∃ d : Decimal, d.Spells s ∧ x = d.round negative := by
  cases h with
  | decimal spells => exact .inr ⟨_, spells, rfl⟩
  | infinity word => exact .inl (by rcases word with h | h <;> simp [IsWord, h])
  | nan word => exact .inl (by simp [IsWord, word])

/-- No letter of such a word is a foreign one. -/
theorem IsWord.plain (h : IsWord s) : ∀ c ∈ s, isForeignI c = false := by
  have hletters : ∀ w ∈ ["nan".toList, "inf".toList, "infinity".toList], 'İ' ∉ w ∧ 'ı' ∉ w := by
    decide
  obtain ⟨hcapital, hsmall⟩ := hletters _ h
  intro c hc
  have hlower : c.toLower ∈ s.map Char.toLower := List.mem_map_of_mem hc
  rw [Bool.eq_false_iff]
  intro hi
  rcases eq_of_isForeignI hi with rfl | rfl
  · exact hcapital hlower
  · exact hsmall hlower

theorem map_caseless_of_plain (h : ∀ c ∈ s, isForeignI c = false) :
    s.map caseless = s.map Char.toLower :=
  List.map_congr_left fun c hc => caseless_eq (h c hc)

theorem IsWord.contains (h : IsWord s) :
    numberWords.contains (String.ofList (s.map caseless)) := by
  rw [map_caseless_of_plain h.plain]
  have hwords : ∀ w ∈ ["nan".toList, "inf".toList, "infinity".toList],
      numberWords.contains (String.ofList w) := by decide
  exact hwords _ h

/-- Neither a word nor a decimal begins with a sign. -/
theorem NamesUnsigned.sign_eq (h : NamesUnsigned negative s x) : Numeral.sign s = (false, s) := by
  obtain hword | ⟨d, hd, -⟩ := h.cases
  · unfold Numeral.sign
    split
    · exact absurd hword (by simp [IsWord])
    · exact absurd hword (by simp [IsWord])
    · rfl
  · have hread := (Decimal.ofChars?_eq_some_iff (Decimal.not_mem_underscore hd.chars)).2 hd
    rcases s with - | ⟨c, s⟩
    · rfl
    · apply sign_of_isDecimalStart
      by_contra hstart
      rw [Decimal.ofChars?_eq_none (by simpa using hstart)] at hread
      cases hread

theorem NamesUnsigned.isFolded (h : NamesUnsigned negative s x) : ∀ c ∈ s, IsFolded c := by
  obtain hword | ⟨d, hd, -⟩ := h.cases
  · exact fun c hc => isFolded_of_mem_word hword.contains hc
  · exact fun c hc => isFolded_of_isGraphic (isGraphic_of_rowChar (hd.chars c hc))

theorem NamesUnsigned.ofUnsigned?_eq (h : NamesUnsigned negative s x) :
    Binary64.ofUnsigned? negative s = some x := by
  rw [Binary64.ofUnsigned?]
  cases h with
  | decimal spells =>
    obtain ⟨c, hc, hdigit⟩ := spells.exists_digit
    have hread := (Decimal.ofChars?_eq_some_iff (Decimal.not_mem_underscore spells.chars)).2 spells
    rw [Binary64.ofWord?_of_isDigit hc hdigit, hread]
    rfl
  | infinity word => rcases word with h | h <;> rw [Binary64.ofWord?, h] <;> rfl
  | nan word =>
    rw [Binary64.ofWord?, word]
    rfl

/-- What has the shape of a number names one, unless it is spelt with a foreign letter. -/
theorem names_or_hasForeignI (negative : Bool)
    (h : numberWords.contains (String.ofList (s.map caseless)) ∨
      (s.all isDecimalChar ∧ (Decimal.ofChars? s).isSome)) :
    HasForeignI s ∨ ∃ x, NamesUnsigned negative s x := by
  rcases h with hword | ⟨hall, hdecimal⟩
  · by_cases hforeign : HasForeignI s
    · exact .inl hforeign
    · have hplain : ∀ c ∈ s, isForeignI c = false := fun c hc => by
        simpa using fun hi => hforeign ⟨c, hc, hi⟩
      have hmem := map_caseless_mem hword
      rw [map_caseless_of_plain hplain] at hmem
      simp only [List.mem_cons, List.not_mem_nil, or_false] at hmem
      rcases hmem with hnan | hinf
      · exact .inr ⟨_, .nan hnan⟩
      · exact .inr ⟨_, .infinity hinf⟩
  · obtain ⟨d, hd⟩ := Option.isSome_iff_exists.1 hdecimal
    have hchars := List.all_eq_true.1 hall
    exact .inr ⟨_, .decimal
      ((Decimal.ofChars?_eq_some_iff (Decimal.not_mem_underscore hchars)).1 hd)⟩

theorem NamesUnsigned.shape (h : NamesUnsigned negative s x) :
    numberWords.contains (String.ofList (s.map caseless)) ∨
      (s.all isDecimalChar ∧ (Decimal.ofChars? s).isSome) := by
  obtain hword | ⟨d, hd, -⟩ := h.cases
  · exact .inl hword.contains
  · have hread := (Decimal.ofChars?_eq_some_iff (Decimal.not_mem_underscore hd.chars)).2 hd
    exact .inr ⟨List.all_eq_true.2 hd.chars, Option.isSome_iff_exists.2 ⟨d, hread⟩⟩

theorem isNumber_iff {token : List Char} : isNumber token ↔
    numberWords.contains (String.ofList ((Numeral.sign token).2.map caseless)) ∨
      ((Numeral.sign token).2.all isDecimalChar ∧
        (Decimal.ofChars? (Numeral.sign token).2).isSome) := by
  rw [isNumber, Bool.or_eq_true, Bool.and_eq_true]

/-- The tokens that name a number are those of the right shape that are converted, and the
conversion gives the double that they name. -/
theorem names_iff {token : List Char} {x : Binary64} :
    Names token x ↔ isNumber token ∧ Binary64.ofText? token = some x := by
  have hreads {token : List Char} {x : Binary64} (h : Names token x) :
      isNumber token ∧ Binary64.ofText? token = some x := by
    obtain ⟨hsign, hnames⟩ := h
    have hsplit := Numeral.sign_signed hsign hnames.sign_eq
    rw [isNumber_iff, ofText?_eq (by rw [hsplit]; exact hnames.isFolded), hsplit]
    exact ⟨hnames.shape, hnames.ofUnsigned?_eq⟩
  refine ⟨hreads, ?_⟩
  rintro ⟨hnumber, hread⟩
  obtain ⟨sign, hsign, htoken, hnegative⟩ := Numeral.exists_sign token
  obtain hforeign | ⟨y, hy⟩ := names_or_hasForeignI (sign = ['-']) (isNumber_iff.1 hnumber)
  · have hnone := (ofText?_eq_none_iff hnumber).2 (hasForeignI_sign.2 hforeign)
    rw [hread] at hnone
    cases hnone
  · have hnames : Names token y := htoken ▸ .signed hsign hy
    obtain rfl := Option.some.inj (hread.symm.trans (hreads hnames).2)
    exact hnames

end Row

end RrdCache
