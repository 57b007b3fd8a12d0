/-
RrdCache/Proofs/Text/Token.lean

Tokens and the lines made of them.  A token is a text of graphic ASCII characters, so that
it holds no blank, no line feed and nothing that is not ASCII.  A line of tokens is the tokens
with single blanks between them and a line feed at its end.

Main results: the bytes of a line of tokens are printable ASCII up to one last line feed
(`tokenLine_bytes`), and the line can be taken apart in one way only (`tokenLine_split`).
-/
import RrdCache.Proofs.Text.Utf8

namespace RrdCache

/-- A character of ASCII that is seen: no blank and no control character. -/
def isGraphic (c : Char) : Bool :=
  '!' ≤ c && c ≤ '~'

/-- A text of graphic characters; it is not empty. -/
def IsToken (s : String) : Prop :=
  s.toList ≠ [] ∧ ∀ c ∈ s.toList, isGraphic c

instance (s : String) : Decidable (IsToken s) :=
  have : Decidable (∀ c ∈ s.toList, isGraphic c) := List.decidableBAll _ _
  inferInstanceAs (Decidable (_ ∧ _))

/-- Tokens with single blanks between them, and a line feed. -/
def tokenLine (tokens : List String) : String :=
  String.intercalate " " tokens ++ "\n"

theorem isGraphic_iff {c : Char} : isGraphic c ↔ 0x21 ≤ c.toNat ∧ c.toNat ≤ 0x7E := by
  rw [isGraphic, Bool.and_eq_true, decide_eq_true_iff, decide_eq_true_iff]
  rfl

theorem isDigit_iff {c : Char} : c.isDigit ↔ 0x30 ≤ c.toNat ∧ c.toNat ≤ 0x39 := by
  rw [Char.isDigit, Bool.and_eq_true, decide_eq_true_iff, decide_eq_true_iff]
  rfl

theorem isGraphic_of_isAlphanum {c : Char} (h : c.isAlphanum) : isGraphic c := by
  rw [isGraphic_iff]
  unfold Char.isAlphanum Char.isAlpha Char.isUpper Char.isLower Char.isDigit at h
  simp only [Bool.or_eq_true, Bool.and_eq_true, decide_eq_true_eq, ge_iff_le,
    UInt32.le_iff_toNat_le] at h
  change ((0x41 ≤ c.toNat ∧ c.toNat ≤ 0x5A) ∨ (0x61 ≤ c.toNat ∧ c.toNat ≤ 0x7A)) ∨
    (0x30 ≤ c.toNat ∧ c.toNat ≤ 0x39) at h
  omega

theorem isGraphic_of_isAlpha {c : Char} (h : c.isAlpha) : isGraphic c := by
  apply isGraphic_of_isAlphanum
  unfold Char.isAlphanum
  rw [h, Bool.true_or]

theorem isGraphic_of_isDigit {c : Char} (h : c.isDigit) : isGraphic c := by
  apply isGraphic_of_isAlphanum
  unfold Char.isAlphanum
  rw [h, Bool.or_true]

/-- What stands in joined lists stands in the separator or in one of them. -/
theorem mem_intercalate {α : Type} {separator : List α} {lists : List (List α)} {a : α}
    (h : a ∈ separator.intercalate lists) : a ∈ separator ∨ ∃ l ∈ lists, a ∈ l := by
  induction lists with
  | nil => simp at h
  | cons l lists ih =>
    cases lists with
    | nil => exact .inr ⟨l, by simp, by simpa using h⟩
    | cons m lists =>
      rw [List.intercalate_cons_cons, List.mem_append, List.mem_append] at h
      rcases h with (h | h) | h
      · exact .inr ⟨l, by simp, h⟩
      · exact .inl h
      · rcases ih h with h | ⟨n, hn, h⟩
        · exact .inl h
        · exact .inr ⟨n, List.mem_cons_of_mem _ hn, h⟩

theorem mem_toList_intercalate {separator : String} {tokens : List String} {c : Char}
    (h : c ∈ (String.intercalate separator tokens).toList) :
    c ∈ separator.toList ∨ ∃ t ∈ tokens, c ∈ t.toList := by
  rw [String.toList_intercalate] at h
  rcases mem_intercalate h with h | ⟨s, hs, h⟩
  · exact .inl h
  · obtain ⟨t, ht, rfl⟩ := List.mem_map.1 hs
    exact .inr ⟨t, ht, h⟩

/-! ### Tokens -/

namespace IsToken

variable {s t : String}

theorem append (hs : IsToken s) (ht : t.toList.all isGraphic) : IsToken (s ++ t) := by
  obtain ⟨hne, hchars⟩ := hs
  refine ⟨by simp [hne], ?_⟩
  intro c hc
  rw [String.toList_append, List.mem_append] at hc
  exact hc.elim (hchars c) (List.all_eq_true.1 ht c)

/-- Tokens with a graphic separator between them are one token. -/
theorem intercalate {separator : String} (hseparator : separator.toList.all isGraphic)
    {tokens : List String} (hne : tokens ≠ []) (htokens : ∀ t ∈ tokens, IsToken t) :
    IsToken (String.intercalate separator tokens) := by
  obtain ⟨t, tokens, rfl⟩ := List.exists_cons_of_ne_nil hne
  constructor
  · obtain ⟨hfirst, -⟩ := htokens t List.mem_cons_self
    cases tokens with
    | nil => simpa using hfirst
    | cons u tokens => simp [String.intercalate_cons_cons, hfirst]
  · intro c hc
    rcases mem_toList_intercalate hc with hc | ⟨u, hu, hc⟩
    · exact List.all_eq_true.1 hseparator c hc
    · exact (htokens u hu).2 c hc

/-- A token holds no blank. -/
theorem blank_not_mem (hs : IsToken s) : ' ' ∉ s.toList :=
  fun h => absurd (hs.2 _ h) (by decide)

end IsToken

/-! ### Lines -/

variable {tokens : List String}

theorem tokenLine_pair (s t : String) : tokenLine [s, t] = s ++ " " ++ t ++ "\n" := by
  rw [tokenLine, String.intercalate_cons_cons, String.intercalate_singleton]

theorem tokenLine_triple (s t u : String) :
    tokenLine [s, t, u] = s ++ " " ++ t ++ " " ++ u ++ "\n" := by
  rw [tokenLine, String.intercalate_cons_cons, String.intercalate_cons_cons,
    String.intercalate_singleton]
  simp only [String.append_assoc]

/-- A line of tokens is printable ASCII up to its line feed, which is its last byte. -/
theorem tokenLine_bytes (h : ∀ t ∈ tokens, IsToken t) :
    ∃ body, (tokenLine tokens).toUTF8.data.toList = body ++ [10] ∧
      ∀ b ∈ body, 0x20 ≤ b ∧ b ≤ 0x7E := by
  let body := (String.intercalate " " tokens).toList
  -- a character is the blank between two tokens, or one of a token
  have hcode : ∀ c ∈ body, 0x20 ≤ c.toNat ∧ c.toNat ≤ 0x7E := by
    intro c hc
    rcases mem_toList_intercalate hc with hblank | ⟨t, ht, hc⟩
    · obtain rfl : c = ' ' := by simpa using hblank
      decide
    · have hgraphic := isGraphic_iff.1 ((h t ht).2 c hc)
      omega
  have hline : tokenLine tokens = String.ofList (body ++ ['\n']) := by
    rw [← String.toList_inj, tokenLine, String.toList_append]
    exact String.toList_ofList.symm
  have hascii : ∀ c ∈ body, c.toNat < 128 := by
    intro c hc
    have := hcode c hc
    omega
  refine ⟨body.map fun c => UInt8.ofNat c.toNat, ?_, fun b hb => ?_⟩
  · rw [hline, toUTF8_toList, utf8_append, utf8_ascii hascii, utf8_lf]
  · obtain ⟨c, hc, rfl⟩ := List.mem_map.1 hb
    have := hcode c hc
    rw [UInt8.le_iff_toNat_le, UInt8.le_iff_toNat_le, UInt8.toNat_ofNat',
      Nat.mod_eq_of_lt (by omega)]
    exact this

/-- A line of tokens falls apart into its tokens at its blanks. -/
theorem tokenLine_split (hne : tokens ≠ []) (h : ∀ t ∈ tokens, IsToken t) :
    ∃ body, (tokenLine tokens).toList = body ++ ['\n'] ∧
      body.splitOn ' ' = tokens.map String.toList := by
  refine ⟨(String.intercalate " " tokens).toList, by simp [tokenLine], ?_⟩
  rw [String.toList_intercalate]
  refine List.splitOn_intercalate ' ' ?_ (by simpa using hne)
  intro s hs
  obtain ⟨t, ht, rfl⟩ := List.mem_map.1 hs
  exact (h t ht).blank_not_mem

end RrdCache
