/-
RrdCache/Proofs/Reply/Grammar.lean

The grammar of reply lines, said without the readers.  A status line is a number, a gap and a
message, and a header is a key, a colon, a gap and a value.  A message and a value begin
without a blank, so that the gap in front of them is as long as it gets and a line has one
reading only.

Main results: the readers accept exactly the lines of the grammar, with the parts that the
grammar gives (`StatusLine.ofLine_chars`, `Status.ofLine_of_no_statusLine`,
`Header.known?_eq_some_iff`).
-/
import RrdCache.Proofs.Reply.Readable
import RrdCache.Reply.Table

namespace RrdCache

namespace Shape

/-- One digit of ASCII or more, and nothing else. -/
def IsDigits (s : List Char) : Prop :=
  s ≠ [] ∧ ∀ c ∈ s, c.isDigit

/-- One blank or more, each a space or a tab, and nothing else. -/
def IsGap (s : List Char) : Prop :=
  s ≠ [] ∧ ∀ c ∈ s, isGap c

variable {s rest : List Char}

/-- A line feed is no blank, so that a value ends a gap wherever its line does. -/
theorem ends_append_lf {value : List Char} :
    Scan.Ends isGap (value ++ ['\n']) ↔ Scan.Ends isGap value := by
  cases value with
  | nil => exact ⟨fun _ => Scan.ends_nil, fun _ => Scan.ends_cons.2 (by decide)⟩
  | cons c value => exact Scan.ends_cons.trans Scan.ends_cons.symm

theorem gap?_eq_some_iff :
    gap? s = some rest ↔ ∃ gap, s = gap ++ rest ∧ IsGap gap ∧ Scan.Ends isGap rest := by
  constructor
  · intro h
    obtain ⟨gap, hs, hne, hgap, hends⟩ := gap?_eq_some h
    exact ⟨gap, hs, ⟨hne, hgap⟩, hends⟩
  · rintro ⟨gap, rfl, ⟨hne, hgap⟩, hends⟩
    rw [gap?, Scan.run?_eq_some_iff.2 ⟨rfl, hne, hgap, hends⟩, Option.map_some]

theorem forall_ne_colon_iff {key : List Char} :
    (∀ c ∈ key, (c != ':') = true) ↔ ':' ∉ key := by
  simp only [bne_iff_ne]
  exact ⟨fun h hc => h _ hc rfl, fun h c hc hcolon => h (hcolon ▸ hc)⟩

/-- A text is cut at its first colon in one way only. -/
theorem run?_colon {key : List Char} (hne : key ≠ []) (hcolon : ':' ∉ key) :
    Scan.run? (· != ':') (key ++ ':' :: rest) = some (key, ':' :: rest) :=
  Scan.run?_eq_some_iff.2 ⟨rfl, hne, forall_ne_colon_iff.2 hcolon, by simp⟩

/-- A key is what stands before the first colon, and a gap follows the colon. -/
theorem key?_eq_some_iff {key : List Char} :
    key? s = some (key, rest) ↔
      ∃ gap, s = key ++ ':' :: (gap ++ rest) ∧ key ≠ [] ∧ ':' ∉ key ∧ IsGap gap ∧
        Scan.Ends isGap rest := by
  simp only [key?, Option.bind_eq_bind, Option.bind_eq_some_iff]
  constructor
  · rintro ⟨⟨key', afterKey⟩, hkey, afterColon, hcolon, rest', hgap, hpair⟩
    obtain ⟨rfl, rfl⟩ := Prod.mk.inj (Option.some.inj hpair)
    obtain ⟨rfl, hne, hchars, -⟩ := Scan.run?_eq_some_iff.1 hkey
    obtain rfl := Scan.after?_eq_some hcolon
    obtain ⟨gap, rfl, hisGap, hends⟩ := gap?_eq_some_iff.1 hgap
    exact ⟨gap, rfl, hne, forall_ne_colon_iff.1 hchars, hisGap, hends⟩
  · rintro ⟨gap, rfl, hne, hcolon, hisGap, hends⟩
    exact ⟨_, run?_colon hne hcolon, _, Scan.after?_append [':'] _, _,
      gap?_eq_some_iff.2 ⟨gap, rfl, hisGap, hends⟩, rfl⟩

end Shape

/-! ### Status lines -/

/-- What a status line is made of. -/
structure StatusLine where
  sign : List Char
  digits : List Char
  gap : List Char
  message : List Char
  sign_cases : sign = [] ∨ sign = ['+'] ∨ sign = ['-']
  digits_isDigits : Shape.IsDigits digits
  gap_isGap : Shape.IsGap gap
  message_isText : Shape.IsText message
  /-- The message begins without a blank. -/
  message_ends : Scan.Ends isGap message

namespace StatusLine

/-- The characters of a status line before its line feed. -/
def chars (s : StatusLine) : List Char := s.sign ++ s.digits ++ s.gap ++ s.message

/-- The number in front of a status line. -/
def code (s : StatusLine) : Int := statusCode s.sign s.digits

/-- The message of a status line. -/
def text (s : StatusLine) : String := String.ofList s.message

theorem split?_chars (s : StatusLine) :
    Status.split? (s.chars ++ ['\n']) = some (s.sign ++ s.digits, s.message) := by
  have hfront : s.message.dropWhile isGap = s.message :=
    Scan.dropWhile_append_of_ends (List.forall_mem_nil _) s.message_ends
  have hsplit := Status.split?_append s.sign_cases s.digits_isDigits s.gap_isGap s.message_isText
  rwa [hfront] at hsplit

/-- A status line states its number and its message, unless the number has too many digits to
be converted. -/
theorem ofLine_chars (s : StatusLine) :
    Status.ofLine (String.ofList (s.chars ++ ['\n']))
      = if Numeral.digitLimit < s.digits.length then
          .error (.numeral (.tooManyDigits s.digits.length))
        else .ok (Status.ofCode s.code s.text) := by
  rw [Status.ofLine, String.toList_ofList, split?_chars]
  dsimp only
  rw [Numeral.signedValue,
    Numeral.sign_append_digits s.sign_cases s.digits_isDigits.1 s.digits_isDigits.2]
  dsimp only
  rw [Numeral.value]
  split <;> rfl

end StatusLine

/-- A line that is no status line is refused as it is. -/
theorem Status.ofLine_of_no_statusLine {line : List Char} (h : ∀ s : StatusLine, s.chars ≠ line) :
    ofLine (String.ofList (line ++ ['\n']))
      = .error (.status (.shape (String.ofList (line ++ ['\n'])))) := by
  rw [ofLine, String.toList_ofList]
  rcases hsplit : split? (line ++ ['\n']) with - | ⟨number, message⟩
  · rfl
  -- what is taken apart is a status line, for the parts are those of one
  obtain ⟨sign, digits, gap, -, hline, hsign, hdigits, hgap, htext, hfront⟩ :=
    split?_eq_some hsplit
  have hends : Scan.Ends isGap message := hfront ▸ Scan.ends_dropWhile
  exact absurd (List.append_cancel_right hline).symm
    (h ⟨sign, digits, gap, message, hsign, hdigits, hgap, htext, hends⟩)

/-! ### Headers -/

/-- A known key is found by its spelling. -/
theorem HeaderKey.ofWord?_eq_some_iff {word : String} {key : HeaderKey} :
    ofWord? word = some key ↔ word = key.word := by
  constructor
  · intro h
    have hword := List.find?_some h
    exact (of_decide_eq_true hword).symm
  · rintro rfl
    cases key <;> decide

namespace Header

/-- The line is a header with this key, known or not, and this value. -/
def Spells (key value line : List Char) : Prop :=
  ∃ gap, line = key ++ ':' :: (gap ++ (value ++ ['\n'])) ∧ key ≠ [] ∧ ':' ∉ key ∧
    Shape.IsGap gap ∧ Shape.IsText value ∧ Scan.Ends isGap value

theorem split?_eq_some_iff {key value line : List Char} :
    split? line = some (key, value) ↔ Spells key value line := by
  simp only [split?, Option.bind_eq_bind, Option.bind_eq_some_iff]
  constructor
  · rintro ⟨⟨key', rest⟩, hkey, value', htext, hpair⟩
    obtain ⟨rfl, rfl⟩ := Prod.mk.inj (Option.some.inj hpair)
    obtain ⟨rfl, hvalue⟩ := Shape.text?_eq_some_iff.1 htext
    obtain ⟨gap, rfl, hne, hcolon, hgap, hends⟩ := Shape.key?_eq_some_iff.1 hkey
    exact ⟨gap, rfl, hne, hcolon, hgap, hvalue, Shape.ends_append_lf.1 hends⟩
  · rintro ⟨gap, rfl, hne, hcolon, hgap, hvalue, hends⟩
    have hkey := Shape.key?_eq_some_iff.2
      ⟨gap, rfl, hne, hcolon, hgap, Shape.ends_append_lf.2 hends⟩
    exact ⟨_, hkey, value, Shape.text?_eq_some_iff.2 ⟨rfl, hvalue⟩, rfl⟩

/-- A line has a known key if it is a header with that key. -/
theorem known?_eq_some_iff {line value : String} {key : HeaderKey} :
    known? line = some (key, value) ↔ Spells key.word.toList value.toList line.toList := by
  simp only [known?, Option.bind_eq_bind, Option.bind_eq_some_iff]
  constructor
  · rintro ⟨⟨word, text⟩, hsplit, key', hkey, hpair⟩
    obtain ⟨rfl, rfl⟩ := Prod.mk.inj (Option.some.inj hpair)
    have hword := HeaderKey.ofWord?_eq_some_iff.1 hkey
    rw [← hword, String.toList_ofList, String.toList_ofList]
    exact split?_eq_some_iff.1 hsplit
  · intro h
    refine ⟨_, split?_eq_some_iff.2 h, key, ?_, ?_⟩
    · exact HeaderKey.ofWord?_eq_some_iff.2 String.ofList_toList
    · rw [String.ofList_toList]

end Header

end RrdCache
