/-
RrdCache/Proofs/Reply/Lines.lean

The readings of lines.  A line of the queue is a count, a gap and a path, and a line of
statistics is a name, a colon, a gap and a number.  Documented lines are looser than that: the
text at their end may begin with blanks, which the gap in front of it could hold as well.  Of
the ways to split such a line, one leaves the text without blanks in front, and that is the one
that is read.

Main result (`reply_lines_read_once`): status lines, lines of the queue, statistics and headers
are each read exactly if they have the documented shape, in that one way, and a line that was
printed gives back what was printed.
-/
import RrdCache.Proofs.Number.RoundTrip
import RrdCache.Proofs.Reply.Grammar
import RrdCache.Reply.Entry

namespace RrdCache

open Shape

/-! ### One reading -/

/-- Lines of a documented shape are read, and each has one reading: it has one decomposition
into parts, and the value of these parts is what is read. -/
structure ReadsOnce {Parts α : Type} (Documented : List Char → Prop) (Prints : String → α → Prop)
    (line : Parts → List Char) (value : Parts → α) (read : String → Except Error α) : Prop where
  returns : ∀ s, (∃ a, read s = .ok a) ↔ Documented s.toList
  parts : ∀ s a, read s = .ok a → ∃ p, line p = s.toList ∧ value p = a
  unique : ∀ p q, line p = line q → p = q
  /-- What was printed is read back. -/
  printed : ∀ s a, Prints s a → read s = .ok a

section ReadsOnce

variable {Parts α : Type} {Documented : List Char → Prop} {Prints : String → α → Prop}
  {line : Parts → List Char} {value : Parts → α} {read : String → Except Error α}
  {short : Parts → Prop}

/-- It is enough to know which parts are read. -/
theorem ReadsOnce.of_parts
    (hread : ∀ s a, read s = .ok a ↔ ∃ p, line p = s.toList ∧ short p ∧ value p = a)
    (hdocumented : ∀ s, Documented s ↔ ∃ p, line p = s ∧ short p)
    (hunique : ∀ p q, line p = line q → p = q)
    (hprints : ∀ s a, Prints s a → ∃ p, line p = s.toList ∧ short p ∧ value p = a) :
    ReadsOnce Documented Prints line value read where
  returns s := by
    rw [hdocumented]
    constructor
    · rintro ⟨a, h⟩
      obtain ⟨p, hline, hshort, -⟩ := (hread s a).1 h
      exact ⟨p, hline, hshort⟩
    · rintro ⟨p, hline, hshort⟩
      exact ⟨value p, (hread s _).2 ⟨p, hline, hshort, rfl⟩⟩
  parts s a h := by
    obtain ⟨p, hline, -, hvalue⟩ := (hread s a).1 h
    exact ⟨p, hline, hvalue⟩
  unique := hunique
  printed s a h := (hread s a).2 (hprints s a h)

end ReadsOnce

/-! ### Parts of lines -/

/-- A text gives the blanks at its front to the gap before it. -/
theorem Shape.exists_tail {gap text : List Char} (hgap : IsGap gap) (htext : IsText text) :
    ∃ gap' text', gap ++ text = gap' ++ text' ∧ IsGap gap' ∧ IsText text' ∧
      Scan.Ends isGap text' := by
  refine ⟨gap ++ text.takeWhile isGap, text.dropWhile isGap, ?_, ⟨?_, ?_⟩, ?_, Scan.ends_dropWhile⟩
  · rw [List.append_assoc, List.takeWhile_append_dropWhile]
  · exact List.append_ne_nil_of_left_ne_nil hgap.1 _
  · exact List.forall_mem_append.2 ⟨hgap.2, fun c hc => List.mem_takeWhile_imp hc⟩
  · exact fun c hc => htext c ((List.dropWhile_sublist _).subset hc)

/-- No blank stands in front of a number. -/
theorem Shape.ends_number {sign digits rest : List Char}
    (hsign : sign = [] ∨ sign = ['+'] ∨ sign = ['-']) (hdigits : IsDigits digits) :
    Scan.Ends isGap (sign ++ digits ++ rest) := by
  rcases hsign with rfl | rfl | rfl
  · refine (Scan.ends_append hdigits.1).2 fun c hc => ?_
    have hdigit := hdigits.2 c (List.mem_of_head? hc)
    rw [Bool.eq_false_iff]
    intro hgap
    rcases isGap_iff.1 hgap with rfl | rfl <;> exact absurd hdigit (by decide)
  · exact Scan.ends_cons.2 (by decide)
  · exact Scan.ends_cons.2 (by decide)

/-- A sign and digits are split in one way only. -/
theorem Shape.number_unique {sign digits sign' digits' : List Char}
    (hsign : sign = [] ∨ sign = ['+'] ∨ sign = ['-'])
    (hsign' : sign' = [] ∨ sign' = ['+'] ∨ sign' = ['-']) (hdigits : IsDigits digits)
    (hdigits' : IsDigits digits') (h : sign ++ digits = sign' ++ digits') :
    sign = sign' ∧ digits = digits' := by
  have hsplit := Numeral.sign_append_digits hsign hdigits.1 hdigits.2
  rw [h, Numeral.sign_append_digits hsign' hdigits'.1 hdigits'.2] at hsplit
  obtain rfl := (Prod.mk.inj hsplit).2
  exact ⟨List.append_cancel_right h, rfl⟩

theorem Shape.isDigits_toDigits (n : Nat) : IsDigits (Nat.toDigits 10 n) :=
  ⟨Nat.toDigits_ne_nil, fun _ => isDigit_of_mem_toDigits⟩

theorem Numeral.digits_natCast (n : Nat) : digits n = Nat.toDigits 10 n := by
  rw [digits, if_neg (by omega), Int.natAbs_natCast]

/-- A number that is not too long is printed as a sign and digits that stand for it. -/
theorem Numeral.exists_digits {i : Int} (h : ¬ Overlong i) :
    ∃ sign digits, Numeral.digits i = sign ++ digits ∧
      (sign = [] ∨ sign = ['+'] ∨ sign = ['-']) ∧ IsDigits digits ∧
      digits.length ≤ digitLimit ∧ statusCode sign digits = i := by
  have hdigits := isDigits_toDigits i.natAbs
  have hlength : (Nat.toDigits 10 i.natAbs).length ≤ digitLimit := length_toDigits h
  have hvalue : natOfDigits (Nat.toDigits 10 i.natAbs) = i.natAbs := Nat.ofDigitChars_ten_toDigits
  rw [Numeral.digits]
  split
  · rename_i hi
    refine ⟨['-'], Nat.toDigits 10 i.natAbs, rfl, .inr (.inr rfl), hdigits, hlength, ?_⟩
    rw [statusCode, hvalue, signed, if_pos (by simp)]
    omega
  · rename_i hi
    refine ⟨[], Nat.toDigits 10 i.natAbs, rfl, .inl rfl, hdigits, hlength, ?_⟩
    rw [statusCode, hvalue, signed, if_neg (by simp)]
    omega

/-! ### Status lines -/

namespace Status

/-- The documented shape of a status line. -/
def Documented (s : List Char) : Prop :=
  ∃ sign digits gap message, s = sign ++ digits ++ gap ++ message ++ ['\n'] ∧
    (sign = [] ∨ sign = ['+'] ∨ sign = ['-']) ∧ IsDigits digits ∧
    digits.length ≤ Numeral.digitLimit ∧ IsGap gap ∧ IsText message

/-- A status line that was printed. -/
inductive Prints : String → Status → Prop
  | line {code : Int} {gap message : List Char} (short : ¬ Numeral.Overlong code)
    (gap_isGap : IsGap gap) (message_isText : IsText message)
    (message_ends : Scan.Ends isGap message) :
    Prints (Numeral.spelling code ++ String.ofList (gap ++ message ++ ['\n']))
      (ofCode code (String.ofList message))

end Status

namespace StatusLine

attribute [ext] StatusLine

/-- The characters of a status line. -/
def line (s : StatusLine) : List Char := s.chars ++ ['\n']

/-- What a status line states. -/
def status (s : StatusLine) : Status := Status.ofCode s.code s.text

theorem line_injective {p q : StatusLine} (h : p.line = q.line) : p = q := by
  have hsplit := p.split?_chars
  have hchars : p.chars = q.chars := List.append_cancel_right h
  rw [hchars, q.split?_chars, Option.some.injEq, Prod.mk.injEq] at hsplit
  obtain ⟨hnumber, hmessage⟩ := hsplit
  obtain ⟨hsign, hdigits⟩ :=
    number_unique p.sign_cases q.sign_cases p.digits_isDigits q.digits_isDigits hnumber.symm
  rw [chars, chars, ← hnumber, hmessage] at hchars
  have hgap := List.append_cancel_left (List.append_cancel_right hchars)
  exact StatusLine.ext hsign hdigits hgap hmessage.symm

end StatusLine

theorem Status.exists_of_split? {s number message : List Char}
    (h : split? s = some (number, message)) :
    ∃ p : StatusLine, p.line = s ∧ p.sign ++ p.digits = number ∧ p.message = message := by
  obtain ⟨sign, digits, gap, rfl, rfl, hsign, hdigits, hgap, htext, hfront⟩ := split?_eq_some h
  have hends : Scan.Ends isGap message := hfront ▸ Scan.ends_dropWhile
  exact ⟨⟨sign, digits, gap, message, hsign, hdigits, hgap, htext, hends⟩, rfl, rfl, rfl⟩

theorem Status.ofLine_eq_ok_iff {s : String} {a : Status} : ofLine s = .ok a ↔
    ∃ p : StatusLine, p.line = s.toList ∧ p.digits.length ≤ Numeral.digitLimit ∧ p.status = a := by
  constructor
  · intro h
    rw [ofLine] at h
    split at h
    · cases h
    · rename_i number message hsplit
      obtain ⟨code, hcode, hstatus⟩ := Result.bind_eq_ok.1 h
      obtain ⟨p, hline, rfl, rfl⟩ := exists_of_split? hsplit
      obtain ⟨hlength, rfl⟩ := (Numeral.signedValue_eq_ok_iff p.sign_cases p.digits_isDigits).1
        (Result.liftNumeral_eq_ok.1 hcode)
      exact ⟨p, hline, hlength, Except.ok.inj hstatus⟩
  · rintro ⟨p, hline, hlength, rfl⟩
    rw [← String.ofList_toList (s := s), ← hline, StatusLine.line, p.ofLine_chars,
      if_neg (Nat.not_lt.2 hlength)]
    rfl

theorem Status.documented_iff {s : List Char} : Documented s ↔
    ∃ p : StatusLine, p.line = s ∧ p.digits.length ≤ Numeral.digitLimit := by
  constructor
  · rintro ⟨sign, digits, gap, message, rfl, hsign, hdigits, hlength, hgap, hmessage⟩
    obtain ⟨gap', message', heq, hgap', hmessage', hends⟩ := exists_tail hgap hmessage
    refine ⟨⟨sign, digits, gap', message', hsign, hdigits, hgap', hmessage', hends⟩, ?_, hlength⟩
    simp [StatusLine.line, StatusLine.chars, ← heq]
  · rintro ⟨p, rfl, hlength⟩
    exact ⟨_, _, _, _, rfl, p.sign_cases, p.digits_isDigits, hlength, p.gap_isGap,
      p.message_isText⟩

theorem Status.reads_once :
    ReadsOnce Documented Prints StatusLine.line StatusLine.status ofLine := by
  refine .of_parts (fun _ _ => ofLine_eq_ok_iff) (fun _ => documented_iff)
    (fun _ _ => StatusLine.line_injective) ?_
  rintro _ _ ⟨hshort, hgap, hmessage, hends⟩
  obtain ⟨sign, digits, hspelling, hsign, hdigits, hlength, rfl⟩ := Numeral.exists_digits hshort
  refine ⟨⟨sign, digits, _, _, hsign, hdigits, hgap, hmessage, hends⟩, ?_, hlength, rfl⟩
  simp [StatusLine.line, StatusLine.chars, Numeral.spelling, hspelling]

/-! ### Lines of the queue -/

/-- What a line of the queue is made of. -/
@[ext] structure QueueLine where
  digits : List Char
  gap : List Char
  path : List Char
  digits_isDigits : IsDigits digits
  gap_isGap : IsGap gap
  path_isText : IsText path
  /-- The path begins without a blank. -/
  path_ends : Scan.Ends isGap path

namespace QueueEntry

/-- The documented shape of a line of the queue. -/
def Documented (s : List Char) : Prop :=
  ∃ digits gap path, s = digits ++ gap ++ path ++ ['\n'] ∧ IsDigits digits ∧
    digits.length ≤ Numeral.digitLimit ∧ IsGap gap ∧ IsText path

/-- A line of the queue that was printed. -/
inductive Prints : String → QueueEntry → Prop
  | line {count : Nat} {gap path : List Char} (short : ¬ Numeral.Overlong count)
    (gap_isGap : IsGap gap) (path_isText : IsText path) (path_ends : Scan.Ends isGap path) :
    Prints (Numeral.spelling count ++ String.ofList (gap ++ path ++ ['\n']))
      ⟨String.ofList path, count⟩

end QueueEntry

namespace QueueLine

/-- The characters of a line of the queue. -/
def line (q : QueueLine) : List Char := q.digits ++ q.gap ++ q.path ++ ['\n']

/-- What a line of the queue states. -/
def entry (q : QueueLine) : QueueEntry :=
  ⟨String.ofList q.path, Numeral.natOfDigits q.digits⟩

theorem split?_line (q : QueueLine) : QueueEntry.split? q.line = some (q.digits, q.path) := by
  have hdigits : digits? q.line = some (q.digits, q.gap ++ (q.path ++ ['\n'])) :=
    Scan.run?_eq_some_iff.2 ⟨by simp [line], q.digits_isDigits.1, q.digits_isDigits.2,
      ends_isDigit_append q.gap_isGap.1 q.gap_isGap.2⟩
  have hgap := gap?_eq_some_iff.2 ⟨q.gap, rfl, q.gap_isGap, ends_append_lf.2 q.path_ends⟩
  simp only [QueueEntry.split?, Option.bind_eq_bind, hdigits, Option.bind_some, hgap,
    text?_eq_some_iff.2 ⟨rfl, q.path_isText⟩]

theorem line_injective {p q : QueueLine} (h : p.line = q.line) : p = q := by
  have hsplit := p.split?_line
  rw [h, q.split?_line, Option.some.injEq, Prod.mk.injEq] at hsplit
  obtain ⟨hdigits, hpath⟩ := hsplit
  rw [line, line, hdigits, hpath] at h
  have hgap := List.append_cancel_left (List.append_cancel_right (List.append_cancel_right h))
  exact QueueLine.ext hdigits.symm hgap hpath.symm

end QueueLine

namespace QueueEntry

theorem exists_of_split? {s count path : List Char} (h : split? s = some (count, path)) :
    ∃ q : QueueLine, q.line = s ∧ q.digits = count ∧ q.path = path := by
  simp only [split?, Option.bind_eq_bind, Option.bind_eq_some_iff] at h
  obtain ⟨⟨digits, afterDigits⟩, hdigits, afterGap, hgap, path', hpath, hpair⟩ := h
  obtain ⟨rfl, rfl⟩ := Prod.mk.inj (Option.some.inj hpair)
  obtain ⟨rfl, hne, hisDigit, -⟩ := Scan.run?_eq_some_iff.1 hdigits
  obtain ⟨gap, rfl, hisGap, hends⟩ := gap?_eq_some_iff.1 hgap
  obtain ⟨rfl, hisText⟩ := text?_eq_some_iff.1 hpath
  exact ⟨⟨digits, gap, path', ⟨hne, hisDigit⟩, hisGap, hisText, ends_append_lf.1 hends⟩,
    by simp [QueueLine.line], rfl, rfl⟩

theorem ofLine_eq_ok_iff {s : String} {a : QueueEntry} : ofLine s = .ok a ↔
    ∃ q : QueueLine, q.line = s.toList ∧ q.digits.length ≤ Numeral.digitLimit ∧ q.entry = a := by
  constructor
  · intro h
    rw [ofLine] at h
    split at h
    · cases h
    · rename_i count path hsplit
      obtain ⟨n, hn, hentry⟩ := Result.bind_eq_ok.1 h
      obtain ⟨q, hline, rfl, rfl⟩ := exists_of_split? hsplit
      obtain ⟨hlength, rfl⟩ := Numeral.value_eq_ok_iff.1 (Result.liftNumeral_eq_ok.1 hn)
      exact ⟨q, hline, hlength, Except.ok.inj hentry⟩
  · rintro ⟨q, hline, hlength, rfl⟩
    have hvalue := Numeral.value_eq_ok_iff.2 ⟨hlength, rfl⟩
    rw [ofLine, ← hline, q.split?_line]
    exact Result.bind_eq_ok.2 ⟨_, Result.liftNumeral_eq_ok.2 hvalue, rfl⟩

theorem documented_iff {s : List Char} : Documented s ↔
    ∃ q : QueueLine, q.line = s ∧ q.digits.length ≤ Numeral.digitLimit := by
  constructor
  · rintro ⟨digits, gap, path, rfl, hdigits, hlength, hgap, hpath⟩
    obtain ⟨gap', path', heq, hgap', hpath', hends⟩ := exists_tail hgap hpath
    refine ⟨⟨digits, gap', path', hdigits, hgap', hpath', hends⟩, ?_, hlength⟩
    simp [QueueLine.line, ← heq]
  · rintro ⟨q, rfl, hlength⟩
    exact ⟨_, _, _, rfl, q.digits_isDigits, hlength, q.gap_isGap, q.path_isText⟩

theorem reads_once : ReadsOnce Documented Prints QueueLine.line QueueLine.entry ofLine := by
  refine .of_parts (fun _ _ => ofLine_eq_ok_iff) (fun _ => documented_iff)
    (fun _ _ => QueueLine.line_injective) ?_
  rintro _ _ ⟨hshort, hgap, hpath, hends⟩
  refine ⟨⟨_, _, _, isDigits_toDigits _, hgap, hpath, hends⟩, ?_, Numeral.length_toDigits hshort, ?_⟩
  · simp [QueueLine.line, Numeral.spelling, Numeral.digits_natCast]
  · rw [QueueLine.entry, Numeral.natOfDigits, Nat.ofDigitChars_ten_toDigits]

end QueueEntry

/-! ### Statistics -/

/-- What a line of statistics is made of. -/
@[ext] structure StatisticLine where
  name : List Char
  gap : List Char
  sign : List Char
  digits : List Char
  name_ne_nil : name ≠ []
  name_colon : ':' ∉ name
  gap_isGap : IsGap gap
  sign_cases : sign = [] ∨ sign = ['+'] ∨ sign = ['-']
  digits_isDigits : IsDigits digits

namespace Statistic

/-- The documented shape of a line of statistics. -/
def Documented (s : List Char) : Prop :=
  ∃ name gap sign digits, s = name ++ ':' :: (gap ++ (sign ++ digits ++ ['\n'])) ∧ name ≠ [] ∧
    ':' ∉ name ∧ IsGap gap ∧ (sign = [] ∨ sign = ['+'] ∨ sign = ['-']) ∧ IsDigits digits ∧
    digits.length ≤ Numeral.digitLimit

/-- A line of statistics that was printed. -/
inductive Prints : String → Statistic → Prop
  | line {name gap : List Char} {value : Int} (name_ne_nil : name ≠ []) (name_colon : ':' ∉ name)
    (gap_isGap : IsGap gap) (short : ¬ Numeral.Overlong value) :
    Prints (String.ofList (name ++ ':' :: gap) ++ Numeral.spelling value ++ "\n")
      ⟨String.ofList name, value⟩

end Statistic

namespace StatisticLine

/-- The characters of a line of statistics. -/
def line (l : StatisticLine) : List Char :=
  l.name ++ ':' :: (l.gap ++ (l.sign ++ l.digits ++ ['\n']))

/-- What a line of statistics states. -/
def statistic (l : StatisticLine) : Statistic :=
  ⟨String.ofList l.name, statusCode l.sign l.digits⟩

theorem split?_line (l : StatisticLine) :
    Statistic.split? l.line = some (l.name, l.sign ++ l.digits) := by
  have hkey : key? l.line = some (l.name, l.sign ++ l.digits ++ ['\n']) :=
    key?_eq_some_iff.2 ⟨l.gap, rfl, l.name_ne_nil, l.name_colon, l.gap_isGap,
      ends_number l.sign_cases l.digits_isDigits⟩
  have hnumber := signedDigits?_append l.sign_cases l.digits_isDigits.1 l.digits_isDigits.2
    (Scan.ends_cons.2 (by decide) : Scan.Ends Char.isDigit ['\n'])
  simp only [Statistic.split?, Option.bind_eq_bind, hkey, Option.bind_some, hnumber, if_true]

theorem line_injective {l m : StatisticLine} (h : l.line = m.line) : l = m := by
  have hsplit := l.split?_line
  rw [h, m.split?_line, Option.some.injEq, Prod.mk.injEq] at hsplit
  obtain ⟨hname, hnumber⟩ := hsplit
  obtain ⟨hsign, hdigits⟩ :=
    number_unique l.sign_cases m.sign_cases l.digits_isDigits m.digits_isDigits hnumber.symm
  rw [line, line, hname, hnumber] at h
  have hgap := List.append_cancel_right (List.cons.inj (List.append_cancel_left h)).2
  exact StatisticLine.ext hname.symm hgap hsign hdigits

end StatisticLine

namespace Statistic

theorem exists_of_split? {s name number : List Char} (h : split? s = some (name, number)) :
    ∃ l : StatisticLine, l.line = s ∧ l.name = name ∧ l.sign ++ l.digits = number := by
  simp only [split?, Option.bind_eq_bind, Option.bind_eq_some_iff] at h
  obtain ⟨⟨name', afterKey⟩, hkey, ⟨number', rest⟩, hnumber, h⟩ := h
  split at h
  · rename_i hrest
    obtain ⟨rfl, rfl⟩ := Prod.mk.inj (Option.some.inj h)
    obtain ⟨gap, rfl, hne, hcolon, hgap, -⟩ := key?_eq_some_iff.1 hkey
    obtain ⟨sign, digits, rfl, rfl, hsign, hdigits⟩ := signedDigits?_eq_some hnumber
    exact ⟨⟨name', gap, sign, digits, hne, hcolon, hgap, hsign, hdigits⟩,
      by simp [StatisticLine.line, ← hrest], rfl, rfl⟩
  · cases h

theorem ofLine_eq_ok_iff {s : String} {a : Statistic} : ofLine s = .ok a ↔
    ∃ l : StatisticLine, l.line = s.toList ∧ l.digits.length ≤ Numeral.digitLimit ∧
      l.statistic = a := by
  constructor
  · intro h
    rw [ofLine] at h
    split at h
    · cases h
    · rename_i name number hsplit
      obtain ⟨n, hn, hstatistic⟩ := Result.bind_eq_ok.1 h
      obtain ⟨l, hline, rfl, rfl⟩ := exists_of_split? hsplit
      obtain ⟨hlength, rfl⟩ := (Numeral.signedValue_eq_ok_iff l.sign_cases l.digits_isDigits).1
        (Result.liftNumeral_eq_ok.1 hn)
      exact ⟨l, hline, hlength, Except.ok.inj hstatistic⟩
  · rintro ⟨l, hline, hlength, rfl⟩
    have hvalue := (Numeral.signedValue_eq_ok_iff l.sign_cases l.digits_isDigits).2 ⟨hlength, rfl⟩
    rw [ofLine, ← hline, l.split?_line]
    exact Result.bind_eq_ok.2 ⟨_, Result.liftNumeral_eq_ok.2 hvalue, rfl⟩

theorem documented_iff {s : List Char} : Documented s ↔
    ∃ l : StatisticLine, l.line = s ∧ l.digits.length ≤ Numeral.digitLimit := by
  constructor
  · rintro ⟨name, gap, sign, digits, rfl, hne, hcolon, hgap, hsign, hdigits, hlength⟩
    exact ⟨⟨name, gap, sign, digits, hne, hcolon, hgap, hsign, hdigits⟩, rfl, hlength⟩
  · rintro ⟨l, rfl, hlength⟩
    exact ⟨_, _, _, _, rfl, l.name_ne_nil, l.name_colon, l.gap_isGap, l.sign_cases,
      l.digits_isDigits, hlength⟩

theorem reads_once :
    ReadsOnce Documented Prints StatisticLine.line StatisticLine.statistic ofLine := by
  refine .of_parts (fun _ _ => ofLine_eq_ok_iff) (fun _ => documented_iff)
    (fun _ _ => StatisticLine.line_injective) ?_
  rintro _ _ ⟨hne, hcolon, hgap, hshort⟩
  obtain ⟨sign, digits, hspelling, hsign, hdigits, hlength, rfl⟩ := Numeral.exists_digits hshort
  refine ⟨⟨_, _, sign, digits, hne, hcolon, hgap, hsign, hdigits⟩, ?_, hlength, rfl⟩
  simp [StatisticLine.line, Numeral.spelling, hspelling]

end Statistic

/-! ### Headers -/

/-- What a header is made of. -/
@[ext] structure HeaderLine where
  key : List Char
  gap : List Char
  value : List Char
  key_ne_nil : key ≠ []
  key_colon : ':' ∉ key
  gap_isGap : IsGap gap
  value_isText : IsText value
  /-- The value begins without a blank. -/
  value_ends : Scan.Ends isGap value

namespace Header

/-- The documented shape of a header. -/
def Documented (s : List Char) : Prop :=
  ∃ key gap value, s = key ++ ':' :: (gap ++ (value ++ ['\n'])) ∧ key ≠ [] ∧ ':' ∉ key ∧
    IsGap gap ∧ IsText value

/-- A header that was printed. -/
inductive Prints : String → Header → Prop
  | line {key gap value : List Char} (key_ne_nil : key ≠ []) (key_colon : ':' ∉ key)
    (gap_isGap : IsGap gap) (value_isText : IsText value) (value_ends : Scan.Ends isGap value) :
    Prints (String.ofList (key ++ ':' :: (gap ++ (value ++ ['\n']))))
      ⟨String.ofList key, String.ofList value⟩

end Header

namespace HeaderLine

/-- The characters of a header. -/
def line (l : HeaderLine) : List Char := l.key ++ ':' :: (l.gap ++ (l.value ++ ['\n']))

/-- What a header states. -/
def header (l : HeaderLine) : Header := ⟨String.ofList l.key, String.ofList l.value⟩

theorem split?_line (l : HeaderLine) : Header.split? l.line = some (l.key, l.value) :=
  Header.split?_eq_some_iff.2
    ⟨l.gap, rfl, l.key_ne_nil, l.key_colon, l.gap_isGap, l.value_isText, l.value_ends⟩

theorem line_injective {l m : HeaderLine} (h : l.line = m.line) : l = m := by
  have hsplit := l.split?_line
  rw [h, m.split?_line, Option.some.injEq, Prod.mk.injEq] at hsplit
  obtain ⟨hkey, hvalue⟩ := hsplit
  rw [line, line, hkey, hvalue] at h
  have hgap := List.append_cancel_right (List.cons.inj (List.append_cancel_left h)).2
  exact HeaderLine.ext hkey.symm hgap hvalue.symm

end HeaderLine

namespace Header

theorem ofLine_eq_ok_iff {s : String} {a : Header} :
    ofLine s = .ok a ↔ ∃ l : HeaderLine, l.line = s.toList ∧ True ∧ l.header = a := by
  constructor
  · intro h
    rw [ofLine] at h
    split at h
    · cases h
    · rename_i key value hsplit
      obtain ⟨gap, hline, hne, hcolon, hgap, hvalue, hends⟩ := split?_eq_some_iff.1 hsplit
      exact ⟨⟨key, gap, value, hne, hcolon, hgap, hvalue, hends⟩, hline.symm, trivial,
        Except.ok.inj h⟩
  · rintro ⟨l, hline, -, rfl⟩
    rw [ofLine, ← hline, l.split?_line]
    rfl

theorem documented_iff {s : List Char} : Documented s ↔ ∃ l : HeaderLine, l.line = s ∧ True := by
  constructor
  · rintro ⟨key, gap, value, rfl, hne, hcolon, hgap, hvalue⟩
    obtain ⟨gap', value', heq, hgap', hvalue', hends⟩ := exists_tail hgap hvalue
    refine ⟨⟨key, gap', value', hne, hcolon, hgap', hvalue', hends⟩, ?_, trivial⟩
    simp only [HeaderLine.line, ← List.append_assoc, heq]
  · rintro ⟨l, rfl, -⟩
    exact ⟨_, _, _, rfl, l.key_ne_nil, l.key_colon, l.gap_isGap, l.value_isText⟩

theorem reads_once : ReadsOnce Documented Prints HeaderLine.line HeaderLine.header ofLine := by
  refine .of_parts (fun _ _ => ofLine_eq_ok_iff) (fun _ => documented_iff)
    (fun _ _ => HeaderLine.line_injective) ?_
  rintro _ _ ⟨hne, hcolon, hgap, hvalue, hends⟩
  exact ⟨⟨_, _, _, hne, hcolon, hgap, hvalue, hends⟩, String.toList_ofList.symm, trivial, rfl⟩

end Header

/-! ### All four -/

/-- A status line refuses exactly if its number is negative, which a zero with a minus is not. -/
theorem StatusLine.refuses_iff (s : StatusLine) :
    (∃ code message, s.status = .refused code message) ↔ s.code < 0 := by
  rw [status, Status.ofCode]
  split
  · rename_i hnegative
    exact ⟨fun _ => hnegative, fun _ => ⟨_, _, rfl⟩⟩
  · rename_i hnot
    constructor
    · rintro ⟨code, message, h⟩
      cases h
    · exact fun h => absurd h hnot

/-- Status lines, lines of the queue, statistics and headers are each read exactly if they have
the documented shape, and in one way only; of the status lines just those with a negative number
refuse. -/
theorem reply_lines_read_once :
    ReadsOnce Status.Documented Status.Prints StatusLine.line StatusLine.status Status.ofLine ∧
      (∀ s : StatusLine, (∃ code message, s.status = .refused code message) ↔ s.code < 0) ∧
      ReadsOnce QueueEntry.Documented QueueEntry.Prints QueueLine.line QueueLine.entry
        QueueEntry.ofLine ∧
      ReadsOnce Statistic.Documented Statistic.Prints StatisticLine.line StatisticLine.statistic
        Statistic.ofLine ∧
      ReadsOnce Header.Documented Header.Prints HeaderLine.line HeaderLine.header Header.ofLine :=
  ⟨Status.reads_once, StatusLine.refuses_iff, QueueEntry.reads_once, Statistic.reads_once,
    Header.reads_once⟩

example : Status.ofLine "-0 \tok \n" = .ok (.accepted "ok " 0) := by decide

end RrdCache
