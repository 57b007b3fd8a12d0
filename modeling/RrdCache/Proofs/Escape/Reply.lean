/-
RrdCache/Proofs/Escape/Reply.lean

Replies whose reading escapes.  A line of a reply that has its shape holds numbers, and
converting these is refused beyond 4300 digits; on data lines there are also the words with
a foreign letter i.  Nothing else in a reply escapes: every other text is read, or refused
with an error of the client's own.
-/
import RrdCache.Proofs.Escape.Basic
import RrdCache.Proofs.Reply.Words
import RrdCache.Reply.Status
import RrdCache.Reply.Table

namespace RrdCache

/-- More digits than are converted. -/
def TooLong (digits : List Char) : Prop :=
  Numeral.digitLimit < digits.length

/-! ### Single lines -/

namespace Status

/-- A status line whose number is too long. -/
def Overlong (line : String) : Prop :=
  ∃ number message, split? line.toList = some (number, message) ∧
    TooLong (Numeral.sign number).2

theorem escapes_ofLine {line : String} : Escapes (ofLine line) ↔ Overlong line := by
  rw [ofLine, Overlong]
  rcases split? line.toList with - | ⟨number, message⟩
  · simp [Error.isPlain]
  · simp [escapes_bind, escapes_signedValue, TooLong]

end Status

namespace QueueEntry

/-- A line of the queue whose count is too long. -/
def Overlong (line : String) : Prop :=
  ∃ count path, split? line.toList = some (count, path) ∧ TooLong count

theorem escapes_ofLine {line : String} : Escapes (ofLine line) ↔ Overlong line := by
  rw [ofLine, Overlong]
  rcases split? line.toList with - | ⟨count, path⟩
  · simp [Error.isPlain]
  · simp [escapes_bind, escapes_value, TooLong]

end QueueEntry

namespace Statistic

/-- A line of statistics whose number is too long. -/
def Overlong (line : String) : Prop :=
  ∃ name number, split? line.toList = some (name, number) ∧
    TooLong (Numeral.sign number).2

theorem escapes_ofLine {line : String} : Escapes (ofLine line) ↔ Overlong line := by
  rw [ofLine, Overlong]
  rcases split? line.toList with - | ⟨name, number⟩
  · simp [Error.isPlain]
  · simp [escapes_bind, escapes_signedValue, TooLong]

end Statistic

/-- A text of digits alone, and of too many. -/
def IsOverlongCount (value : String) : Prop :=
  (∀ c ∈ value.toList, c.isDigit) ∧ TooLong value.toList

theorem escapes_readUnsigned {e : Error} (he : e.isPlain = false) {value : String} :
    Escapes (readUnsigned e value) ↔ IsOverlongCount value := by
  rw [readUnsigned, IsOverlongCount, TooLong]
  by_cases hdigits : value.toList.all Char.isDigit
  · rw [hdigits, Bool.and_true, and_iff_right (List.all_eq_true.1 hdigits)]
    split
    · exact escapes_value
    · rename_i hempty
      have hnil : value.toList = [] := by simpa using hempty
      simp [he, hnil, Numeral.digitLimit]
  · have hnot : ¬ ∀ c ∈ value.toList, c.isDigit := fun h => hdigits (List.all_eq_true.2 h)
    simp [hdigits, he, hnot]

theorem escapes_readTimestamp {message : String} :
    Escapes (readTimestamp message) ↔ IsOverlongCount message :=
  escapes_readUnsigned rfl

theorem escapes_readCount {what value : String} :
    Escapes (readCount what value) ↔ IsOverlongCount value :=
  escapes_readUnsigned rfl

namespace Row

/-- A data line whose time is too long, or with a word that is spelt with a foreign letter. -/
def Unreadable (line : String) : Prop :=
  ∃ time tokens, split? line.toList = some (time, tokens) ∧
    (TooLong time ∨ ∃ t ∈ tokens, HasForeignI t)

/-- The tokens of a data line have the shape of numbers. -/
theorem isNumber_of_split? {line time : List Char} {tokens : List (List Char)}
    (h : split? line = some (time, tokens)) : ∀ t ∈ tokens, isNumber t := by
  simp only [split?, Option.bind_eq_bind, Option.bind_eq_some_iff, Option.some.injEq,
    Prod.mk.injEq] at h
  obtain ⟨_, -, _, -, _, -, text, -, tokens', htokens, -, rfl⟩ := h
  rw [tokens?] at htokens
  split at htokens
  · cases htokens
  · rename_i hrules
    obtain rfl := Option.some.inj htokens
    simp only [Bool.or_eq_true, not_or, Bool.not_eq_true, Bool.not_eq_false'] at hrules
    exact List.all_eq_true.1 hrules.2

theorem escapes_token {token : List Char} (h : isNumber token) :
    Escapes (liftNumeral (Binary64.ofText token)) ↔ HasForeignI token := by
  rw [escapes_liftNumeral, ← ofText?_eq_none_iff h, Binary64.ofText]
  cases Binary64.ofText? token <;> simp

/-- The tokens are converted one after the other, and no conversion fails in another way. -/
theorem escapes_tokens {tokens : List (List Char)} (h : ∀ t ∈ tokens, isNumber t) :
    Escapes (tokens.mapM fun t => liftNumeral (Binary64.ofText t)) ↔
      ∃ t ∈ tokens, HasForeignI t := by
  induction tokens with
  | nil =>
    rw [escapes_mapM]
    simp [firstIs_nil]
  | cons t tokens ih =>
    -- a token of the right shape is converted, or it is foreign: there is no third way
    obtain ⟨ht, htokens⟩ := List.forall_mem_cons.1 h
    rw [escapes_mapM, firstIs_cons, ← escapes_mapM, ih htokens, escapes_token ht]
    constructor
    · rintro (hfirst | ⟨-, u, hu, hlater⟩)
      · exact ⟨t, List.mem_cons_self, hfirst⟩
      · exact ⟨u, List.mem_cons_of_mem _ hu, hlater⟩
    · rintro ⟨u, hu, hforeign⟩
      by_cases hfirst : HasForeignI t
      · exact .inl hfirst
      · refine .inr ⟨ok_of_not_escapes (mt (escapes_token ht).1 hfirst), ?_⟩
        rcases List.mem_cons.1 hu with rfl | hu
        · exact absurd hforeign hfirst
        · exact ⟨u, hu, hforeign⟩

theorem escapes_ofLine {line : String} : Escapes (ofLine line) ↔ Unreadable line := by
  rw [ofLine, Unreadable]
  rcases hsplit : split? line.toList with - | ⟨time, tokens⟩
  · simp [Error.isPlain]
  · have htokens := escapes_tokens (isNumber_of_split? hsplit)
    have htime : Escapes (liftNumeral (Numeral.value time)) ↔ TooLong time := escapes_value
    simp only [escapes_bind, htime, htokens, not_escapes_ok, and_false, exists_false, or_false]
    by_cases hlong : TooLong time
    · simp [hlong]
    · obtain ⟨n, hn⟩ := ok_of_not_escapes (mt htime.1 hlong)
      simp [hlong, hn]

end Row

/-! ### Tables -/

namespace Header

/-- A header line of a known key, with a value that can be taken in. -/
def IsRead (line : String) : Prop :=
  ∃ key value, known? line = some (key, value) ∧
    (key = .sourceNames ∨ ∃ n, readCount key.word value = .ok n)

/-- A header line of a known key, with a count that is too long. -/
def Overlong (line : String) : Prop :=
  ∃ key value, known? line = some (key, value) ∧ key ≠ .sourceNames ∧ IsOverlongCount value

/-- A line that belongs to the headers. -/
def isKnown (line : String) : Bool :=
  (known? line).isSome

end Header

namespace Table

/-- A table of which a header or a row cannot be converted, and everything before it can. -/
def Unreadable (lines : List String) : Prop :=
  FirstIs Header.IsRead Header.Overlong lines ∨
    (∀ line ∈ lines.takeWhile Header.isKnown, Header.IsRead line) ∧
      FirstIs (fun line => ∃ row, Row.ofLine line = .ok row) Row.Unreadable
        (lines.dropWhile Header.isKnown)

theorem escapes_put {t : Table} {key : HeaderKey} {value : String} :
    Escapes (t.put key value) ↔ key ≠ .sourceNames ∧ IsOverlongCount value := by
  cases key <;> simp [put, escapes_bind, escapes_readCount]

theorem put_eq_ok {t : Table} {key : HeaderKey} {value : String} :
    (∃ t', t.put key value = .ok t') ↔
      key = .sourceNames ∨ ∃ n, readCount key.word value = .ok n := by
  cases key with
  | sourceNames => simp [put]
  | flushVersion | start | finish | step | sourceCount =>
    simp only [put, Result.bind_eq_ok, Except.ok.injEq, reduceCtorEq, false_or]
    constructor
    · rintro ⟨-, n, hn, -⟩
      exact ⟨n, hn⟩
    · rintro ⟨n, hn⟩
      exact ⟨_, n, hn, rfl⟩

theorem escapes_readHeaders {t : Table} {lines : List String} :
    Escapes (t.readHeaders lines) ↔ FirstIs Header.IsRead Header.Overlong lines := by
  induction lines generalizing t with
  | nil => simp [readHeaders, firstIs_nil]
  | cons line lines ih =>
    rw [readHeaders, firstIs_cons, Header.Overlong, Header.IsRead]
    rcases hknown : Header.known? line with - | ⟨key, value⟩
    · simp
    · have hput : (∃ t', t.put key value = .ok t') ↔ _ := put_eq_ok
      simp only [escapes_bind, escapes_put, ih, exists_and_right, hput]
      simp

/-- The headers end before the first line without a known key, if all of them are read. -/
theorem readHeaders_eq_ok {t : Table} {lines rest : List String} :
    (∃ t', t.readHeaders lines = .ok (t', rest)) ↔
      rest = lines.dropWhile Header.isKnown ∧
        ∀ line ∈ lines.takeWhile Header.isKnown, Header.IsRead line := by
  induction lines generalizing t with
  | nil => simp [readHeaders, eq_comm]
  | cons line lines ih =>
    rw [readHeaders, List.dropWhile_cons, List.takeWhile_cons, Header.isKnown]
    -- the headers end at the first line without a known key, whatever it is
    rcases hknown : Header.known? line with - | ⟨key, value⟩
    · simp [eq_comm]
    · rw [Option.isSome_some, if_pos rfl, if_pos rfl, List.forall_mem_cons]
      constructor
      · rintro ⟨t', h⟩
        obtain ⟨taken, hput, h⟩ := Result.bind_eq_ok.1 h
        obtain ⟨hrest, hall⟩ := ih.1 ⟨t', h⟩
        exact ⟨hrest, ⟨key, value, hknown, put_eq_ok.1 ⟨taken, hput⟩⟩, hall⟩
      · rintro ⟨hrest, ⟨key', value', hknown', hread⟩, hall⟩
        obtain ⟨rfl, rfl⟩ : key = key' ∧ value = value' := by simpa [hknown] using hknown'
        obtain ⟨taken, hput⟩ := put_eq_ok.2 hread
        obtain ⟨t', h⟩ := ih.2 ⟨hrest, hall⟩
        exact ⟨t', Result.bind_eq_ok.2 ⟨taken, hput, h⟩⟩

theorem escapes_rows {lines : List String} :
    Escapes (lines.mapM Row.ofLine) ↔
      FirstIs (fun line => ∃ row, Row.ofLine line = .ok row) Row.Unreadable lines := by
  simp only [escapes_mapM, Row.escapes_ofLine]

theorem escapes_ofLines {lines : List String} : Escapes (ofLines lines) ↔ Unreadable lines := by
  rw [ofLines, escapes_bind, escapes_readHeaders, Unreadable, ← escapes_rows]
  refine or_congr_right ⟨?_, ?_⟩
  · rintro ⟨⟨t, rest⟩, hheaders, h⟩
    obtain ⟨rfl, hread⟩ := readHeaders_eq_ok.1 ⟨t, hheaders⟩
    rcases escapes_bind.1 h with h | ⟨rows, -, h⟩
    · exact ⟨hread, h⟩
    · exact absurd h (not_escapes_ok _)
  · rintro ⟨hread, h⟩
    obtain ⟨t, hheaders⟩ := readHeaders_eq_ok.2 ⟨rfl, hread⟩
    exact ⟨(t, _), hheaders, escapes_bind.2 (.inl h)⟩

end Table

end RrdCache
