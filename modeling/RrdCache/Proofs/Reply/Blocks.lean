/-
RrdCache/Proofs/Reply/Blocks.lean

Tables are read as two blocks, headers and then rows.  Nothing separates the blocks, but no
line is both a header and a row, so that there is at most one place where the rows can begin.

A header sets the value of its key, and `Table.taking` is a table after a number of headers:
for each key the last header with that key counts, which is why only the order of headers with
the same key matters.

Main result (`ofLines_twoBlocks`): reading a table is what `TwoBlocks` says.
-/
import RrdCache.Proofs.Escape.Reply
import RrdCache.Proofs.Reply.Grammar

namespace RrdCache

/-! ### Counts -/

/-- A text of up to 4300 digits, and of nothing else. -/
def IsCount (value : String) : Prop :=
  Shape.IsDigits value.toList ∧ value.toList.length ≤ Numeral.digitLimit

/-- The number that a count spells. -/
def countOf (value : String) : Nat :=
  Numeral.natOfDigits value.toList

theorem readCount_eq_ok_iff {what value : String} {n : Nat} :
    readCount what value = .ok n ↔ IsCount value ∧ countOf value = n := by
  have hshape : (!value.toList.isEmpty && value.toList.all Char.isDigit) = true
      ↔ Shape.IsDigits value.toList := by
    simp [Shape.IsDigits]
  rw [readCount, readUnsigned, IsCount, countOf]
  by_cases hdigits : Shape.IsDigits value.toList
  · rw [if_pos (hshape.2 hdigits), Result.liftNumeral_eq_ok, Numeral.value]
    split
    · rename_i hlong
      simp [Nat.not_le.2 hlong]
    · rename_i hlong
      simp [hdigits, Nat.not_lt.1 hlong]
  · rw [if_neg (mt hshape.1 hdigits)]
    simp [hdigits]

/-! ### Headers -/

namespace Header

/-- The line is a header with this known key and this value. -/
def Has (key : HeaderKey) (value line : String) : Prop :=
  Spells key.word.toList value.toList line.toList

/-- A header that is taken in: a known key, and a count for its value unless it names the
sources. -/
def IsTaken (line : String) : Prop :=
  ∃ key value, Has key value line ∧ (key ≠ .sourceNames → IsCount value)

/-- The value that a line gives to a key. -/
def valueOf? (key : HeaderKey) (line : String) : Option String :=
  (known? line).bind fun (known, value) => if known = key then some value else none

/-- The last value that lines give to a key. -/
def lastValue? (key : HeaderKey) (lines : List String) : Option String :=
  (lines.filterMap (valueOf? key)).getLast?

variable {key : HeaderKey} {line : String} {lines : List String}

/-- An earlier line counts only if no later one does. -/
theorem lastValue?_cons :
    lastValue? key (line :: lines) = (lastValue? key lines).or (valueOf? key line) := by
  rw [lastValue?, lastValue?, List.filterMap_cons]
  rcases valueOf? key line with - | value
  · rw [Option.or_none]
  · dsimp only
    rw [← List.singleton_append, List.getLast?_append]
    rfl

end Header

/-- What is made of the last value of a key; without one it is the default. -/
def lastAs {α : Type} (read : String → α) (default : α) (key : HeaderKey)
    (lines : List String) : α :=
  ((Header.lastValue? key lines).map read).getD default

theorem lastAs_cons {α : Type} (read : String → α) (default : α) (key : HeaderKey) (line : String)
    (lines : List String) :
    lastAs read default key (line :: lines)
      = lastAs read (((Header.valueOf? key line).map read).getD default) key lines := by
  rw [lastAs, lastAs, Header.lastValue?_cons]
  rcases Header.lastValue? key lines with - | value
  · rfl
  · rfl

theorem lastAs_singleton {α : Type} (read : String → α) (default : α) (key : HeaderKey)
    (line : String) :
    lastAs read default key [line] = ((Header.valueOf? key line).map read).getD default :=
  lastAs_cons read default key line []

namespace Table

/-- The table after headers: each key has the last of its values. -/
def taking (t : Table) (headers : List String) : Table where
  flushVersion := lastAs countOf t.flushVersion .flushVersion headers
  start := lastAs countOf t.start .start headers
  finish := lastAs countOf t.finish .finish headers
  step := lastAs countOf t.step .step headers
  sourceCount := lastAs countOf t.sourceCount .sourceCount headers
  sourceNames := lastAs (fun names => (words names.toList).map String.ofList) t.sourceNames
    .sourceNames headers
  rows := t.rows

variable {t : Table} {line : String} {headers data : List String} {rows : List Row}

theorem taking_cons (t : Table) (line : String) (headers : List String) :
    t.taking (line :: headers) = (t.taking [line]).taking headers := by
  simp only [taking, lastAs_singleton, lastAs_cons _ _ _ line headers]

/-- A header that is taken in sets the value of its key. -/
theorem put_eq_taking {key : HeaderKey} {value : String} (t : Table)
    (hline : Header.Has key value line) (hcount : key ≠ .sourceNames → IsCount value) :
    t.put key value = .ok (t.taking [line]) := by
  have hknown := Header.known?_eq_some_iff.2 hline
  simp only [taking, lastAs_singleton, Header.valueOf?, hknown, Option.bind_some]
  cases key with
  | sourceNames => rfl
  | flushVersion | start | finish | step | sourceCount =>
    simp only [put, readCount_eq_ok_iff.2 ⟨hcount (by decide), rfl⟩]
    rfl

theorem readHeaders_cons (t : Table) (hline : Header.IsTaken line) (rest : List String) :
    t.readHeaders (line :: rest) = (t.taking [line]).readHeaders rest := by
  obtain ⟨key, value, hhas, hcount⟩ := hline
  rw [readHeaders, Header.known?_eq_some_iff.2 hhas]
  simp only [put_eq_taking t hhas hcount]
  rfl

/-- All headers at the front are taken in. -/
theorem readHeaders_append (t : Table) (hheaders : ∀ line ∈ headers, Header.IsTaken line)
    (rest : List String) :
    t.readHeaders (headers ++ rest) = (t.taking headers).readHeaders rest := by
  induction headers generalizing t with
  | nil => rfl
  | cons line headers ih =>
    obtain ⟨hline, hlater⟩ := List.forall_mem_cons.1 hheaders
    rw [List.cons_append, readHeaders_cons t hline, ih _ hlater, ← taking_cons]

/-- What was taken in are the headers at the front. -/
theorem readHeaders_eq {t' : Table} {lines rest : List String}
    (h : t.readHeaders lines = .ok (t', rest)) :
    ∃ headers, lines = headers ++ rest ∧ (∀ line ∈ headers, Header.IsTaken line) ∧
      t' = t.taking headers := by
  induction lines generalizing t with
  | nil =>
    obtain ⟨rfl, rfl⟩ := Prod.mk.inj (Except.ok.inj h)
    exact ⟨[], rfl, List.forall_mem_nil _, rfl⟩
  | cons line lines ih =>
    rw [readHeaders] at h
    split at h
    · rename_i key value hknown
      have hhas := Header.known?_eq_some_iff.1 hknown
      obtain ⟨taken, hput, h⟩ := Result.bind_eq_ok.1 h
      have hcount : key ≠ .sourceNames → IsCount value := by
        intro hkey
        obtain ⟨n, hn⟩ := (put_eq_ok.1 ⟨taken, hput⟩).resolve_left hkey
        exact (readCount_eq_ok_iff.1 hn).1
      rw [put_eq_taking t hhas hcount] at hput
      obtain rfl := Except.ok.inj hput
      obtain ⟨headers, rfl, hheaders, rfl⟩ := ih h
      exact ⟨line :: headers, rfl, List.forall_mem_cons.2 ⟨⟨key, value, hhas, hcount⟩, hheaders⟩,
        (taking_cons t line headers).symm⟩
    · obtain ⟨rfl, rfl⟩ := Prod.mk.inj (Except.ok.inj h)
      exact ⟨[], rfl, List.forall_mem_nil _, rfl⟩

end Table

/-! ### Headers and rows -/

namespace Row

/-- The line is a row. -/
def Is (line : String) : Prop :=
  ∃ row, ofLine line = .ok row

theorem exists_split?_of_is {line : String} (h : Is line) :
    ∃ parts, split? line.toList = some parts := by
  obtain ⟨row, h⟩ := h
  rw [ofLine] at h
  split at h
  · cases h
  · exact ⟨_, ‹_›⟩

/-- If a row is taken for a header, its time is the key. -/
theorem isDigit_of_spells {line : String} {key value : List Char} (hrow : Is line)
    (h : Header.Spells key value line.toList) : ∀ c ∈ key, c.isDigit := by
  obtain ⟨⟨time, tokens⟩, hsplit⟩ := exists_split?_of_is hrow
  obtain ⟨gap, hline, hne, hcolon, -⟩ := h
  simp only [split?, Option.bind_eq_bind, Option.bind_eq_some_iff] at hsplit
  obtain ⟨⟨time', rest⟩, htime, rest', hrest, -⟩ := hsplit
  obtain ⟨hcut, hne', hdigits, -⟩ := Scan.run?_eq_some_iff.1 htime
  obtain rfl := Scan.after?_eq_some hrest
  -- both are what stands before the first colon
  have hcolon' : ':' ∉ time' := fun hc => absurd (hdigits _ hc) (by decide)
  have hkey : Scan.run? (· != ':') line.toList
      = some (key, ':' :: (gap ++ (value ++ ['\n']))) := by
    rw [hline, Shape.run?_colon hne hcolon]
  rw [hcut] at hkey
  have hsame := Option.some.inj ((Shape.run?_colon hne' hcolon').symm.trans hkey)
  obtain ⟨rfl, -⟩ := Prod.mk.inj hsame
  exact hdigits

end Row

/-- A known key is not made of digits. -/
theorem HeaderKey.exists_letter (key : HeaderKey) : ∃ c ∈ key.word.toList, c.isDigit = false := by
  have hword : key.word.toList.any (!·.isDigit) = true := by
    cases key <;> rfl
  simpa using hword

/-- No line is both. -/
theorem Header.not_row {key : HeaderKey} {value line : String} (h : Has key value line) :
    ¬ Row.Is line := by
  intro hrow
  obtain ⟨c, hc, hletter⟩ := key.exists_letter
  rw [Row.isDigit_of_spells hrow h c hc] at hletter
  cases hletter

theorem Header.IsTaken.not_row {line : String} (h : Header.IsTaken line) : ¬ Row.Is line := by
  obtain ⟨key, value, h, -⟩ := h
  exact Header.not_row h

/-- Headers that are taken in, and rows. -/
structure IsBlocks (headers data : List String) : Prop where
  headers_taken : ∀ line ∈ headers, Header.IsTaken line
  data_rows : ∀ line ∈ data, Row.Is line

namespace Table

/-- The table of headers and rows. -/
def ofBlocks (headers : List String) (rows : List Row) : Table :=
  { ({} : Table).taking headers with rows := rows }

theorem readHeaders_rows (t : Table) {data : List String} (hdata : ∀ line ∈ data, Row.Is line) :
    t.readHeaders data = .ok (t, data) := by
  cases data with
  | nil => rfl
  | cons line data =>
    rw [readHeaders]
    rcases hknown : Header.known? line with - | ⟨key, value⟩
    · rfl
    · have hrow := hdata line List.mem_cons_self
      exact absurd hrow (Header.not_row (Header.known?_eq_some_iff.1 hknown))

/-- A table is read from two blocks, and from nothing else. -/
theorem ofLines_eq_ok_iff {lines : List String} {t : Table} :
    ofLines lines = .ok t ↔ ∃ headers data rows, lines = headers ++ data ∧
      (∀ line ∈ headers, Header.IsTaken line) ∧
      List.Forall₂ (fun line row => Row.ofLine line = .ok row) data rows ∧
      t = ofBlocks headers rows := by
  constructor
  · intro h
    obtain ⟨⟨taken, data⟩, hheaders, h⟩ := Result.bind_eq_ok.1 h
    obtain ⟨rows, hrows, h⟩ := Result.bind_eq_ok.1 h
    obtain rfl := Except.ok.inj h
    obtain ⟨headers, rfl, htaken, rfl⟩ := readHeaders_eq hheaders
    exact ⟨headers, data, rows, rfl, htaken, Result.mapM_eq_ok.1 hrows, rfl⟩
  · rintro ⟨headers, data, rows, rfl, htaken, hrows, rfl⟩
    have hdata : ∀ line ∈ data, Row.Is line :=
      Result.exists_mapM_eq_ok.1 ⟨rows, Result.mapM_eq_ok.2 hrows⟩
    refine Result.bind_eq_ok.2 ⟨(({} : Table).taking headers, data), ?_, ?_⟩
    · rw [readHeaders_append _ htaken, readHeaders_rows _ hdata]
    · exact Result.bind_eq_ok.2 ⟨rows, Result.mapM_eq_ok.2 hrows, rfl⟩

theorem isOk_ofLines_iff {lines : List String} :
    (∃ t, ofLines lines = .ok t) ↔ ∃ headers data, lines = headers ++ data ∧
      IsBlocks headers data := by
  constructor
  · rintro ⟨t, h⟩
    obtain ⟨headers, data, rows, hlines, htaken, hrows, -⟩ := ofLines_eq_ok_iff.1 h
    exact ⟨headers, data, hlines, htaken,
      Result.exists_mapM_eq_ok.1 ⟨rows, Result.mapM_eq_ok.2 hrows⟩⟩
  · rintro ⟨headers, data, hlines, htaken, hdata⟩
    obtain ⟨rows, hrows⟩ := Result.exists_mapM_eq_ok.2 hdata
    exact ⟨_, ofLines_eq_ok_iff.2 ⟨headers, data, rows, hlines, htaken,
      Result.mapM_eq_ok.1 hrows, rfl⟩⟩

/-- A line that is no header and no row is not read. -/
theorem ofLines_of_bad_line {lines : List String} {line : String} (hmem : line ∈ lines)
    (hheader : ¬ Header.IsTaken line) (hrow : ¬ Row.Is line) :
    ∃ e, ofLines lines = .error e := by
  rcases hread : ofLines lines with e | t
  · exact ⟨e, rfl⟩
  · obtain ⟨headers, data, rfl, hblocks⟩ := isOk_ofLines_iff.1 ⟨t, hread⟩
    rcases List.mem_append.1 hmem with h | h
    · exact absurd (hblocks.headers_taken line h) hheader
    · exact absurd (hblocks.data_rows line h) hrow

end Table

/-! ### Where the blocks meet -/

namespace IsBlocks

variable {headers data before after : List String}

/-- What is no row stands in the first block. -/
theorem split (h : IsBlocks headers data) (hbefore : ∀ line ∈ before, ¬ Row.Is line)
    (heq : headers ++ data = before ++ after) :
    ∃ later, headers = before ++ later ∧ after = later ++ data := by
  rcases List.append_eq_append_iff.1 heq with ⟨rest, rfl, hdata⟩ | ⟨rest, hheaders, hafter⟩
  · have hrest : rest = [] := by
      refine List.eq_nil_iff_forall_not_mem.2 fun line hline => ?_
      have hrow := h.data_rows line (hdata ▸ List.mem_append_left _ hline)
      exact hbefore line (List.mem_append_right _ hline) hrow
    subst hrest
    exact ⟨[], by simp, hdata.symm⟩
  · exact ⟨rest, hheaders, hafter⟩

/-- There is one place only where the blocks can meet. -/
theorem unique {headers' data' : List String} (h : IsBlocks headers data)
    (h' : IsBlocks headers' data') (heq : headers ++ data = headers' ++ data') :
    headers = headers' ∧ data = data' := by
  obtain ⟨later, rfl, rfl⟩ := h.split (fun line hline => (h'.headers_taken line hline).not_row) heq
  have hlater : later = [] := by
    refine List.eq_nil_iff_forall_not_mem.2 fun line hline => ?_
    have hrow := h'.data_rows line (List.mem_append_left _ hline)
    exact (h.headers_taken line (List.mem_append_right _ hline)).not_row hrow
  subst hlater
  exact ⟨List.append_nil _, rfl⟩

/-- Behind a row there are rows only. -/
theorem rows_after {line : String} (h : IsBlocks headers data) (hrow : Row.Is line)
    (heq : headers ++ data = before ++ line :: after) : ∀ later ∈ after, Row.Is later := by
  intro later hlater
  rcases List.append_eq_append_iff.1 heq with ⟨rest, -, hdata⟩ | ⟨rest, hheaders, hafter⟩
  · exact h.data_rows later (by simp [hdata, hlater])
  · rcases rest with - | ⟨first, rest⟩
    · have hdata : line :: after = data := hafter
      exact h.data_rows later (hdata ▸ List.mem_cons_of_mem _ hlater)
    · obtain ⟨rfl, -⟩ := List.cons.inj hafter
      exact absurd hrow (h.headers_taken line (by simp [hheaders])).not_row

end IsBlocks

/-- Whether a line is a header with a key. -/
def Header.hasKey (key : HeaderKey) (line : String) : Bool :=
  (valueOf? key line).isSome

/-- The last value of a key is a matter of the headers with that key. -/
theorem Header.lastValue?_append_congr {key : HeaderKey} {headers headers' : List String}
    (h : headers.filter (hasKey key) = headers'.filter (hasKey key)) (later : List String) :
    lastValue? key (headers ++ later) = lastValue? key (headers' ++ later) := by
  have hvalues : ∀ lines : List String,
      lines.filterMap (valueOf? key) = (lines.filter (hasKey key)).filterMap (valueOf? key) := by
    intro lines
    rw [List.filterMap_filter]
    refine List.filterMap_congr fun line _ => ?_
    rcases hvalue : valueOf? key line with - | value <;> simp [hasKey, hvalue]
  rw [lastValue?, lastValue?, List.filterMap_append, List.filterMap_append, hvalues headers, h,
    ← hvalues]

namespace Table

/-- Only the order of headers with the same key matters. -/
theorem ofBlocks_congr {headers headers' : List String}
    (h : ∀ key, headers.filter (Header.hasKey key) = headers'.filter (Header.hasKey key))
    (later : List String) (rows : List Row) :
    ofBlocks (headers ++ later) rows = ofBlocks (headers' ++ later) rows := by
  have hlast := fun key => Header.lastValue?_append_congr (h key) later
  simp only [ofBlocks, taking, lastAs, hlast]

/-- Headers in another order give the same table. -/
theorem ofLines_reorder {headers headers' data : List String} {t : Table}
    (hperm : headers.Perm headers')
    (horder : ∀ key, headers.filter (Header.hasKey key) = headers'.filter (Header.hasKey key))
    (hheaders : ∀ line ∈ headers, ∃ key value, Header.Has key value line)
    (h : ofLines (headers ++ data) = .ok t) : ofLines (headers' ++ data) = .ok t := by
  obtain ⟨taken, own, rows, heq, htaken, hrows, rfl⟩ := ofLines_eq_ok_iff.1 h
  have hblocks : IsBlocks taken own :=
    ⟨htaken, Result.exists_mapM_eq_ok.1 ⟨rows, Result.mapM_eq_ok.2 hrows⟩⟩
  have hnot : ∀ line ∈ headers, ¬ Row.Is line := by
    intro line hline
    obtain ⟨key, value, hhas⟩ := hheaders line hline
    exact Header.not_row hhas
  -- more headers may stand at the front of what comes after those that are reordered
  obtain ⟨later, rfl, rfl⟩ := hblocks.split hnot heq.symm
  refine ofLines_eq_ok_iff.2 ⟨headers' ++ later, own, rows, (List.append_assoc _ _ _).symm, ?_,
    hrows, ofBlocks_congr horder later rows⟩
  intro line hline
  refine htaken line (List.mem_append.2 ?_)
  exact (List.mem_append.1 hline).imp_left hperm.mem_iff.2

end Table

/-- How a table is read from lines: as two blocks. -/
structure TwoBlocks (read : List String → Except Error Table) : Prop where
  /-- No line is a header and a row. -/
  disjoint : ∀ key value line, Header.Has key value line → ¬ Row.Is line
  /-- What is read are headers that are taken in and then rows. -/
  read_iff : ∀ lines t, read lines = .ok t ↔ ∃ headers data rows, lines = headers ++ data ∧
    (∀ line ∈ headers, Header.IsTaken line) ∧
    List.Forall₂ (fun line row => Row.ofLine line = .ok row) data rows ∧
    t = Table.ofBlocks headers rows
  /-- Everything else is refused. -/
  refused_iff : ∀ lines, (∃ e, read lines = .error e) ↔
    ¬ ∃ headers data, lines = headers ++ data ∧ IsBlocks headers data
  /-- The blocks meet in one place only. -/
  unique : ∀ headers data headers' data', IsBlocks headers data → IsBlocks headers' data' →
    headers ++ data = headers' ++ data' → headers = headers' ∧ data = data'
  /-- Headers may come in another order, if those with the same key do not. -/
  reorder : ∀ headers headers' data t, headers.Perm headers' →
    (∀ key, headers.filter (Header.hasKey key) = headers'.filter (Header.hasKey key)) →
    (∀ line ∈ headers, ∃ key value, Header.Has key value line) →
    (read (headers ++ data) = .ok t ↔ read (headers' ++ data) = .ok t)
  /-- No header may come after a row. -/
  late_header : ∀ before row middle header after key value, Row.Is row →
    Header.Has key value header →
    ∃ e, read (before ++ row :: (middle ++ header :: after)) = .error e
  /-- No header may have another key than those that are known. -/
  unknown_key : ∀ lines line key value, line ∈ lines → Header.Spells key value line.toList →
    (∀ known : HeaderKey, known.word.toList ≠ key) → (∃ c ∈ key, ¬ c.isDigit) →
    ∃ e, read lines = .error e
  /-- No other line may stand anywhere. -/
  bad_line : ∀ lines line, line ∈ lines → ¬ Header.IsTaken line → ¬ Row.Is line →
    ∃ e, read lines = .error e

/-- A table is read as two blocks. -/
theorem Table.ofLines_twoBlocks : TwoBlocks Table.ofLines where
  disjoint _ _ _ := Header.not_row
  read_iff _ _ := ofLines_eq_ok_iff
  refused_iff lines := by
    rw [← isOk_ofLines_iff]
    rcases ofLines lines with e | t <;> simp
  unique _ _ _ _ h h' := h.unique h'
  reorder _ _ _ _ hperm horder hheaders :=
    ⟨ofLines_reorder hperm horder hheaders,
      ofLines_reorder hperm.symm (fun key => (horder key).symm)
        fun line hline => hheaders line (hperm.mem_iff.2 hline)⟩
  late_header before row middle header after key value hrow hheader := by
    rcases hread : ofLines (before ++ row :: (middle ++ header :: after)) with e | t
    · exact ⟨e, rfl⟩
    · obtain ⟨headers, data, heq, hblocks⟩ := isOk_ofLines_iff.1 ⟨t, hread⟩
      have hlate := hblocks.rows_after hrow heq.symm header (by simp)
      exact absurd hlate (Header.not_row hheader)
  unknown_key lines line key value hmem hspells hunknown hother := by
    obtain ⟨c, hc, hdigit⟩ := hother
    refine ofLines_of_bad_line hmem ?_ ?_
    · rintro ⟨known, value', hhas, -⟩
      have hsame := (Header.split?_eq_some_iff.2 hhas).symm.trans
        (Header.split?_eq_some_iff.2 hspells)
      exact hunknown known (Prod.mk.inj (Option.some.inj hsame)).1
    · exact fun hrow => hdigit (Row.isDigit_of_spells hrow hspells c hc)
  bad_line _ _ := ofLines_of_bad_line

end RrdCache
