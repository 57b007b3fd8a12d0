/-
RrdCache/Proofs/Reply/Rows.lean

The grammar of data lines.  A data line is a time, a colon, and one cell or more; a cell is a
gap and the token of a number.  The reader cuts the text behind the first gap at every blank
and keeps what is not empty, and for cells that is the same as reading them one by one.

Main result: a line holds a row exactly if it is a data line of the grammar whose time is not
too long, the row is the one that its parts name, and a line has these parts in one way only
(`Row.ofLine_grammar`).
-/
import RrdCache.Proofs.Reply.Numbers
import RrdCache.Proofs.Result

namespace RrdCache

/-! ### Cells -/

/-- A gap and the token behind it. -/
structure Cell where
  gap : List Char
  token : List Char

namespace Cell

/-- The characters of a cell. -/
def chars (c : Cell) : List Char := c.gap ++ c.token

/-- The gap ends where the token begins, and no gap stands in the token. -/
structure IsCut (c : Cell) : Prop where
  gap_isGap : Shape.IsGap c.gap
  token_ne_nil : c.token ≠ []
  token_chars : ∀ a ∈ c.token, isGap a = false

end Cell

/-- What is not empty between the gaps of a text. -/
def gapless (s : List Char) : List (List Char) :=
  (s.splitOnP isGap).filter fun t => !t.isEmpty

variable {s : List Char}

/-- A gap in front makes no piece. -/
theorem gapless_gap {gap : List Char} (h : ∀ c ∈ gap, isGap c) : gapless (gap ++ s) = gapless s := by
  induction gap with
  | nil => rfl
  | cons c gap ih =>
    obtain ⟨hc, hgap⟩ := List.forall_mem_cons.1 h
    rw [← ih hgap, gapless, List.cons_append, List.splitOnP_cons_eq_if_modifyHead, if_pos hc]
    rfl

/-- A token in front is a piece of its own, if a gap or nothing follows it. -/
theorem gapless_token {token : List Char} (hne : token ≠ []) (htoken : ∀ c ∈ token, isGap c = false)
    (hs : Scan.Ends (fun c => !isGap c) s) : gapless (token ++ s) = token :: gapless s := by
  have hkeep : (!token.isEmpty) = true := by simpa using hne
  cases s with
  | nil =>
    rw [gapless, List.append_nil, List.splitOnP_eq_singleton htoken, List.filter_cons, if_pos hkeep]
    rfl
  | cons c s =>
    have hc : isGap c := by simpa using hs
    have hnext : gapless ([c] ++ s) = gapless s := gapless_gap (List.forall_mem_singleton.2 hc)
    rw [← List.singleton_append, hnext, List.singleton_append, gapless,
      List.splitOnP_append_cons_of_forall_mem htoken _ hc, List.filter_cons, if_pos hkeep]
    rfl

/-- Cells begin with a gap. -/
theorem ends_cells {cells : List Cell} (h : ∀ c ∈ cells, c.IsCut) :
    Scan.Ends (fun c => !isGap c) (cells.flatMap Cell.chars) := by
  cases cells with
  | nil => exact Scan.ends_nil
  | cons c cells =>
    obtain ⟨hne, hgap⟩ := (h c List.mem_cons_self).gap_isGap
    obtain ⟨a, gap, hgap'⟩ := List.exists_cons_of_ne_nil hne
    rw [List.flatMap_cons, Cell.chars, hgap', List.append_assoc, List.cons_append, Scan.ends_cons,
      hgap a (by simp [hgap'])]
    rfl

theorem gapless_cells {cells : List Cell} (h : ∀ c ∈ cells, c.IsCut) :
    gapless (cells.flatMap Cell.chars) = cells.map Cell.token := by
  induction cells with
  | nil => rfl
  | cons c cells ih =>
    obtain ⟨hc, hcells⟩ := List.forall_mem_cons.1 h
    rw [List.flatMap_cons, Cell.chars, List.append_assoc, gapless_gap hc.gap_isGap.2,
      gapless_token hc.token_ne_nil hc.token_chars (ends_cells hcells), ih hcells, List.map_cons]

/-- A run of a class is cut off where a text begins with one of its members. -/
theorem exists_run {p : Char → Bool} (hne : s ≠ []) (hs : Scan.Ends (fun c => !p c) s) :
    ∃ run rest, s = run ++ rest ∧ run ≠ [] ∧ (∀ c ∈ run, p c) ∧ Scan.Ends p rest := by
  obtain ⟨c, t, rfl⟩ := List.exists_cons_of_ne_nil hne
  have hc : p c := by simpa using hs
  refine ⟨_, _, List.takeWhile_append_dropWhile.symm, ?_, fun c hc => List.mem_takeWhile_imp hc,
    Scan.ends_dropWhile⟩
  rw [List.takeWhile_cons_of_pos hc]
  exact List.cons_ne_nil _ _

theorem Cell.IsCut.run?_gap {c : Cell} (h : c.IsCut) (s : List Char) :
    Scan.run? isGap (c.chars ++ s) = some (c.gap, c.token ++ s) := by
  obtain ⟨a, token, htoken⟩ := List.exists_cons_of_ne_nil h.token_ne_nil
  have hends : Scan.Ends isGap (c.token ++ s) := by
    rw [htoken, List.cons_append, Scan.ends_cons]
    exact h.token_chars a (by simp [htoken])
  exact Scan.run?_eq_some_iff.2
    ⟨List.append_assoc _ _ _, h.gap_isGap.1, h.gap_isGap.2, hends⟩

theorem Cell.IsCut.run?_token {c : Cell} (h : c.IsCut) (hs : Scan.Ends (fun c => !isGap c) s) :
    Scan.run? (fun c => !isGap c) (c.token ++ s) = some (c.token, s) :=
  Scan.run?_eq_some_iff.2 ⟨rfl, h.token_ne_nil, by simpa using h.token_chars, hs⟩

/-- A text that begins with a gap and ends without one is made of cells. -/
theorem exists_cells (hs : Scan.Ends (fun c => !isGap c) s) (hlast : ∀ c ∈ s.getLast?, ¬ isGap c) :
    ∃ cells : List Cell, (∀ c ∈ cells, c.IsCut) ∧ s = cells.flatMap Cell.chars := by
  -- each cell takes characters off the front, so that the text gets shorter
  induction hn : s.length using Nat.strong_induction_on generalizing s with
  | _ n ih =>
    by_cases hnil : s = []
    · exact ⟨[], by simp, hnil⟩
    obtain ⟨gap, more, rfl, hgapne, hgap, hmore⟩ := exists_run hnil hs
    have hmorene : more ≠ [] := by
      rintro rfl
      rw [List.append_nil] at hlast
      exact hlast _ (List.getLast?_eq_some_getLast hgapne) (hgap _ (List.getLast_mem hgapne))
    obtain ⟨token, rest, rfl, htokenne, htoken, hrest⟩ :=
      exists_run (p := fun c => !isGap c) hmorene (by simpa using hmore)
    have hlast' : ∀ c ∈ rest.getLast?, ¬ isGap c := by
      intro c hc
      have hrestne : rest ≠ [] := by
        rintro rfl
        cases hc
      apply hlast
      rwa [List.getLast?_append_of_ne_nil _ hmorene, List.getLast?_append_of_ne_nil _ hrestne]
    have hshort : rest.length < n := by
      have hpos := List.length_pos_iff.2 hgapne
      rw [← hn, List.length_append, List.length_append]
      omega
    obtain ⟨cells, hcells, rfl⟩ := ih _ hshort hrest hlast' rfl
    have hcut : Cell.IsCut ⟨gap, token⟩ := ⟨⟨hgapne, hgap⟩, htokenne, by simpa using htoken⟩
    exact ⟨⟨gap, token⟩ :: cells, List.forall_mem_cons.2 ⟨hcut, hcells⟩, by simp [Cell.chars]⟩

/-- Cells are read off a text in one way only. -/
theorem cells_injective {cells cells' : List Cell} (h : ∀ c ∈ cells, c.IsCut)
    (h' : ∀ c ∈ cells', c.IsCut) (heq : cells.flatMap Cell.chars = cells'.flatMap Cell.chars) :
    cells = cells' := by
  induction cells generalizing cells' with
  | nil =>
    cases cells' with
    | nil => rfl
    | cons c cells' =>
      have hne := (h' c List.mem_cons_self).token_ne_nil
      simp [Cell.chars, hne] at heq
  | cons c cells ih =>
    cases cells' with
    | nil =>
      have hne := (h c List.mem_cons_self).token_ne_nil
      simp [Cell.chars, hne] at heq
    | cons c' cells' =>
      obtain ⟨hc, hcells⟩ := List.forall_mem_cons.1 h
      obtain ⟨hc', hcells'⟩ := List.forall_mem_cons.1 h'
      have hgap := hc.run?_gap (cells.flatMap Cell.chars)
      have htoken := hc.run?_token (ends_cells hcells)
      rw [List.flatMap_cons, List.flatMap_cons] at heq
      rw [heq, hc'.run?_gap] at hgap
      obtain ⟨hgapeq, hmore⟩ := Prod.mk.inj (Option.some.inj hgap)
      rw [← hmore, hc'.run?_token (ends_cells hcells')] at htoken
      obtain ⟨htokeneq, hrest⟩ := Prod.mk.inj (Option.some.inj htoken)
      obtain ⟨gap, token⟩ := c
      obtain ⟨gap', token'⟩ := c'
      obtain rfl : gap' = gap := hgapeq
      obtain rfl : token' = token := htokeneq
      rw [ih hcells hcells' hrest.symm]

/-- Cells end with a token. -/
theorem getLast?_cells {cells : List Cell} (h : ∀ c ∈ cells, c.IsCut) :
    ∀ a ∈ (cells.flatMap Cell.chars).getLast?, ¬ isGap a := by
  induction cells with
  | nil => simp
  | cons c cells ih =>
    obtain ⟨hc, hcells⟩ := List.forall_mem_cons.1 h
    rw [List.flatMap_cons]
    intro a ha
    by_cases hnil : cells.flatMap Cell.chars = []
    · rw [hnil, List.append_nil, Cell.chars, List.getLast?_append_of_ne_nil _ hc.token_ne_nil] at ha
      have hplain := hc.token_chars a (List.mem_of_getLast? ha)
      simp [hplain]
    · rw [List.getLast?_append_of_ne_nil _ hnil] at ha
      exact ih hcells a ha

/-! ### Data lines -/

open Shape

/-- What a data line is made of. -/
structure RowLine where
  time : List Char
  cells : List Cell
  time_isDigits : IsDigits time
  cells_ne_nil : cells ≠ []
  gaps : ∀ c ∈ cells, IsGap c.gap
  numbers : ∀ c ∈ cells, ∃ x, Row.Names c.token x

namespace Row

variable {token : List Char}

/-- No blank and no end of line stands in a number. -/
theorem isNumber_chars (h : isNumber token) : ∀ c ∈ token, isGap c = false ∧ c ≠ '\r' ∧ c ≠ '\n' := by
  have hgraphic {c : Char} (hc : isGraphic c) : isGap c = false ∧ c ≠ '\r' ∧ c ≠ '\n' := by
    refine ⟨?_, ?_, ?_⟩
    · rw [Bool.eq_false_iff]
      intro hgap
      rcases isGap_iff.1 hgap with rfl | rfl <;> exact absurd hc (by decide)
    · rintro rfl
      exact absurd hc (by decide)
    · rintro rfl
      exact absurd hc (by decide)
  intro c hc
  rcases mem_sign_or hc with hbody | rfl | rfl
  · rcases isNumber_iff.1 h with hword | ⟨hall, -⟩
    · rcases isAlpha_of_mem_word hword hbody with hforeign | halpha
      · rcases eq_of_isForeignI hforeign with rfl | rfl <;> decide
      · exact hgraphic (isGraphic_of_isAlpha halpha)
    · exact hgraphic (isGraphic_of_rowChar (List.all_eq_true.1 hall c hbody))
  · decide
  · decide

theorem isNumber_ne_nil (h : isNumber token) : token ≠ [] := by
  rintro rfl
  revert h
  decide

/-- What is not empty between the gaps is the tokens, unless there is none, the text ends with a
gap, or one of them has not the shape of a number. -/
theorem tokens?_eq_some_iff {tokens : List (List Char)} :
    tokens? s = some tokens ↔ gapless s = tokens ∧ tokens ≠ [] ∧
      (∀ c ∈ s.getLast?, ¬ isGap c) ∧ ∀ t ∈ tokens, isNumber t := by
  have hlast : s.getLast?.any isGap = true ↔ ¬ ∀ c ∈ s.getLast?, ¬ isGap c := by
    cases s.getLast? <;> simp
  have hrefused : ((gapless s).isEmpty || s.getLast?.any isGap || !(gapless s).all isNumber) = true ↔
      ¬ (gapless s ≠ [] ∧ (∀ c ∈ s.getLast?, ¬ isGap c) ∧ ∀ t ∈ gapless s, isNumber t) := by
    rw [Bool.or_eq_true, Bool.or_eq_true, List.isEmpty_iff, hlast, Bool.not_eq_true',
      ← Bool.not_eq_true, List.all_eq_true]
    tauto
  rw [tokens?]
  change (if (gapless s).isEmpty || s.getLast?.any isGap || !(gapless s).all isNumber then none
    else some (gapless s)) = some tokens ↔ _
  split
  · rename_i hnot
    constructor
    · intro h
      cases h
    · rintro ⟨rfl, hok⟩
      exact absurd hok (hrefused.1 hnot)
  · rename_i hok
    rw [hrefused, not_not] at hok
    rw [Option.some.injEq]
    constructor
    · rintro rfl
      exact ⟨rfl, hok⟩
    · exact And.left

end Row

namespace RowLine

variable (r : RowLine)

/-- The characters of a data line. -/
def chars : List Char :=
  r.time ++ ':' :: (r.cells.flatMap Cell.chars ++ ['\n'])

/-- The time ends at the colon. -/
theorem digits?_chars :
    digits? r.chars = some (r.time, ':' :: (r.cells.flatMap Cell.chars ++ ['\n'])) :=
  Scan.run?_eq_some_iff.2
    ⟨rfl, r.time_isDigits.1, r.time_isDigits.2, Scan.ends_cons.2 (by decide)⟩

theorem isNumber : ∀ c ∈ r.cells, Row.isNumber c.token := by
  intro c hc
  obtain ⟨x, hx⟩ := r.numbers c hc
  exact (Row.names_iff.1 hx).1

theorem isCut : ∀ c ∈ r.cells, c.IsCut := fun c hc =>
  ⟨r.gaps c hc, Row.isNumber_ne_nil (r.isNumber c hc),
    fun a ha => (Row.isNumber_chars (r.isNumber c hc) a ha).1⟩

theorem isText : IsText (r.cells.flatMap Cell.chars) := by
  intro a ha
  obtain ⟨c, hc, ha⟩ := List.mem_flatMap.1 ha
  rcases List.mem_append.1 ha with ha | ha
  · rcases isGap_iff.1 ((r.gaps c hc).2 a ha) with rfl | rfl <;> decide
  · exact (Row.isNumber_chars (r.isNumber c hc) a ha).2

end RowLine

namespace Row

/-- A data line is taken apart as it is made up. -/
theorem split?_chars (r : RowLine) : split? r.chars = some (r.time, r.cells.map Cell.token) := by
  obtain ⟨c, cells, hcells⟩ := List.exists_cons_of_ne_nil r.cells_ne_nil
  -- the first gap is cut off, and the text begins with the first token
  obtain ⟨text, htext⟩ : ∃ text, text = c.token ++ cells.flatMap Cell.chars := ⟨_, rfl⟩
  have hall : r.cells.flatMap Cell.chars = c.gap ++ text := by
    rw [hcells, htext, List.flatMap_cons, Cell.chars, List.append_assoc]
  have hc : c.IsCut := r.isCut c (hcells ▸ List.mem_cons_self)
  have htextne : text ≠ [] := htext ▸ List.append_ne_nil_of_left_ne_nil hc.token_ne_nil _
  have htime : digits? r.chars = some (r.time, [':'] ++ (c.gap ++ (text ++ ['\n']))) := by
    rw [r.digits?_chars, hall, List.append_assoc]
    rfl
  have hgap : gap? (c.gap ++ (text ++ ['\n'])) = some (text ++ ['\n']) := by
    have hrun := hc.run?_gap (cells.flatMap Cell.chars ++ ['\n'])
    rw [Cell.chars, List.append_assoc, ← List.append_assoc c.token, ← htext] at hrun
    rw [gap?, hrun, Option.map_some]
  have hisText : IsText text := fun a ha =>
    r.isText a (hall ▸ List.mem_append_right _ ha)
  have htokens : tokens? text = some (r.cells.map Cell.token) := by
    refine tokens?_eq_some_iff.2 ⟨?_, by simpa using r.cells_ne_nil, ?_,
      List.forall_mem_map.2 r.isNumber⟩
    · rw [← gapless_cells r.isCut, hall, gapless_gap hc.gap_isGap.2]
    · have hlast := getLast?_cells r.isCut
      rwa [hall, List.getLast?_append_of_ne_nil _ htextne] at hlast
  simp only [split?, Option.bind_eq_bind, htime, Option.bind_some, Scan.after?_append, hgap,
    text?_eq_some_iff.2 ⟨rfl, hisText⟩, htokens]

/-- What is taken apart is a data line, if its tokens are converted as well. -/
theorem exists_of_split? {line time : List Char} {tokens : List (List Char)}
    (h : split? line = some (time, tokens))
    (hall : ∀ t ∈ tokens, ∃ x, Binary64.ofText? t = some x) :
    ∃ r : RowLine, r.chars = line ∧ r.time = time ∧ r.cells.map Cell.token = tokens := by
  simp only [split?, Option.bind_eq_bind, Option.bind_eq_some_iff] at h
  obtain ⟨⟨digits, afterTime⟩, hdigits, afterColon, hcolon, afterGap, hgap, text, htext, tokens',
    htokens, hpair⟩ := h
  obtain ⟨rfl, rfl⟩ := Prod.mk.inj (Option.some.inj hpair)
  obtain ⟨rfl, hdigitsne, hisDigit, -⟩ := Scan.run?_eq_some_iff.1 hdigits
  obtain rfl := Scan.after?_eq_some hcolon
  obtain ⟨gap, rfl, hisGap, -⟩ := gap?_eq_some_iff.1 hgap
  obtain ⟨rfl, hisText⟩ := text?_eq_some_iff.1 htext
  obtain ⟨rfl, hsome, hlast, hnumbers⟩ := tokens?_eq_some_iff.1 htokens
  have htextne : text ≠ [] := by
    rintro rfl
    exact hsome rfl
  -- the first gap was cut off before, and is put back in front of the first token
  have hfront : Scan.Ends (fun c => !isGap c) (gap ++ text) :=
    (Scan.ends_append hisGap.1).2 fun c hc => by simp [hisGap.2 c (List.mem_of_head? hc)]
  obtain ⟨cells, hcells, htext⟩ := exists_cells hfront
    (by rwa [List.getLast?_append_of_ne_nil _ htextne])
  have htokens : cells.map Cell.token = gapless text := by
    rw [← gapless_cells hcells, ← htext, gapless_gap hisGap.2]
  have hne : cells ≠ [] := by
    rintro rfl
    exact hsome htokens.symm
  refine ⟨⟨digits, cells, ⟨hdigitsne, hisDigit⟩, hne, fun c hc => (hcells c hc).gap_isGap,
    fun c hc => ?_⟩, ?_, rfl, htokens⟩
  · have hmem : c.token ∈ gapless text := htokens ▸ List.mem_map_of_mem hc
    obtain ⟨x, hx⟩ := hall c.token hmem
    exact ⟨x, names_iff.2 ⟨hnumbers c.token hmem, hx⟩⟩
  · simp [RowLine.chars, ← htext]

/-! ### Rows -/

/-- The row that a data line holds: its time is not too long to be converted. -/
structure Holds (r : RowLine) (row : Row) : Prop where
  time_length : r.time.length ≤ Numeral.digitLimit
  time_eq : row.time = Numeral.natOfDigits r.time
  values : List.Forall₂ Names (r.cells.map Cell.token) row.values

theorem liftNumeral_ofText_eq_ok {x : Binary64} :
    liftNumeral (Binary64.ofText token) = .ok x ↔ Binary64.ofText? token = some x := by
  rw [Result.liftNumeral_eq_ok, Binary64.ofText]
  cases Binary64.ofText? token <;> simp

/-- The tokens name these doubles if all have the shape of numbers and are converted to them. -/
theorem forall₂_names_iff {tokens : List (List Char)} {values : List Binary64} :
    List.Forall₂ Names tokens values ↔ (∀ t ∈ tokens, isNumber t) ∧
      tokens.mapM (fun t => liftNumeral (Binary64.ofText t)) = .ok values := by
  have hnames : Names = fun t x => isNumber t ∧ liftNumeral (Binary64.ofText t) = .ok x := by
    funext t x
    rw [names_iff, liftNumeral_ofText_eq_ok]
  rw [Result.mapM_eq_ok, ← List.forall₂_and_left, hnames]

/-- A data line has its parts in one way only. -/
theorem chars_injective {r r' : RowLine} (h : r.chars = r'.chars) : r = r' := by
  have htime := r.digits?_chars
  rw [h, r'.digits?_chars, Option.some.injEq, Prod.mk.injEq, List.cons.injEq] at htime
  obtain ⟨htime, -, hrest⟩ := htime
  have hcells := cells_injective r'.isCut r.isCut (List.append_cancel_right hrest)
  cases r
  cases r'
  obtain rfl := htime
  obtain rfl := hcells
  rfl

/-- A line holds a row exactly if it is a data line of the grammar, the row is the one that its
parts name, and they are its parts in one way only. -/
theorem ofLine_grammar (line : String) :
    (∀ row, ofLine line = .ok row ↔ ∃ r : RowLine, r.chars = line.toList ∧ Holds r row) ∧
      ∀ r r' : RowLine, r.chars = line.toList → r'.chars = line.toList → r = r' := by
  refine ⟨fun row => ⟨fun h => ?_, ?_⟩, fun r r' h h' => chars_injective (h.trans h'.symm)⟩
  · rw [ofLine] at h
    split at h
    · cases h
    · rename_i time tokens hsplit
      obtain ⟨n, hn, h⟩ := Result.bind_eq_ok.1 h
      obtain ⟨values, hvalues, h⟩ := Result.bind_eq_ok.1 h
      obtain rfl := Except.ok.inj h
      have hall : ∀ t ∈ tokens, ∃ x, Binary64.ofText? t = some x := by
        intro t ht
        obtain ⟨x, hx⟩ := Result.exists_mapM_eq_ok.1 ⟨values, hvalues⟩ t ht
        exact ⟨x, liftNumeral_ofText_eq_ok.1 hx⟩
      obtain ⟨r, hchars, rfl, rfl⟩ := exists_of_split? hsplit hall
      obtain ⟨hlength, htime⟩ := Numeral.value_eq_ok_iff.1 (Result.liftNumeral_eq_ok.1 hn)
      exact ⟨r, hchars, hlength, htime.symm,
        forall₂_names_iff.2 ⟨List.forall_mem_map.2 r.isNumber, hvalues⟩⟩
  · rintro ⟨r, hchars, hlength, htime, hvalues⟩
    have hvalue : Numeral.value r.time = .ok row.time :=
      Numeral.value_eq_ok_iff.2 ⟨hlength, htime.symm⟩
    rw [ofLine, ← hchars, split?_chars]
    exact Result.bind_eq_ok.2 ⟨row.time, Result.liftNumeral_eq_ok.2 hvalue,
      Result.bind_eq_ok.2 ⟨row.values, (forall₂_names_iff.1 hvalues).2, rfl⟩⟩

/-- Signs, points, exponents and words in any case. -/
example : ofLine "007: -.5\t+1.E3  NaN iNfInItY\n" = .ok
    ⟨7, [Decimal.round true ⟨5, -1⟩, Decimal.round false ⟨1, 3⟩, .nan, .infinite false]⟩ := by
  decide +kernel

end Row

end RrdCache
