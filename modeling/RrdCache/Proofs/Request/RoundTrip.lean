/-
RrdCache/Proofs/Request/RoundTrip.lean

Updates that were written read back.  The line of a point can be taken apart in one way
only, since no part of it holds the character that ends it, and each value is recognised for
what it is: a whole number is digits, perhaps behind a dash, and a double never is.

Main result (`Point.ofLine_updateLine`): whatever point is written down at whatever position
of the clock, its line reads as the point with the same path, the time that was written, and
the same values in the same order.
-/
import RrdCache.Proofs.Client.Points
import RrdCache.Proofs.Number.RoundTrip
import RrdCache.Proofs.Request.Fields

namespace RrdCache

/-! ### Values -/

/-- What a value comes back as: the same number, of the same kind, and for a text the double
that it spells. -/
inductive Scalar.ComesBackAs : Scalar → Scalar → Prop
  | int (i : Int) : ComesBackAs (.int i) (.int i)
  | float (x : Binary64) : ComesBackAs (.float x) (.float x)
  | text (s : String) (x : Binary64) (spells : Binary64.ofText? s.toList = some x) :
    ComesBackAs (.text s) (.float x)

/-- In the text of a double that is a number stands a character that is neither a dash nor a
digit. -/
theorem Binary64.exists_mark {x : Binary64} (hx : x ≠ .nan) :
    ∃ c ∈ x.chars, c ≠ '-' ∧ hasDigitValue c = false := by
  rcases x.chars_cases with rfl | ⟨negative, -, h⟩ | ⟨negative, m, -, h⟩
  · exact absurd rfl hx
  · refine ⟨'i', by simp [h], by decide, by decide +kernel⟩
  · rcases m.text_mark with hmark | hmark
    · exact ⟨'.', by simp [h, hmark], by decide, by decide +kernel⟩
    · exact ⟨'e', by simp [h, hmark], by decide, by decide +kernel⟩

theorem Binary64.colon_not_mem_chars (x : Binary64) : ':' ∉ x.chars := by
  rcases x.chars_cases with rfl | ⟨negative, -, h⟩ | ⟨negative, m, -, h⟩
  · decide
  · rw [h]
    cases negative <;> decide
  · rw [h, List.mem_append]
    rintro (hc | hc)
    · cases negative <;> simp at hc
    · exact absurd (m.text_chars _ hc) (by decide)

namespace Point

/-- The text of a whole number reads as that number. -/
theorem value?_digits {i : Int} (h : ¬ Numeral.Overlong i) :
    value? (Numeral.digits i) = some (.int i) := by
  have hunknown : Numeral.digits i ≠ unknownWord.toList := by
    intro heq
    have hU : 'U' ∈ Numeral.digits i := heq ▸ by decide
    rcases Numeral.mem_digits hU with hc | ⟨hc, -⟩ <;> exact absurd hc (by decide)
  -- behind the dash of a negative number stand digits alone
  have hnone : ∀ c ∈ Nat.toDigits 10 i.natAbs, (c == '-') = false := by
    intro c hc
    rw [beq_eq_false_iff_ne]
    rintro rfl
    exact absurd (isDigit_of_mem_toDigits hc) (by decide)
  have hdigits : (Numeral.digits i).dropWhile (· == '-') = Nat.toDigits 10 i.natAbs := by
    rw [Numeral.digits]
    split
    · rw [List.dropWhile_cons_of_pos (by decide), dropWhile_eq_self hnone]
    · exact dropWhile_eq_self hnone
  have hall : (Nat.toDigits 10 i.natAbs).all hasDigitValue = true := by
    apply List.all_eq_true.2
    intro c hc
    rw [hasDigitValue, isDecimalDigit_of_isDigit (isDigit_of_mem_toDigits hc), Bool.true_or]
  have hne : (Nat.toDigits 10 i.natAbs).isEmpty = false := by simp
  simp only [value?, hdigits, if_neg hunknown, hall, hne, Numeral.ofText_digits h]
  rfl

/-- The text of a double that is a number reads as that double, and never as a whole number. -/
theorem value?_chars {x : Binary64} (hx : x ≠ .nan) : value? x.chars = some (.float x) := by
  have hreads := Binary64.ofText?_chars hx
  have hunknown : x.chars ≠ unknownWord.toList := by
    intro heq
    rw [heq, show Binary64.ofText? unknownWord.toList = none by decide +kernel] at hreads
    cases hreads
  -- the mark stays behind the dashes, so that the rest is not digits alone
  obtain ⟨c, hc, hdash, hvalue⟩ := Binary64.exists_mark hx
  have hkept : c ∈ x.chars.dropWhile (· == '-') :=
    (mem_dropWhile_or hc).resolve_right (by simpa using hdash)
  have hall : (x.chars.dropWhile (· == '-')).all hasDigitValue = false :=
    List.all_eq_false.2 ⟨c, hkept, by simp [hvalue]⟩
  simp only [value?, if_neg hunknown, hall, Bool.and_false, hreads]
  rfl

/-- A double on a request line reads as that double; the word for unknown is no number. -/
theorem value?_field (x : Binary64) : value? x.field.toList = some (.float x) := by
  rw [Binary64.field]
  split
  · rename_i hnan
    cases x with
    | nan => decide +kernel
    | infinite _ | finite _ _ => cases hnan
  · rename_i hnan
    rw [Binary64.text, String.toList_ofList]
    apply value?_chars
    rintro rfl
    exact hnan rfl

end Point

theorem Binary64.colon_not_mem_field (x : Binary64) : ':' ∉ x.field.toList := by
  rw [field]
  split
  · decide
  · rw [Binary64.text, String.toList_ofList]
    exact x.colon_not_mem_chars

/-- A value that is written comes back, and no colon stands in its text. -/
theorem Scalar.field_comesBack {v : Scalar} {s : String} (h : v.field = .ok s) :
    ':' ∉ s.toList ∧ ∃ u, v.ComesBackAs u ∧ Point.value? s.toList = some u := by
  cases v with
  | int i =>
    obtain ⟨hshort, rfl⟩ := intField_eq_ok.1 h
    rw [Numeral.spelling, String.toList_ofList]
    refine ⟨?_, .int i, .int i, Point.value?_digits hshort⟩
    intro hc
    rcases Numeral.mem_digits hc with hc | ⟨hc, -⟩ <;> exact absurd hc (by decide)
  | float x =>
    obtain rfl := Except.ok.inj h
    exact ⟨x.colon_not_mem_field, .float x, .float x, Point.value?_field x⟩
  | text t =>
    rw [field] at h
    split at h
    · rename_i x hx
      obtain rfl := Except.ok.inj h
      exact ⟨x.colon_not_mem_field, .float x, .text t x hx, Point.value?_field x⟩
    · cases h
  | null | bool _ | blank => cases h

/-! ### Lines -/

namespace Point

/-- A line with a path, a time and values is taken apart into these. -/
theorem split?_append {path time values : List Char} (hpath : path ≠ []) (hblank : ' ' ∉ path)
    (htime : time ≠ []) (hdigits : ∀ c ∈ time, c.isDigit) (hvalues : values ≠ [])
    (hgraphic : ∀ c ∈ values, isGraphic c) :
    split? ("UPDATE ".toList ++
        ((path ++ ".rrd".toList) ++ (' ' :: (time ++ (':' :: (values ++ ['\n']))))))
      = some (path, time, values) := by
  -- each part ends where its reader stops: the file at a blank, the time at the colon, the
  -- values at the line feed
  have hfile : Scan.run? (· != ' ')
      ((path ++ ".rrd".toList) ++ (' ' :: (time ++ (':' :: (values ++ ['\n'])))))
        = some (path ++ ".rrd".toList, ' ' :: (time ++ (':' :: (values ++ ['\n'])))) := by
    refine Scan.run?_eq_some_iff.2 ⟨rfl, by simp, ?_, by simp⟩
    intro c hc
    rw [bne_iff_ne]
    rintro rfl
    rcases List.mem_append.1 hc with hc | hc
    · exact hblank hc
    · exact absurd hc (by decide)
  have hgap : Scan.after? [' '] (' ' :: (time ++ (':' :: (values ++ ['\n']))))
      = some (time ++ (':' :: (values ++ ['\n']))) := Scan.after?_append [' '] _
  have htimestamp : Scan.run? isDecimalDigit (time ++ (':' :: (values ++ ['\n'])))
      = some (time, ':' :: (values ++ ['\n'])) :=
    Scan.run?_eq_some_iff.2 ⟨rfl, htime, fun c hc => isDecimalDigit_of_isDigit (hdigits c hc),
      Scan.ends_cons.2 (by decide +kernel)⟩
  have hcolon : Scan.after? [':'] (':' :: (values ++ ['\n'])) = some (values ++ ['\n']) :=
    Scan.after?_append [':'] _
  have hrun : Scan.run? (fun c => c != ' ' && c != '\n') (values ++ ['\n'])
      = some (values, ['\n']) := by
    refine Scan.run?_eq_some_iff.2 ⟨rfl, hvalues, ?_, by simp⟩
    intro c hc
    rw [Bool.and_eq_true, bne_iff_ne, bne_iff_ne]
    constructor <;> rintro rfl <;> exact absurd (hgraphic _ hc) (by decide)
  have hempty : path.isEmpty = false := by simpa using hpath
  simp only [split?, Scan.after?_append, hfile, Scan.before?_append, hempty, hgap, htimestamp,
    hcolon, hrun, Option.bind_eq_bind, Option.bind_some, if_true]
  rfl

/-- The line of a point is taken apart into the path, the digits of the time and the values. -/
theorem split?_line (path : Identifier) (time : Nat) {values : String} (h : IsToken values) :
    split? ("UPDATE " ++ path.file ++ " " ++ Numeral.spelling time ++ ":" ++ values ++ "\n").toList
      = some (path.text.toList, Nat.toDigits 10 time, values.toList) := by
  have htext : (Numeral.spelling time).toList = Nat.toDigits 10 time := String.toList_ofList
  rw [← split?_append path.isToken.1 path.isToken.blank_not_mem Nat.toDigits_ne_nil
    (fun c => isDigit_of_mem_toDigits) h.1 h.2]
  simp [Identifier.file, htext]

/-- Values between colons fall apart at the colons. -/
theorem splitOn_fields {fields : List String} (hne : fields ≠ [])
    (hcolons : ∀ t ∈ fields, ':' ∉ t.toList) :
    (String.intercalate ":" fields).toList.splitOn ':' = fields.map String.toList := by
  rw [String.toList_intercalate]
  refine List.splitOn_intercalate ':' ?_ (by simpa using hne)
  intro s hs
  obtain ⟨t, ht, rfl⟩ := List.mem_map.1 hs
  exact hcolons t ht

/-- What was written for a list of values comes back value by value. -/
theorem readValues {values : List Scalar} {fields : List String}
    (h : values.mapM Scalar.field = .ok fields) (line : String) :
    (∀ t ∈ fields, ':' ∉ t.toList) ∧ ∃ us, List.Forall₂ Scalar.ComesBackAs values us ∧
      (fields.map String.toList).mapM (readValue line) = .ok us := by
  have hfields := Result.mapM_eq_ok.1 h
  clear h
  -- along the values, each with the text that was written for it
  induction hfields with
  | nil => exact ⟨by simp, [], .nil, rfl⟩
  | cons hfirst _ ih =>
    obtain ⟨hcolons, us, hus, hlater⟩ := ih
    obtain ⟨hcolon, u, hu, hvalue⟩ := Scalar.field_comesBack hfirst
    refine ⟨List.forall_mem_cons.2 ⟨hcolon, hcolons⟩, u :: us, .cons hu hus, ?_⟩
    rw [List.map_cons, List.mapM_cons, readValue, hvalue]
    exact Result.bind_eq_ok.2 ⟨u, rfl, Result.bind_eq_ok.2 ⟨us, hlater, rfl⟩⟩

/-- The digits of a time that was written have its value. -/
theorem value_timestamp {time : Nat} (h : ¬ Numeral.Overlong time) :
    Numeral.value ((Nat.toDigits 10 time).map foldDigit) = .ok time := by
  have hfolded : (Nat.toDigits 10 time).map foldDigit = Nat.toDigits 10 time := by
    calc (Nat.toDigits 10 time).map foldDigit
        = (Nat.toDigits 10 time).map id := List.map_congr_left fun c hc =>
          (isFolded_of_isGraphic (isGraphic_of_isDigit (isDigit_of_mem_toDigits hc))).2
      _ = Nat.toDigits 10 time := List.map_id _
  rw [hfolded]
  exact Numeral.value_toDigits h

/-- The path and the time of a line, with values, pass every check. -/
theorem ofParts_eq (path : Identifier) (time : Nat) {values : List Scalar} (hne : values ≠ []) :
    ofParts (String.ofList path.text.toList) (.int time) values
      = .ok ⟨path, some time, values, hne⟩ := by
  have htimestamp : checkTimestamp (.int time) = .ok (some time) := by
    simp [checkTimestamp, Scalar.epoch?]
  have hpath : Identifier.ofPath (String.ofList path.text.toList) = .ok path :=
    Identifier.ofString_eq_ok.2 String.ofList_toList.symm
  rw [ofParts, dif_neg hne, htimestamp, hpath]
  rfl

/-- The line of a point reads as the point with that time. -/
theorem ofLine_line {p : Point} {time : Nat} {line : String} (h : p.line time = .ok line) :
    ∃ q, ofLine line = .ok q ∧ q.path = p.path ∧ q.timestamp = some time ∧
      List.Forall₂ Scalar.ComesBackAs p.values q.values := by
  -- the line was made of the values, then the time
  obtain ⟨values, hvalues, h⟩ := Result.bind_eq_ok.1 h
  obtain ⟨fields, hfields, hjoined⟩ := Result.bind_eq_ok.1 hvalues
  obtain rfl := Except.ok.inj hjoined
  obtain ⟨digits, htime, hline⟩ := Result.bind_eq_ok.1 h
  obtain ⟨hshort, rfl⟩ := intField_eq_ok.1 htime
  -- there are as many values as before, and so there is one
  obtain ⟨hcolons, us, hus, hread⟩ := readValues hfields line
  have hwritten := Result.mapM_eq_ok.1 hfields
  have hfieldsne : fields ≠ [] := by
    rintro rfl
    exact p.values_ne_nil (List.forall₂_nil_right_iff.1 hwritten)
  have husne : us ≠ [] := by
    rintro rfl
    exact p.values_ne_nil (List.forall₂_nil_right_iff.1 hus)
  -- the line falls into the same parts again
  have htokens := (mapM_spelled (fun _ _ _ => Scalar.field_eq) hfields).2
  have htoken : IsToken (String.intercalate ":" fields) :=
    IsToken.intercalate (by decide) hfieldsne htokens
  have hsplit := split?_line p.path time htoken
  rw [Except.ok.inj hline] at hsplit
  refine ⟨⟨p.path, some time, us, husne⟩, ?_, rfl, rfl, hus⟩
  simp only [ofLine, hsplit, splitOn_fields hfieldsne hcolons, hread, value_timestamp hshort]
  show ofParts (String.ofList p.path.text.toList) (.int time) us = _
  exact ofParts_eq p.path time husne

/-- Whatever point is written down, its line reads as that point, with its own time or else
with the one reading of the clock that was taken. -/
theorem ofLine_updateLine {p : Point} {w : World} {line : String}
    (h : ((Client.updateLine p).run w).1 = .ok line) :
    ∃ q time, ofLine line = .ok q ∧ q.path = p.path ∧ q.timestamp = some time ∧
      (p.timestamp = some time ∧ ((Client.updateLine p).run w).2.clock = w.clock ∨
        p.timestamp = none ∧
          w.clock.look = (.ok (.int time), ((Client.updateLine p).run w).2.clock)) ∧
      List.Forall₂ Scalar.ComesBackAs p.values q.values := by
  rw [Client.run_updateLine] at h ⊢
  obtain ⟨time, htime, hline⟩ := Result.bind_eq_ok.1 h
  obtain ⟨q, hq, hpath, htimestamp, hvalues⟩ := ofLine_line hline
  refine ⟨q, time, hq, hpath, htimestamp, ?_, hvalues⟩
  rw [timeFrom] at htime
  show _ ∧ p.clockAfter w.clock = _ ∨ _ ∧ _ = (_, p.clockAfter w.clock)
  rw [clockAfter]
  rcases hown : p.timestamp with - | t
  · -- the clock was looked at once, and what it gave is the time
    rw [hown] at htime
    refine .inr ⟨rfl, Prod.ext ?_ rfl⟩
    rw [Clock.look_fst]
    exact Reading.seconds_eq_ok.1 htime
  · rw [hown] at htime
    obtain rfl := Except.ok.inj htime
    exact .inl ⟨rfl, rfl⟩

/-- A point without a time, with values of every kind. -/
def mixed : Point where
  path := ⟨"cpu", by decide⟩
  timestamp := none
  values := [.int (-3), .float .nan, .text "1e3", .float (.finite true .zero),
    .float (.infinite true)]
  values_ne_nil := by decide

theorem ofLine_mixed : ∃ q, q.timestamp = some 1000 ∧
    ofLine "UPDATE cpu.rrd 1000:-3:U:1000.0:-0.0:-inf\n" = .ok q ∧
      List.Forall₂ Scalar.ComesBackAs mixed.values q.values := by
  let w : World := { incoming := [], clock := .fixed (.int 1000) }
  have hline : ((Client.updateLine mixed).run w).1
      = .ok "UPDATE cpu.rrd 1000:-3:U:1000.0:-0.0:-inf\n" := by
    decide +kernel
  obtain ⟨q, time, hq, -, htimestamp, htime, hvalues⟩ := ofLine_updateLine hline
  obtain ⟨hown, -⟩ | ⟨-, hlook⟩ := htime
  · cases hown
  · obtain rfl : 1000 = time := by
      have hreading := Scalar.int.inj (Except.ok.inj (Prod.ext_iff.1 hlook).1)
      omega
    exact ⟨q, htimestamp, hq, hvalues⟩

end Point

end RrdCache
