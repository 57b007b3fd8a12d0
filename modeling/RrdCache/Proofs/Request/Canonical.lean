/-
RrdCache/Proofs/Request/Canonical.lean

Reading an update and writing it down again gives it one spelling.  The reader takes many
spellings: digits of every script, leading zeros, signs, underscores, blanks around numbers,
words in any case.  Whatever line it takes, what it makes of the line can be written: the
time and every whole number come from 4300 digits at most, and a number of that many digits is
never too long.  What is written is plain ASCII, and reads as the same point.

Main result (`Point.ofLine_canonical`): the line that is written for a point that was read is
the `Canonical` one.
-/
import RrdCache.Proofs.Request.Normal

namespace RrdCache

/-! ### Digits that were read -/

namespace Numeral

/-- The value of digits is below the power of ten with as many zeros. -/
theorem natOfDigits_lt {digits : List Char} (h : ∀ c ∈ digits, c.isDigit) :
    natOfDigits digits < 10 ^ digits.length := by
  induction digits with
  | nil => decide
  | cons c digits ih =>
    obtain ⟨hc, hdigits⟩ := List.forall_mem_cons.1 h
    have hlater := ih hdigits
    have hdigit : c.toNat - '0'.toNat ≤ 9 := Nat.sub_le_of_le_add (isDigit_iff.1 hc).2
    have hvalue : natOfDigits (c :: digits)
        = 10 ^ digits.length * (c.toNat - '0'.toNat) + natOfDigits digits := by
      rw [natOfDigits, Nat.ofDigitChars_cons, Nat.ofDigitChars_eq_ofDigitChars_zero,
        Nat.mul_zero, Nat.zero_add, natOfDigits]
    calc natOfDigits (c :: digits)
        = 10 ^ digits.length * (c.toNat - '0'.toNat) + natOfDigits digits := hvalue
      _ < 10 ^ digits.length * 9 + 10 ^ digits.length :=
        Nat.add_lt_add_of_le_of_lt (Nat.mul_le_mul_left _ hdigit) hlater
      _ = 10 ^ (c :: digits).length := by rw [List.length_cons, Nat.pow_succ]; omega

/-- What was read from digits is not too long to be written. -/
theorem not_overlong_of_value {digits : List Char} {n : Nat} (hdigits : ∀ c ∈ digits, c.isDigit)
    (h : value digits = .ok n) : ¬ Overlong n := by
  -- the limit is a variable here, so that its power of ten is not computed
  have hlimit : ∀ k, digits.length ≤ k → natOfDigits digits < Nat.pow 10 k := fun k hk =>
    Nat.lt_of_lt_of_le (natOfDigits_lt hdigits) (Nat.pow_le_pow_right (by decide) hk)
  rw [value] at h
  split at h
  · cases h
  · rename_i hlength
    obtain rfl := Except.ok.inj h
    rw [Overlong, Int.natAbs_natCast, Nat.not_le]
    exact hlimit _ (Nat.not_lt.1 hlength)

end Numeral

/-- What is left of a list that is cut at a member is the list without it. -/
theorem flatten_splitOn {α : Type} [DecidableEq α] (a : α) (xs : List α) :
    (xs.splitOn a).flatten = xs.filter (· ≠ a) := by
  induction xs with
  | nil => rfl
  | cons x xs ih =>
    rw [List.splitOn_cons_eq_if_modifyHead, List.filter_cons, ← ih]
    by_cases hx : x = a
    · simp [hx]
    · obtain ⟨first, later, hsplit⟩ := List.exists_cons_of_ne_nil (List.splitOn_ne_nil a xs)
      simp [hx, hsplit]

namespace Numeral

theorem ungroup?_isDigit {s digits : List Char} (hs : ∀ c ∈ s, (c.isDigit || c == '_') = true)
    (h : ungroup? s = some digits) : ∀ c ∈ digits, c.isDigit := by
  rw [ungroup?] at h
  split at h
  · cases h
  · obtain rfl := Option.some.inj h
    intro c hc
    rw [flatten_splitOn, List.mem_filter, decide_eq_true_iff] at hc
    have hpart := hs c hc.1
    rw [Bool.or_eq_true, beq_iff_eq] at hpart
    exact hpart.resolve_right hc.2

theorem natAbs_signed (negative : Bool) (n : Nat) : (signed negative n).natAbs = n := by
  cases negative <;> simp [signed]

/-- A whole number that was read is not too long to be written. -/
theorem not_overlong_of_ofText {s : List Char} {i : Int} (h : ofText s = .ok i) :
    ¬ Overlong i := by
  rw [ofText] at h
  dsimp only at h
  split at h
  · cases h
  rename_i digits hdigits
  split at h
  · cases h
  rename_i n hn
  split at h
  · obtain rfl := Except.ok.inj h
    have hshort := not_overlong_of_value (ungroup?_isDigit
      (fun c hc => List.mem_takeWhile_imp (p := fun c => c.isDigit || c == '_') hc) hdigits) hn
    rw [Overlong, Int.natAbs_natCast] at hshort
    rwa [Overlong, natAbs_signed]
  · cases h

end Numeral

/-- A decimal digit of any script is folded to one of ASCII. -/
theorem isDigit_foldDigit {c : Char} (h : isDecimalDigit c) : (foldDigit c).isDigit := by
  obtain ⟨d, hd⟩ := Option.isSome_iff_exists.1 h
  rw [foldDigit, hd]
  obtain ⟨offset, -, rfl⟩ := Option.map_eq_some_iff.1 hd
  dsimp only
  rw [Nat.isDigit_digitChar]
  exact decide_eq_true (Nat.mod_lt _ (by decide))

/-- A line of tokens is ASCII. -/
theorem IsLineOf.ascii {tokens : List String} {line : String} (h : IsLineOf tokens line) :
    ∀ b ∈ line.toUTF8.data.toList, b < 128 := by
  obtain ⟨rfl, htokens⟩ := h
  obtain ⟨body, hbytes, hbody⟩ := tokenLine_bytes htokens
  rw [hbytes]
  intro b hb
  rcases List.mem_append.1 hb with hb | hb
  · exact UInt8.lt_of_le_of_lt (hbody b hb).2 (by decide)
  · rw [List.mem_singleton.1 hb]
    decide

/-! ### Points that were read -/

/-- A number that can be written: a whole number that is not too long, or a double. -/
inductive Scalar.IsWritable : Scalar → Prop
  | int {i : Int} (short : ¬ Numeral.Overlong i) : IsWritable (.int i)
  | float (x : Binary64) : IsWritable (.float x)

namespace Scalar

theorem IsWritable.exists_field {v : Scalar} (h : v.IsWritable) : ∃ s, v.field = .ok s := by
  cases h with
  | int short => exact ⟨_, intField_eq_ok.2 ⟨short, rfl⟩⟩
  | float x => exact ⟨_, rfl⟩

theorem IsWritable.asNumber_eq {v : Scalar} (h : v.IsWritable) : v.asNumber = v := by
  cases h <;> rfl

end Scalar

namespace Point

theorem isWritable_of_value? {token : List Char} {v : Scalar} (h : value? token = some v) :
    v.IsWritable := by
  rw [value?] at h
  split at h
  · obtain rfl := Option.some.inj h
    exact .float _
  split at h
  · obtain ⟨i, hi, rfl⟩ := Option.map_eq_some_iff.1 h
    rcases htext : Numeral.ofText token with e | j
    · rw [htext] at hi
      cases hi
    · rw [htext] at hi
      obtain rfl := Option.some.inj hi
      exact .int (Numeral.not_overlong_of_ofText htext)
  · obtain ⟨x, -, rfl⟩ := Option.map_eq_some_iff.1 h
    exact .float x

theorem isWritable_of_readValue {line : String} {token : List Char} {v : Scalar}
    (h : readValue line token = .ok v) : v.IsWritable := by
  rw [readValue] at h
  split at h
  · rename_i u hu
    obtain rfl := Except.ok.inj h
    exact isWritable_of_value? hu
  · cases h

theorem isWritable_of_readValues {line : String} {tokens : List (List Char)}
    {values : List Scalar} (h : tokens.mapM (readValue line) = .ok values) :
    ∀ v ∈ values, v.IsWritable := by
  have hvalues := Result.mapM_eq_ok.1 h
  clear h
  -- along the tokens, each with the value that it was read as
  induction hvalues with
  | nil => exact fun v hv => absurd hv List.not_mem_nil
  | cons hfirst _ ih => exact List.forall_mem_cons.2 ⟨isWritable_of_readValue hfirst, ih⟩

/-- A point of which everything can be written, its time included. -/
structure IsWritable (p : Point) (time : Nat) : Prop where
  timestamp : p.timestamp = some time
  time_short : ¬ Numeral.Overlong time
  values : ∀ v ∈ p.values, v.IsWritable

/-- The time of a line of the right shape is digits. -/
theorem isDecimalDigit_of_split? {line path timestamp values : List Char}
    (h : split? line = some (path, timestamp, values)) : ∀ c ∈ timestamp, isDecimalDigit c := by
  simp only [split?, Option.bind_eq_bind, Option.bind_eq_some_iff] at h
  obtain ⟨rest, -, ⟨file, rest⟩, -, path, -, h⟩ := h
  split at h
  · cases h
  simp only [Option.bind_eq_some_iff] at h
  obtain ⟨rest, -, ⟨digits, rest⟩, hdigits, rest, -, ⟨tokens, rest⟩, -, h⟩ := h
  dsimp only at h
  split at h
  · cases h
    exact (Scan.run?_eq_some_iff.1 hdigits).2.2.1
  · cases h

/-- What passes the checks with a time has that time and the values it was given. -/
theorem of_ofParts {path : String} {time : Nat} {values : List Scalar} {p : Point}
    (h : ofParts path (.int time) values = .ok p) :
    p.timestamp = some time ∧ p.values = values := by
  have htime : checkTimestamp (.int time) = .ok (some time) := by
    simp [checkTimestamp, Scalar.epoch?]
  rw [ofParts] at h
  split at h
  · cases h
  rw [htime] at h
  obtain ⟨checked, hchecked, h⟩ := Result.bind_eq_ok.1 h
  obtain rfl := Except.ok.inj hchecked
  obtain ⟨path, -, h⟩ := Result.bind_eq_ok.1 h
  obtain rfl := Except.ok.inj h
  exact ⟨rfl, rfl⟩

/-- Whatever was read can be written. -/
theorem isWritable_of_ofLine {line : String} {p : Point} (h : ofLine line = .ok p) :
    ∃ time, p.IsWritable time := by
  rw [ofLine] at h
  split at h
  · cases h
  rename_i path timestamp tokens hsplit
  obtain ⟨values, hvalues, h⟩ := Result.bind_eq_ok.1 h
  obtain ⟨time, htime, h⟩ := Result.bind_eq_ok.1 h
  obtain ⟨htimestamp, rfl⟩ := of_ofParts h
  refine ⟨time, htimestamp, ?_, isWritable_of_readValues hvalues⟩
  refine Numeral.not_overlong_of_value ?_ (Result.liftNumeral_eq_ok.1 htime)
  intro c hc
  obtain ⟨d, hd, rfl⟩ := List.mem_map.1 hc
  exact isDigit_foldDigit (isDecimalDigit_of_split? hsplit d hd)

/-- A line that says what a point is, and that is written for what it says. -/
structure Canonical (p : Point) (line : String) : Prop where
  /-- Whatever the surroundings are, it is written down without doing anything in them. -/
  written : ∀ w, (Client.updateLine p).run w = (.ok line, w) ∧ (Client.updateLine p).trace w = []
  ascii : ∀ b ∈ line.toUTF8.data.toList, b < 128
  reads : ofLine line = .ok p
  /-- Reading it and writing down what was read gives it again. -/
  stable : ∀ q, ofLine line = .ok q → ∀ w, (Client.updateLine q).run w = (.ok line, w)

/-- A point with a time is written down without looking at the clock. -/
theorem updateLine_eq {p : Point} {time : Nat} (h : p.timestamp = some time) :
    Client.updateLine p = .ofExcept (p.line time) := by
  rw [Client.updateLine, Client.timeOf, h]
  rfl

theorem IsWritable.canonical {p : Point} {time : Nat} (h : p.IsWritable time) :
    ∃ line, p.Canonical line := by
  -- everything is short enough to be written
  obtain ⟨fields, hfields⟩ := Result.exists_mapM_eq_ok.2 fun v hv => (h.values v hv).exists_field
  have hline : p.line time = .ok _ :=
    Result.bind_eq_ok.2 ⟨_, Result.bind_eq_ok.2 ⟨fields, hfields, rfl⟩,
      Result.bind_eq_ok.2 ⟨_, intField_eq_ok.2 ⟨h.time_short, rfl⟩, rfl⟩⟩
  -- what is read back has every part of the point
  obtain ⟨q, hread, hpath, htimestamp, hvalues⟩ := ofLine_line hline
  have hsame : q.values = p.values :=
    calc q.values = p.values.map Scalar.asNumber := Scalar.eq_map_asNumber hvalues
      _ = p.values.map id := List.map_congr_left fun v hv => (h.values v hv).asNumber_eq
      _ = p.values := List.map_id _
  obtain rfl : q = p :=
    Point.mk.injEq .. ▸ ⟨hpath, htimestamp.trans h.timestamp.symm, hsame⟩
  have hwritten : ∀ w, (Client.updateLine q).run w = (.ok _, w) := fun w => by
    rw [updateLine_eq h.timestamp, hline, Dialogue.run_ofExcept]
  exact ⟨_, {
    written := fun w => ⟨hwritten w, by rw [updateLine_eq h.timestamp]; rfl⟩
    ascii := (line_eq hline).ascii
    reads := hread
    stable := fun p hp w => by
      obtain rfl := Except.ok.inj (hread.symm.trans hp)
      exact hwritten w }⟩

/-- Every line that is read has a canonical one, which says the same. -/
theorem ofLine_canonical {line : String} {p : Point} (h : ofLine line = .ok p) :
    ∃ normal, p.Canonical normal := by
  obtain ⟨time, hp⟩ := isWritable_of_ofLine h
  exact hp.canonical

/-- Digits of another script, a negative zero, an underscore, a tabulator and words. -/
theorem ofLine_canonical_foreign : ∃ p,
    ofLine "UPDATE cpu.rrd ١٠:-0:1_000:\tInfinity:NaN\n" = .ok p ∧
      p.Canonical "UPDATE cpu.rrd 10:0:1000.0:inf:U\n" := by
  let w : World := { incoming := [], clock := .fixed .null }
  have hboth : (ofLine "UPDATE cpu.rrd ١٠:-0:1_000:\tInfinity:NaN\n" >>= fun p =>
      ((Client.updateLine p).run w).1) = .ok "UPDATE cpu.rrd 10:0:1000.0:inf:U\n" := by
    decide +kernel
  obtain ⟨p, hp, hline⟩ := Result.bind_eq_ok.1 hboth
  obtain ⟨normal, hnormal⟩ := ofLine_canonical hp
  rw [(hnormal.written w).1] at hline
  obtain rfl := Except.ok.inj hline
  exact ⟨p, hp, hnormal⟩

end Point

end RrdCache
