/-
RrdCache/Proofs/Escape/Request.lean

Requests whose writing escapes.  A request is checked and then written down, part by part, and
the first part that fails decides.  What escapes is always a whole number of more than 4300
digits: one that is to be written, or one that the error for a broken rule would show.
-/
import RrdCache.Proofs.Escape.Basic
import RrdCache.Proofs.Number.Rounding
import RrdCache.Proofs.Request.Template

namespace RrdCache

/-! ### Checks that never escape -/

theorem not_escapes_ofString {role value : String} :
    ¬ Escapes (Identifier.ofString role value) := by
  rw [Identifier.ofString]
  split <;> simp [Error.isPlain]

theorem not_escapes_checkIdentifier {role value : String} :
    ¬ Escapes (checkIdentifier role value) := by
  rw [checkIdentifier]
  exact mt (escapes_map _).1 not_escapes_ofString

theorem not_escapes_checkDirectory {value : String} : ¬ Escapes (checkDirectory value) := by
  rw [checkDirectory]
  split
  · simp
  split
  · simp [Error.isPlain]
  · exact not_escapes_forM fun _ _ => not_escapes_checkIdentifier

theorem escapes_require {condition : Prop} [Decidable condition] {e : Error} :
    Escapes (require condition e) ↔ ¬ condition ∧ e.isPlain := by
  rw [require]
  split <;> simp [*]

theorem require_eq_ok {condition : Prop} [Decidable condition] {e : Error} :
    require condition e = .ok () ↔ condition := by
  rw [require]
  split <;> simp [*]

/-- A number that is not too long is written. -/
theorem exists_intField {i : Int} (h : ¬ Numeral.Overlong i) : ∃ s, intField i = .ok s := by
  rw [intField, Numeral.text_of_not_overlong h]
  exact ⟨_, rfl⟩

theorem escapes_boundField {v : Scalar} : Escapes (boundField v) ↔ v.Overlong := by
  rw [boundField]
  split
  · rename_i hnull
    simp [hnull, Scalar.Overlong]
  · exact escapes_field

/-! ### Commands -/

namespace Command

/-- A command whose number is too long.  A negative one is shown by the error that refuses it,
any other one is written after the path was checked. -/
def Overlong : Command → Prop
  | first path archive =>
    Numeral.Overlong archive ∧ (archive < 0 ∨ ∃ i, Identifier.ofPath path = .ok i)
  | _ => False

theorem not_escapes_onFile {word path : String} : ¬ Escapes (onFile word path) := by
  rw [onFile, escapes_bind]
  simp [Identifier.ofPath, not_escapes_ofString]

theorem escapes_line {c : Command} : Escapes c.line ↔ c.Overlong := by
  cases c with
  | first path archive =>
    rw [line, firstLine, Overlong]
    split
    · rename_i hnegative
      rw [escapes_error, isPlain_showing]
      simp [Scalar.Overlong, hnegative, Error.isPlain]
    · rename_i hnatural
      simp [escapes_bind, escapes_intField, Identifier.ofPath, not_escapes_ofString, hnatural,
        and_comm]
  | help topic =>
    cases topic <;> simp [line, Overlong, escapes_bind, not_escapes_ofString]
  | list path recursive => simp [line, Overlong, escapes_bind, not_escapes_checkDirectory]
  | flush path | pending path | forget path | last path | info path | suspend path
  | resume path => simp [line, Overlong, not_escapes_onFile]
  | ping | stats | queue | flushAll | suspendAll | resumeAll | quit | batch | batchEnd =>
    simp [line, Overlong]

end Command

/-! ### Updates -/

namespace Point

/-- A point with a number that is too long to be written: the first value that is not written,
or, if all of them are, the time. -/
def Overlong (p : Point) (time : Nat) : Prop :=
  FirstIs (fun v => ∃ s, v.field = .ok s) Scalar.Overlong p.values ∨
    (∀ v ∈ p.values, ∃ s, v.field = .ok s) ∧ Numeral.Overlong time

theorem escapes_valuesField {values : List Scalar} :
    Escapes (valuesField values) ↔
      FirstIs (fun v => ∃ s, v.field = .ok s) Scalar.Overlong values := by
  rw [valuesField, escapes_bind, escapes_mapM]
  simp [escapes_field]

theorem exists_valuesField {values : List Scalar} :
    (∃ s, valuesField values = .ok s) ↔ ∀ v ∈ values, ∃ s, v.field = .ok s := by
  rw [← Result.exists_mapM_eq_ok]
  simp [valuesField, Result.bind_eq_ok]

theorem escapes_line {p : Point} {time : Nat} : Escapes (p.line time) ↔ p.Overlong time := by
  rw [line, escapes_bind, escapes_valuesField, Overlong, ← exists_valuesField]
  simp [escapes_bind, escapes_intField]

/-- The parts of a point whose timestamp is refused and cannot be shown. -/
def PartsOverlong (timestamp : Scalar) (values : List Scalar) : Prop :=
  values ≠ [] ∧ ∃ i : Int, timestamp = .int i ∧ i < 0 ∧ Numeral.Overlong i

theorem escapes_checkTimestamp {v : Scalar} :
    Escapes (checkTimestamp v) ↔ ∃ i : Int, v = .int i ∧ i < 0 ∧ Numeral.Overlong i := by
  cases v with
  | int i =>
    by_cases hi : 0 ≤ i
    · simp [checkTimestamp, Scalar.epoch?, hi, Int.not_lt.2 hi]
    · simp only [checkTimestamp, Scalar.epoch?, hi, if_false, escapes_error, isPlain_showing]
      simp [Scalar.Overlong, Error.isPlain, Int.not_le.1 hi]
  | null => simp [checkTimestamp]
  | bool _ | float _ | text _ | blank =>
    simp only [checkTimestamp, Scalar.epoch?, escapes_error, isPlain_showing]
    simp [Scalar.Overlong, Error.isPlain]

theorem escapes_ofParts {path : String} {timestamp : Scalar} {values : List Scalar} :
    Escapes (ofParts path timestamp values) ↔ PartsOverlong timestamp values := by
  rw [ofParts, PartsOverlong]
  split
  · rename_i hnil
    simp [hnil, Error.isPlain]
  · rename_i hne
    rw [escapes_bind, escapes_checkTimestamp, and_iff_right hne]
    simp [escapes_bind, Identifier.ofPath, not_escapes_ofString]

end Point

/-! ### New databases -/

/-- No whole number names a kind. -/
theorem SourceKind.ofScalar?_of_overlong {v : Scalar} (h : v.Overlong) : ofScalar? v = none := by
  obtain ⟨i, rfl, -⟩ := h
  rfl

/-- No whole number names a consolidation function. -/
theorem Consolidation.ofScalar?_of_overlong {v : Scalar} (h : v.Overlong) :
    ofScalar? v = none := by
  obtain ⟨i, rfl, -⟩ := h
  rfl

namespace DataSource

theorem escapes_sourceKind {d : DataSource} : Escapes d.sourceKind ↔ d.kind.Overlong := by
  refine escapes_choice (e := .series (.kind d.kind)) (fun k hk => ?_) (fun hnone => ?_)
    SourceKind.ofScalar?_of_overlong rfl
  · rw [sourceKind, hk]
  · rw [sourceKind, hnone]

theorem escapes_check {d : DataSource} : Escapes d.check ↔ d.kind.Overlong := by
  rw [check, escapes_bind, escapes_sourceKind]
  simp [escapes_bind, escapes_require, not_escapes_checkIdentifier, Error.isPlain]

/-- A data source with a number that is too long to be written. -/
def Overlong (d : DataSource) : Prop :=
  Numeral.Overlong d.heartbeat ∨ d.minimum.Overlong ∨
    (∃ s, boundField d.minimum = .ok s) ∧ d.maximum.Overlong

theorem escapes_argument {d : DataSource} (hcheck : d.check = .ok ()) :
    Escapes d.argument ↔ d.Overlong := by
  obtain ⟨kind, hkind, -⟩ := Result.bind_eq_ok.1 hcheck
  have hfields : Escapes d.argument ↔ Numeral.Overlong d.heartbeat ∨
      (∃ s, intField d.heartbeat = .ok s) ∧ (d.minimum.Overlong ∨
        (∃ s, boundField d.minimum = .ok s) ∧ d.maximum.Overlong) := by
    simp [argument, hkind, escapes_bind, escapes_intField, escapes_boundField]
  rw [hfields, Overlong]
  by_cases hlong : Numeral.Overlong d.heartbeat
  · simp [hlong]
  · simp [hlong, exists_intField hlong]

end DataSource

namespace Archive

theorem escapes_function {a : Archive} : Escapes a.function ↔ a.consolidation.Overlong := by
  refine escapes_choice (e := .series (.consolidation a.consolidation)) (fun f hf => ?_)
    (fun hnone => ?_) Consolidation.ofScalar?_of_overlong rfl
  · rw [function, hf]
  · rw [function, hnone]

theorem escapes_check {a : Archive} : Escapes a.check ↔ a.consolidation.Overlong := by
  rw [check, escapes_bind, escapes_function]
  simp [escapes_bind, escapes_require, Error.isPlain]

/-- A whole number from 0 to 1 is a finite double. -/
theorem ofInt_ne_infinite {i : Int} (h : isShare (.int i)) (negative : Bool) :
    Binary64.ofInt i ≠ .infinite negative := by
  have hle : (decide (0 * (unitsPerOne : Int) ≤ i * unitsPerOne)
      && decide (i * unitsPerOne ≤ 1 * (unitsPerOne : Int))) = true := h
  have hpos : 0 < (unitsPerOne : Int) := Int.natCast_pos.2 unitsPerOne_pos
  simp only [Bool.and_eq_true, decide_eq_true_eq] at hle
  have hlow := Int.le_of_mul_le_mul_right hle.1 hpos
  have hhigh := Int.le_of_mul_le_mul_right hle.2 hpos
  have hcases : i = 0 ∨ i = 1 := by omega
  rcases hcases with rfl | rfl <;> revert negative <;> decide +kernel

/-- A share from 0 to 1 is a double. -/
theorem exists_share {a : Archive} (h : isShare a.xfilesFactor) : ∃ x, a.share = .ok x := by
  obtain ⟨consolidation, v, steps, rows⟩ := a
  dsimp only at h
  cases v with
  | int i =>
    rw [share]
    dsimp only [Scalar.toBinary64?]
    split
    · rename_i negative _ hi
      exact absurd (Option.some.inj hi) (ofInt_ne_infinite h negative)
    · exact ⟨_, rfl⟩
    · rename_i hnone
      cases hnone
  | bool b => exact ⟨_, rfl⟩
  | float x => exact ⟨x, rfl⟩
  | null | text _ | blank => exact absurd h (by simp [isShare, Scalar.le, Scalar.place?])

/-- An archive with a number that is too long to be written. -/
def Overlong (a : Archive) : Prop :=
  Numeral.Overlong a.steps ∨ Numeral.Overlong a.rows

theorem escapes_argument {a : Archive} (hcheck : a.check = .ok ()) :
    Escapes a.argument ↔ a.Overlong := by
  obtain ⟨function, hfunction, hrest⟩ := Result.bind_eq_ok.1 hcheck
  obtain ⟨_, hshare, -⟩ := Result.bind_eq_ok.1 hrest
  obtain ⟨share, hshare⟩ := exists_share (require_eq_ok.1 hshare)
  have hfields : Escapes a.argument ↔ Numeral.Overlong a.steps ∨
      (∃ s, intField a.steps = .ok s) ∧ Numeral.Overlong a.rows := by
    simp [argument, hfunction, hshare, escapes_bind, escapes_intField]
  rw [hfields, Overlong]
  by_cases hlong : Numeral.Overlong a.steps
  · simp [hlong]
  · simp [hlong, exists_intField hlong]

end Archive

namespace Series

/-- A description of which a data source or an archive is refused for a kind or a function that
cannot be shown, everything before it being in order. -/
def CheckOverlong (s : Series) : Prop :=
  (s.dataSources ≠ [] ∧ s.archives ≠ [] ∧ 0 < s.step ∧ 0 ≤ s.start) ∧
    (FirstIs (fun d => d.check = .ok ()) (fun d => d.kind.Overlong) s.dataSources ∨
      (∀ d ∈ s.dataSources, d.check = .ok ()) ∧
        FirstIs (fun a => a.check = .ok ()) (fun a => a.consolidation.Overlong) s.archives)

theorem escapes_check {s : Series} : Escapes s.check ↔ s.CheckOverlong := by
  have hchecks : Escapes s.check ↔ s.dataSources ≠ [] ∧ s.archives ≠ [] ∧ 0 < s.step ∧
      0 ≤ s.start ∧ (Escapes (s.dataSources.forM DataSource.check) ∨
        s.dataSources.forM DataSource.check = .ok () ∧
          Escapes (s.archives.forM Archive.check)) := by
    simp [check, escapes_check_bind, escapes_require, require_eq_ok,
      not_escapes_checkIdentifier, Error.isPlain]
  rw [hchecks, escapes_forM, escapes_forM, Result.forM_eq_ok, CheckOverlong]
  simp only [DataSource.escapes_check, Archive.escapes_check, and_assoc]

/-- A description with a number that is too long to be written, or that is refused for one. -/
def Overlong (s : Series) : Prop :=
  s.CheckOverlong ∨ s.check = .ok () ∧
    (Numeral.Overlong s.step ∨ Numeral.Overlong s.start ∨
      FirstIs (fun d => ∃ t, d.argument = .ok t) DataSource.Overlong s.dataSources ∨
      (∀ d ∈ s.dataSources, ∃ t, d.argument = .ok t) ∧
        FirstIs (fun a => ∃ t, a.argument = .ok t) Archive.Overlong s.archives)

theorem escapes_line {s : Series} : Escapes s.line ↔ s.Overlong := by
  rw [line, escapes_check_bind, escapes_check, Overlong]
  refine or_congr_right (and_congr_right fun hcheck => ?_)
  obtain ⟨hsources, harchives, hpath⟩ := parts_of_check hcheck
  obtain ⟨path, hpath⟩ := checkIdentifier_eq_ok.1 hpath
  have hpath : Identifier.ofPath s.path = .ok path := Identifier.ofString_eq_ok.2 hpath
  have hall : Escapes (s.dataSources.mapM DataSource.argument) ↔
      FirstIs (fun d => ∃ t, d.argument = .ok t) DataSource.Overlong s.dataSources := by
    rw [escapes_mapM]
    exact firstIs_congr fun d hd => DataSource.escapes_argument (hsources d hd)
  have hall' : Escapes (s.archives.mapM Archive.argument) ↔
      FirstIs (fun a => ∃ t, a.argument = .ok t) Archive.Overlong s.archives := by
    rw [escapes_mapM]
    exact firstIs_congr fun a ha => Archive.escapes_argument (harchives a ha)
  rw [← hall, ← hall', ← Result.exists_mapM_eq_ok, hpath]
  -- a number that is not too long is written, and the next one is looked at
  by_cases hstep : Numeral.Overlong s.step
  · simp [escapes_bind, escapes_intField, hstep]
  obtain ⟨step, hstep'⟩ := exists_intField hstep
  by_cases hstart : Numeral.Overlong s.start
  · simp [escapes_bind, escapes_intField, hstep', hstart]
  obtain ⟨start, hstart'⟩ := exists_intField hstart
  simp [escapes_bind, hstep', hstart', hstep, hstart]

end Series

/-! ### Queries -/

namespace Query

theorem escapes_function {q : Query} : Escapes q.function ↔ q.consolidation.Overlong := by
  refine escapes_choice (e := .query (.consolidation q.consolidation)) (fun f hf => ?_)
    (fun hnone => ?_) Consolidation.ofScalar?_of_overlong rfl
  · rw [function, hf]
  · rw [function, hnone]

/-- A limit that is too long to be written. -/
def LimitOverlong (limit : Option (Slot Int)) : Prop :=
  ∃ i, limit = some (.given i) ∧ Numeral.Overlong i

/-- A query with a limit that is too long to be written, or whose consolidation function is
refused and cannot be shown. -/
def Overlong (q : Query) : Prop :=
  (∃ i, Identifier.ofPath q.path = .ok i) ∧
    (q.consolidation.Overlong ∨
      (∃ f, q.function = .ok f) ∧ q.checkRange = .ok () ∧
        (∀ name ∈ q.columns.getD [], checkIdentifier "column" name = .ok ()) ∧
          (LimitOverlong q.start ∨ LimitOverlong q.finish))

theorem escapes_limitField {limit : Slot Int} :
    Escapes (limitField limit) ↔ LimitOverlong (some limit) := by
  cases limit with
  | given i =>
    show Escapes (intField i) ↔ _
    simp [escapes_intField, LimitOverlong]
  | blank => simp [limitField, LimitOverlong]

theorem exists_limitField {limit : Slot Int} (h : ¬ LimitOverlong (some limit)) :
    ∃ s, limitField limit = .ok s := by
  cases limit with
  | given i => exact exists_intField fun hi => h ⟨i, rfl, hi⟩
  | blank => exact ⟨_, rfl⟩

theorem escapes_rangeFields {q : Query} (hrange : q.checkRange = .ok ()) :
    Escapes q.rangeFields ↔ LimitOverlong q.start ∨ LimitOverlong q.finish := by
  have hnone : ¬ LimitOverlong none := by simp [LimitOverlong]
  rw [checkRange] at hrange
  rw [rangeFields]
  rcases hstart : q.start with - | start
  · have hfinish : q.finish = none := by
      rcases hfinish : q.finish with - | finish
      · rfl
      · simp [hstart, hfinish] at hrange
    simp [hfinish, hnone]
  rcases hfinish : q.finish with - | finish
  · simp [escapes_bind, escapes_limitField, hnone]
  · simp only [escapes_bind, escapes_limitField, not_escapes_ok, and_false, exists_false, or_false]
    by_cases hlong : LimitOverlong (some start)
    · simp [hlong]
    · simp [hlong, exists_limitField hlong]

theorem escapes_line {q : Query} : Escapes q.line ↔ q.Overlong := by
  have hcolumns : ¬ Escapes ((q.columns.getD []).forM (checkIdentifier "column")) :=
    not_escapes_forM fun _ _ => not_escapes_checkIdentifier
  have hrange : ¬ Escapes q.checkRange := by
    rw [checkRange]
    split
    · simp [Error.isPlain]
    split <;> simp [Error.isPlain]
  have hpath : ¬ Escapes (Identifier.ofPath q.path) := not_escapes_ofString
  have hfields : Escapes q.line ↔ (∃ path, Identifier.ofPath q.path = .ok path) ∧
      (q.consolidation.Overlong ∨ (∃ f, q.function = .ok f) ∧ q.checkRange = .ok () ∧
        (q.columns.getD []).forM (checkIdentifier "column") = .ok () ∧
          Escapes q.rangeFields) := by
    simp only [line, escapes_bind, escapes_function, hpath, hcolumns, hrange, false_or,
      not_escapes_ok, and_false, exists_false, or_false, exists_and_right,
      Unique.exists_iff]
  rw [hfields, Result.forM_eq_ok, Overlong]
  refine and_congr_right fun _ => or_congr_right (and_congr_right fun _ => ?_)
  exact and_congr_right fun hrange => by rw [escapes_rangeFields hrange]

end Query

/-! ### Requests -/

namespace Request

/-- A request with a number that is too long. -/
def Overlong : Request → Prop
  | command c => c.Overlong
  | update point time => point.Overlong time
  | create series => series.Overlong
  | fetch query => query.Overlong

theorem escapes_line {r : Request} : Escapes r.line ↔ r.Overlong := by
  cases r with
  | command c => exact Command.escapes_line
  | update point time => exact Point.escapes_line
  | create series => exact Series.escapes_line
  | fetch query => exact Query.escapes_line

end Request

end RrdCache
