/-
RrdCache/Proofs/Request/Rules.lean

What a description of a database and a query have to satisfy, as lists of rules.  A `Rule` is
what must hold and the error if it does not.  A check follows a list of rules if it succeeds
where all of them hold, and otherwise has the error of the first one that is broken.  Each way
of putting checks together puts their rules together in the same order, so that the rules of
a request are read off the rules of its parts.

Main result (`requests_validated`): the line of a description and that of a query follow the
rules, and nothing else keeps them from being written; in a line that was written, the bounds
of a data source are in order.
-/
import RrdCache.Proofs.Escape.Request
import RrdCache.Proofs.Number.Order
import RrdCache.Proofs.Request.Unambiguous

namespace RrdCache

/-! ### Rules -/

/-- What must hold, and the error if it does not. -/
structure Rule where
  holds : Prop
  error : Error

/-- The first rule that is broken has this error. -/
def FirstBroken (rules : List Rule) (e : Error) : Prop :=
  FirstIs Rule.holds (fun r => ¬ r.holds ∧ r.error = e) rules

/-- A check that fails exactly for the first broken rule. -/
def Follows {α : Type} (check : Except Error α) (rules : List Rule) : Prop :=
  ∀ e, check = .error e ↔ FirstBroken rules e

section Laws

variable {α β : Type} {x : Except Error α} {f : α → Except Error β} {rules rules' : List Rule}

theorem firstBroken_cons {r : Rule} {e : Error} :
    FirstBroken (r :: rules) e ↔
      (¬ r.holds ∧ r.error = e) ∨ (r.holds ∧ FirstBroken rules e) :=
  firstIs_cons

theorem firstBroken_append {e : Error} :
    FirstBroken (rules ++ rules') e ↔
      FirstBroken rules e ∨ ((∀ r ∈ rules, r.holds) ∧ FirstBroken rules' e) := by
  induction rules with
  | nil => simp [FirstBroken, firstIs_nil]
  | cons r rules ih =>
    rw [List.cons_append, firstBroken_cons, firstBroken_cons, ih, List.forall_mem_cons]
    tauto

/-- A rule is broken if not all hold. -/
theorem exists_firstBroken : (∃ e, FirstBroken rules e) ↔ ¬ ∀ r ∈ rules, r.holds := by
  induction rules with
  | nil => simp [FirstBroken, firstIs_nil]
  | cons r rules ih =>
    simp only [firstBroken_cons, List.forall_mem_cons, exists_or, exists_and_left, exists_eq', ih]
    tauto

namespace Follows

/-- A check that follows rules succeeds if all of them hold. -/
theorem isOk_iff (h : Follows x rules) : (∃ a, x = .ok a) ↔ ∀ r ∈ rules, r.holds := by
  rw [← not_iff_not, ← exists_firstBroken]
  cases x with
  | error e => exact iff_of_true (by simp) ⟨e, (h e).1 rfl⟩
  | ok a =>
    refine iff_of_false (not_not.2 ⟨a, rfl⟩) ?_
    rintro ⟨e, he⟩
    cases (h e).2 he

theorem of_isOk (h : ∃ a, x = .ok a) : Follows x [] := by
  obtain ⟨a, rfl⟩ := h
  intro e
  simp [FirstBroken, firstIs_nil]

/-- A chain of checks follows the rules of the first, and then those of the second. -/
theorem bind (hx : Follows x rules) (hf : ∀ a, x = .ok a → Follows (f a) rules') :
    Follows (x >>= f) (rules ++ rules') := by
  intro e
  rw [firstBroken_append, ← hx e, ← hx.isOk_iff]
  cases x with
  | error e' =>
    show Except.error e' = .error e ↔ _
    simp
  | ok a =>
    show f a = .error e ↔ _
    simp [hf a rfl e]

/-- The same where the second check does not depend on what the first one gives. -/
theorem seq {y : Except Error β} (hx : Follows x rules) (hy : Follows y rules') :
    Follows (x >>= fun _ => y) (rules ++ rules') :=
  hx.bind fun _ _ => hy

/-- What cannot fail after a check adds no rule. -/
theorem bind_isOk (hx : Follows x rules) (hf : ∀ a, x = .ok a → ∃ b, f a = .ok b) :
    Follows (x >>= f) rules := by
  have h := hx.bind fun a ha => of_isOk (hf a ha)
  rwa [List.append_nil] at h

theorem require {condition holds : Prop} [Decidable condition] {e : Error}
    (h : condition ↔ holds) : Follows (require condition e) [⟨holds, e⟩] := by
  intro e'
  rw [firstBroken_cons, RrdCache.require]
  by_cases hc : condition
  · simp [hc, ← h, FirstBroken, firstIs_nil]
  · simp [hc, ← h]

theorem require_self (condition : Prop) [Decidable condition] (e : Error) :
    Follows (RrdCache.require condition e) [⟨condition, e⟩] :=
  require Iff.rfl

/-- A list is checked member by member. -/
theorem forM {g : β → Except Error Unit} {rulesOf : β → List Rule} {xs : List β}
    (h : ∀ a ∈ xs, Follows (g a) (rulesOf a)) : Follows (xs.forM g) (xs.flatMap rulesOf) := by
  induction xs with
  | nil => exact of_isOk ⟨(), rfl⟩
  | cons a xs ih =>
    obtain ⟨ha, hxs⟩ := List.forall_mem_cons.1 h
    exact ha.bind fun _ _ => ih hxs

/-- What succeeds wherever a check does, and otherwise fails with the check, follows the rules
of the check. -/
theorem of_check {y : Except Error β} (hx : Follows x rules)
    (hok : ∀ a, x = .ok a → ∃ b, y = .ok b) (herror : ∀ e, x = .error e → y = .error e) :
    Follows y rules := by
  intro e
  rw [← hx e]
  cases hcheck : x with
  | error e' => rw [herror e' hcheck]; simp
  | ok a =>
    obtain ⟨b, hb⟩ := hok a hcheck
    simp [hb]

end Follows

end Laws

/-! ### Identifiers -/

/-- The rules for an identifier: its length, and then its characters. -/
def identifierRules (role value : String) : List Rule :=
  [⟨1 ≤ value.toList.length ∧ value.toList.length ≤ identifierLimit,
      .identifier role value .length⟩,
    ⟨∀ c ∈ value.toList, isIdentifierChar c, .identifier role value .alphabet⟩]

theorem identifierProblem?_of_length {value : String}
    (h : ¬ (1 ≤ value.toList.length ∧ value.toList.length ≤ identifierLimit)) :
    identifierProblem? value = some .length := by
  have hlength : value.toList.isEmpty ∨ identifierLimit < value.toList.length := by
    rw [List.isEmpty_iff, ← List.length_eq_zero_iff]
    omega
  rw [identifierProblem?, if_pos hlength]

/-- A text that is neither too short nor too long may have a problem with its characters. -/
theorem identifierProblem?_of_alphabet {value : String}
    (h : 1 ≤ value.toList.length ∧ value.toList.length ≤ identifierLimit) :
    identifierProblem? value = none ∧ (∀ c ∈ value.toList, isIdentifierChar c) ∨
      identifierProblem? value = some .alphabet ∧ ¬ ∀ c ∈ value.toList, isIdentifierChar c := by
  have hlength : ¬ (value.toList.isEmpty ∨ identifierLimit < value.toList.length) := by
    rw [List.isEmpty_iff, ← List.length_eq_zero_iff]
    omega
  rw [identifierProblem?, if_neg hlength, ← List.all_eq_true]
  cases value.toList.all isIdentifierChar
  · exact .inr ⟨rfl, Bool.false_ne_true⟩
  · exact .inl ⟨rfl, rfl⟩

theorem Identifier.ofString_of_problem {role value : String} {problem : IdentifierProblem}
    (h : identifierProblem? value = some problem) :
    ofString role value = .error (.identifier role value problem) := by
  rw [ofString]
  split
  · rename_i hnone
    cases h.symm.trans hnone
  · rename_i problem' hproblem
    rw [Option.some.inj (h.symm.trans hproblem)]

theorem follows_identifier (role value : String) :
    Follows (Identifier.ofString role value) (identifierRules role value) := by
  intro e
  rw [identifierRules, firstBroken_cons, firstBroken_cons]
  by_cases hlength : 1 ≤ value.toList.length ∧ value.toList.length ≤ identifierLimit
  · obtain ⟨hproblem, hchars⟩ | ⟨hproblem, hchars⟩ := identifierProblem?_of_alphabet hlength
    · have hok : Identifier.ofString role value = .ok ⟨value, hproblem⟩ :=
        Identifier.ofString_eq_ok.2 rfl
      refine iff_of_false (by simp [hok]) ?_
      rintro (⟨h, -⟩ | ⟨-, ⟨h, -⟩ | ⟨-, h⟩⟩)
      · exact h hlength
      · exact h hchars
      · exact firstIs_nil h
    · rw [Identifier.ofString_of_problem hproblem]
      simp [hlength, hchars]
  · rw [Identifier.ofString_of_problem (identifierProblem?_of_length hlength)]
    simp [hlength]

theorem follows_checkIdentifier (role value : String) :
    Follows (checkIdentifier role value) (identifierRules role value) := by
  intro e
  rw [← follows_identifier role value e, checkIdentifier]
  cases Identifier.ofString role value <;> simp [Except.map]

/-! ### Words -/

/-- A value that can be shown is shown. -/
theorem Error.showing_eq {v : Scalar} (h : ¬ v.Overlong) (e : Error) : showing v e = e := by
  cases v with
  | int i =>
    have hi : ¬ Numeral.Overlong i := fun hi => h ⟨i, rfl, hi⟩
    rw [showing, Scalar.shown?, Numeral.text_of_not_overlong hi]
  | null | bool _ | float _ | text _ | blank => rfl

/-- A choice that a value makes, or the error that shows the value. -/
theorem follows_choice {α : Type} {choice : Option α} {r : Except Error α} {v : Scalar}
    {holds : Prop} {e : Error} (hsome : ∀ a, choice = some a → r = .ok a)
    (hnone : choice = none → r = .error (.showing v e)) (hholds : (∃ a, choice = some a) ↔ holds)
    (hshort : ¬ v.Overlong) : Follows r [⟨holds, e⟩] := by
  intro e'
  rw [firstBroken_cons, ← hholds]
  cases choice with
  | some a => simp [hsome a rfl, FirstBroken, firstIs_nil]
  | none => simp [hnone rfl, Error.showing_eq hshort]

theorem SourceKind.exists_ofScalar? {v : Scalar} :
    (∃ k, ofScalar? v = some k) ↔ ∃ k : SourceKind, v = .text k.word := by
  constructor
  · rintro ⟨k, hk⟩
    exact ⟨k, eq_of_ofScalar? hk⟩
  · rintro ⟨k, rfl⟩
    exact ⟨k, by cases k <;> decide⟩

theorem Consolidation.exists_ofScalar? {v : Scalar} :
    (∃ f, ofScalar? v = some f) ↔ ∃ f : Consolidation, v = .text f.word := by
  constructor
  · rintro ⟨f, hf⟩
    exact ⟨f, eq_of_ofScalar? hf⟩
  · rintro ⟨f, rfl⟩
    exact ⟨f, by cases f <;> decide⟩

/-! ### New databases -/

/-- A number that can be written. -/
def Scalar.IsShortNumber (v : Scalar) : Prop :=
  v.IsNumber ∧ ¬ v.Overlong

namespace DataSource

/-- The types of a data source are those that are declared: bounds are numbers or left out. -/
structure IsDeclared (d : DataSource) : Prop where
  heartbeat : ¬ Numeral.Overlong d.heartbeat
  kind : ¬ d.kind.Overlong
  minimum : d.minimum = .null ∨ d.minimum.IsShortNumber
  maximum : d.maximum = .null ∨ d.maximum.IsShortNumber

/-- The rules for a data source. -/
def rules (d : DataSource) : List Rule :=
  [⟨∃ k : SourceKind, d.kind = .text k.word, .series (.kind d.kind)⟩,
    ⟨0 < d.heartbeat, .series .heartbeat⟩,
    ⟨¬ ∃ low high, d.minimum.number? = some low ∧ d.maximum.number? = some high ∧ high ≤ low,
      .series .bounds⟩]
    ++ identifierRules "data source name" d.name

variable {d : DataSource}

theorem boundsCross_iff (hd : d.IsDeclared) :
    d.boundsCross = true ↔ ∃ low high, d.minimum.number? = some low ∧
      d.maximum.number? = some high ∧ high ≤ low := by
  rw [boundsCross]
  rcases hd.minimum with hmin | ⟨hmin, -⟩
  · simp [hmin, Scalar.number?]
  rcases hd.maximum with hmax | ⟨hmax, -⟩
  · simp [hmax, Scalar.number?]
  have hne : d.minimum ≠ .null ∧ d.maximum ≠ .null := by
    constructor <;> intro h
    · rw [h] at hmin; exact hmin
    · rw [h] at hmax; exact hmax
  have hgiven : d.boundsCross = d.maximum.le d.minimum := by
    simp [boundsCross, hne]
  rw [← boundsCross, hgiven, Scalar.le_iff hmax hmin]
  constructor
  · rintro ⟨high, low, hhigh, hlow, hle⟩
    exact ⟨low, high, hlow, hhigh, hle⟩
  · rintro ⟨low, high, hlow, hhigh, hle⟩
    exact ⟨high, low, hhigh, hlow, hle⟩

theorem follows_check (hd : d.IsDeclared) : Follows d.check d.rules := by
  have hkind : Follows d.sourceKind [⟨∃ k : SourceKind, d.kind = .text k.word,
      .series (.kind d.kind)⟩] := by
    refine follows_choice (fun k hk => ?_) (fun hnone => ?_) SourceKind.exists_ofScalar? hd.kind
    · rw [sourceKind, hk]
    · rw [sourceKind, hnone]
  have hheartbeat := Follows.require_self (0 < d.heartbeat) (.series .heartbeat)
  have huncrossed : d.boundsCross = false ↔ ¬ ∃ low high, d.minimum.number? = some low ∧
      d.maximum.number? = some high ∧ high ≤ low := by
    rw [← boundsCross_iff hd, Bool.not_eq_true]
  have hbounds := Follows.require (e := .series .bounds) huncrossed
  have hname := follows_checkIdentifier "data source name" d.name
  exact hkind.seq (hheartbeat.seq (hbounds.seq hname))

theorem exists_boundField {v : Scalar} (h : v = .null ∨ v.IsShortNumber) :
    ∃ s, boundField v = .ok s := by
  rw [boundField]
  split
  · exact ⟨_, rfl⟩
  · obtain ⟨hnumber, hshort⟩ := h.resolve_left ‹_›
    cases v with
    | int i => exact exists_intField fun hi => hshort ⟨i, rfl, hi⟩
    | float x => exact ⟨_, rfl⟩
    | null | bool _ | text _ | blank => cases hnumber

/-- A data source that satisfies its rules is written. -/
theorem exists_argument (hd : d.IsDeclared) (hcheck : d.check = .ok ()) :
    ∃ s, d.argument = .ok s := by
  obtain ⟨kind, hkind, -⟩ := Result.bind_eq_ok.1 hcheck
  obtain ⟨heartbeat, hheartbeat⟩ := exists_intField hd.heartbeat
  obtain ⟨minimum, hminimum⟩ := exists_boundField hd.minimum
  obtain ⟨maximum, hmaximum⟩ := exists_boundField hd.maximum
  rw [argument, hkind, hheartbeat, hminimum, hmaximum]
  exact ⟨_, rfl⟩

end DataSource

namespace Archive

/-- The types of an archive are those that are declared. -/
structure IsDeclared (a : Archive) : Prop where
  consolidation : ¬ a.consolidation.Overlong
  xfilesFactor : a.xfilesFactor.IsNumber
  steps : ¬ Numeral.Overlong a.steps
  rows : ¬ Numeral.Overlong a.rows

/-- The rules for an archive. -/
def rules (a : Archive) : List Rule :=
  [⟨∃ f : Consolidation, a.consolidation = .text f.word, .series (.consolidation a.consolidation)⟩,
    ⟨∃ share, a.xfilesFactor.number? = some share ∧ .ofRat 0 ≤ share ∧ share ≤ .ofRat 1,
      .series .xfilesFactor⟩,
    ⟨0 < a.steps, .series .steps⟩,
    ⟨0 < a.rows, .series .rows⟩]

variable {a : Archive}

theorem isShare_iff {v : Scalar} (hv : v.IsNumber) :
    isShare v = true ↔
      ∃ share, v.number? = some share ∧ .ofRat 0 ≤ share ∧ share ≤ .ofRat 1 := by
  have hint : ∀ i : Int, (Scalar.int i).IsNumber := fun _ => trivial
  rw [isShare, Bool.and_eq_true, Scalar.le_iff (hint 0) hv, Scalar.le_iff hv (hint 1)]
  rcases v.number? with - | share
  · simp
  · simp [Scalar.number?]

theorem follows_check (ha : a.IsDeclared) : Follows a.check a.rules := by
  have hfunction : Follows a.function [⟨∃ f : Consolidation, a.consolidation = .text f.word,
      .series (.consolidation a.consolidation)⟩] := by
    refine follows_choice (fun f hf => ?_) (fun hnone => ?_) Consolidation.exists_ofScalar?
      ha.consolidation
    · rw [function, hf]
    · rw [function, hnone]
  have hshare := Follows.require (e := .series .xfilesFactor) (isShare_iff ha.xfilesFactor)
  have hsteps := Follows.require_self (0 < a.steps) (.series .steps)
  have hrows := Follows.require_self (0 < a.rows) (.series .rows)
  exact hfunction.seq (hshare.seq (hsteps.seq hrows))

/-- An archive that satisfies its rules is written. -/
theorem exists_argument (ha : a.IsDeclared) (hcheck : a.check = .ok ()) :
    ∃ s, a.argument = .ok s := by
  obtain ⟨function, hfunction, hrest⟩ := Result.bind_eq_ok.1 hcheck
  obtain ⟨_, hshare, -⟩ := Result.bind_eq_ok.1 hrest
  obtain ⟨share, hshare⟩ := exists_share (require_eq_ok.1 hshare)
  obtain ⟨steps, hsteps⟩ := exists_intField ha.steps
  obtain ⟨rows, hrows⟩ := exists_intField ha.rows
  rw [argument, hfunction, hshare, hsteps, hrows]
  exact ⟨_, rfl⟩

end Archive

namespace Series

/-- The types of a description are those that are declared. -/
structure IsDeclared (s : Series) : Prop where
  dataSources : ∀ d ∈ s.dataSources, d.IsDeclared
  archives : ∀ a ∈ s.archives, a.IsDeclared
  start : ¬ Numeral.Overlong s.start
  step : ¬ Numeral.Overlong s.step

/-- The rules for a new database, in the order in which they are checked. -/
def rules (s : Series) : List Rule :=
  [⟨s.dataSources ≠ [], .series .noDataSources⟩,
    ⟨s.archives ≠ [], .series .noArchives⟩,
    ⟨0 < s.step, .series .step⟩,
    ⟨0 ≤ s.start, .series .start⟩]
    ++ (s.dataSources.flatMap DataSource.rules ++ (s.archives.flatMap Archive.rules
      ++ identifierRules "path" s.path))

variable {s : Series}

theorem follows_check (hs : s.IsDeclared) : Follows s.check s.rules := by
  have hsome := Follows.require_self (s.dataSources ≠ []) (.series .noDataSources)
  have hkept := Follows.require_self (s.archives ≠ []) (.series .noArchives)
  have hstep := Follows.require_self (0 < s.step) (.series .step)
  have hstart := Follows.require_self (0 ≤ s.start) (.series .start)
  have hsources := Follows.forM fun d hd => DataSource.follows_check (hs.dataSources d hd)
  have harchives := Follows.forM fun a ha => Archive.follows_check (hs.archives a ha)
  have hpath := follows_checkIdentifier "path" s.path
  have hparts := hsources.seq (harchives.seq hpath)
  exact hsome.seq (hkept.seq (hstep.seq (hstart.seq hparts)))

/-- A description that satisfies its rules is written. -/
theorem exists_line (hs : s.IsDeclared) (hcheck : s.check = .ok ()) :
    ∃ line, s.line = .ok line := by
  obtain ⟨hsources, harchives, hpath⟩ := parts_of_check hcheck
  obtain ⟨path, hpath⟩ := checkIdentifier_eq_ok.1 hpath
  obtain ⟨step, hstep⟩ := exists_intField hs.step
  obtain ⟨start, hstart⟩ := exists_intField hs.start
  obtain ⟨sources, hsources⟩ := Result.exists_mapM_eq_ok.2 fun d hd =>
    DataSource.exists_argument (hs.dataSources d hd) (hsources d hd)
  obtain ⟨archives, harchives⟩ := Result.exists_mapM_eq_ok.2 fun a ha =>
    Archive.exists_argument (hs.archives a ha) (harchives a ha)
  have hfile : Identifier.ofPath s.path = .ok path := Identifier.ofString_eq_ok.2 hpath
  rw [line, hcheck, hfile, hstep, hstart, hsources, harchives]
  exact ⟨_, rfl⟩

/-- Writing a description fails for the first rule that is broken, and for nothing else. -/
theorem follows_line (hs : s.IsDeclared) : Follows s.line s.rules :=
  (follows_check hs).of_check (fun _ hcheck => exists_line hs hcheck)
    fun e he => by rw [line, he]; rfl

end Series

/-! ### Queries -/

namespace Query

/-- No whole number of a query is too long to be written. -/
structure IsDeclared (q : Query) : Prop where
  consolidation : ¬ q.consolidation.Overlong
  start : ¬ LimitOverlong q.start
  finish : ¬ LimitOverlong q.finish

/-- The rules for a query, in the order in which they are checked. -/
def rules (q : Query) : List Rule :=
  identifierRules "path" q.path
    ++ ([⟨∃ f : Consolidation, q.consolidation = .text f.word,
          .query (.consolidation q.consolidation)⟩,
        ⟨q.finish.isSome ∨ q.columns.isSome → q.start.isSome, .query .noStart⟩,
        ⟨q.columns.isSome → q.finish.isSome, .query .noEnd⟩]
      ++ (q.columns.getD []).flatMap (identifierRules "column"))

variable {q : Query}

theorem follows_checkRange (q : Query) :
    Follows q.checkRange [⟨q.finish.isSome ∨ q.columns.isSome → q.start.isSome, .query .noStart⟩,
      ⟨q.columns.isSome → q.finish.isSome, .query .noEnd⟩] := by
  intro e
  rw [firstBroken_cons, firstBroken_cons, checkRange]
  cases q.start <;> cases q.finish <;> cases q.columns <;> simp [FirstBroken, firstIs_nil]

theorem exists_rangeFields (hq : q.IsDeclared) : ∃ fields, q.rangeFields = .ok fields := by
  rw [rangeFields]
  rcases hstart : q.start with - | start
  · exact ⟨_, rfl⟩
  obtain ⟨first, hfirst⟩ := exists_limitField (hstart ▸ hq.start)
  rcases hfinish : q.finish with - | finish
  · dsimp only
    rw [hfirst]
    exact ⟨_, rfl⟩
  · obtain ⟨last, hlast⟩ := exists_limitField (hfinish ▸ hq.finish)
    dsimp only
    rw [hfirst, hlast]
    exact ⟨_, rfl⟩

/-- Writing a query fails for the first rule that is broken, and for nothing else. -/
theorem follows_line (hq : q.IsDeclared) : Follows q.line q.rules := by
  have hfunction : Follows q.function [⟨∃ f : Consolidation, q.consolidation = .text f.word,
      .query (.consolidation q.consolidation)⟩] := by
    refine follows_choice (fun f hf => ?_) (fun hnone => ?_) Consolidation.exists_ofScalar?
      hq.consolidation
    · rw [function, hf]
    · rw [function, hnone]
  have hcolumns : Follows ((q.columns.getD []).forM (checkIdentifier "column"))
      ((q.columns.getD []).flatMap (identifierRules "column")) :=
    Follows.forM fun column _ => follows_checkIdentifier "column" column
  obtain ⟨fields, hfields⟩ := exists_rangeFields hq
  apply (follows_identifier "path" q.path).bind
  intro path _
  apply hfunction.bind
  intro function _
  apply (follows_checkRange q).seq
  apply hcolumns.bind_isOk
  intro _ _
  rw [hfields]
  exact ⟨_, rfl⟩

end Query

/-! ### Bounds in lines -/

/-- The number that the text of a field spells. -/
def spelledNumber? (text : List Char) : Option Extended :=
  (Point.value? text).bind Scalar.number?

/-- Where an argument of a line describes a data source, its bounds are in order, unless one of
them is unknown. -/
def BoundsIncrease (line : String) : Prop :=
  ∀ body, line.toList = body ++ ['\n'] → ∀ argument ∈ body.splitOn ' ', ∀ fields,
    argument.splitOn ':' = "DS".toList :: fields → ∃ name kind heartbeat low high,
      fields = [name, kind, heartbeat, low, high] ∧
        (low ≠ unknownWord.toList → high ≠ unknownWord.toList →
          ∃ p q, spelledNumber? low = some p ∧ spelledNumber? high = some q ∧ p < q)

namespace DataSource

variable {d : DataSource} {s : String}

/-- A bound that is written as a number is one, and its text spells it. -/
theorem number_of_boundField {v : Scalar} (hv : v = .null ∨ v.IsShortNumber)
    (h : boundField v = .ok s) (hknown : s ≠ unknownWord) :
    ∃ p, v.number? = some p ∧ spelledNumber? s.toList = some p := by
  have hvalue := (Scalar.value?_of_boundField h).2
  rw [spelledNumber?, hvalue, Option.bind_some]
  rcases hv with rfl | ⟨hnumber, -⟩
  · exact absurd (Except.ok.inj h).symm hknown
  cases v with
  | int i => exact ⟨_, rfl, rfl⟩
  | float x =>
    rcases x with - | (- | -) | ⟨- | -, m⟩
    · exact absurd (Except.ok.inj h).symm hknown
    · exact ⟨_, rfl, rfl⟩
    · exact ⟨_, rfl, rfl⟩
    · exact ⟨_, rfl, rfl⟩
    · exact ⟨_, rfl, rfl⟩
  | null | bool _ | text _ | blank => cases hnumber

/-- The bounds of a data source that was written. -/
theorem bounds_of_argument (hd : d.IsDeclared) (hcheck : d.check = .ok ())
    (h : d.argument = .ok s) :
    ∃ name kind heartbeat low high,
      d.template.toList.splitOn ':' = ["DS".toList, name, kind, heartbeat, low, high] ∧
        (low ≠ unknownWord.toList → high ≠ unknownWord.toList →
          ∃ p q, spelledNumber? low = some p ∧ spelledNumber? high = some q ∧ p < q) := by
  obtain ⟨k, low, high, -, hlow, hhigh, htemplate, hname⟩ := fields hcheck h
  have hsplit := Point.splitOn_fields (List.cons_ne_nil _ _)
    (show ∀ t ∈ ["DS", d.name, k.word, Numeral.spelling d.heartbeat, low, high], ':' ∉ t.toList by
      simp [hname, k.colon_not_mem_word, Numeral.colon_not_mem_spelling,
        (Scalar.value?_of_boundField hlow).1, (Scalar.value?_of_boundField hhigh).1])
  rw [← htemplate] at hsplit
  refine ⟨_, _, _, _, _, hsplit, fun hlowKnown hhighKnown => ?_⟩
  obtain ⟨p, hp, hlowSpells⟩ :=
    number_of_boundField hd.minimum hlow (fun h => hlowKnown (congrArg _ h))
  obtain ⟨q, hq, hhighSpells⟩ :=
    number_of_boundField hd.maximum hhigh (fun h => hhighKnown (congrArg _ h))
  refine ⟨p, q, hlowSpells, hhighSpells, lt_of_not_ge fun hle => ?_⟩
  -- bounds that are not in order were refused
  have hcross := (boundsCross_iff hd).2 ⟨p, q, hp, hq, hle⟩
  obtain ⟨_, -, hcheck⟩ := Result.bind_eq_ok.1 hcheck
  obtain ⟨_, -, hcheck⟩ := Result.bind_eq_ok.1 hcheck
  obtain ⟨_, hbounds, -⟩ := Result.bind_eq_ok.1 hcheck
  rw [require_eq_ok.1 hbounds] at hcross
  cases hcross

end DataSource

namespace Series

variable {s : Series}

theorem eq_of_first_field {token : List Char} {fields : List (List Char)}
    (h : token.splitOn ':' = "DS".toList :: fields) :
    token = "DS".toList ∨ ∃ rest, token = "DS:".toList ++ rest := by
  have hjoin : [':'].intercalate (token.splitOn ':') = token := List.intercalate_splitOn ':'
  rw [h] at hjoin
  rcases fields with - | ⟨field, fields⟩
  · exact .inl (by simpa using hjoin.symm)
  · exact .inr ⟨_, by rw [← hjoin, List.intercalate_cons_cons]; rfl⟩

/-- An argument with the first field of a data source describes one. -/
theorem exists_source_of_fields (hs : s.check = .ok ()) {token : String} (ht : token ∈ s.template)
    {fields : List (List Char)} (hfields : token.toList.splitOn ':' = "DS".toList :: fields) :
    ∃ d ∈ s.dataSources, token = d.template := by
  have hcases := eq_of_first_field hfields
  have hD : 'D' ∈ token.toList ∧ isSourceToken token := by
    rcases hcases with h | ⟨rest, h⟩ <;> simp [isSourceToken, h]
  simp only [template, List.mem_append, List.mem_cons, List.not_mem_nil, or_false,
    List.mem_map] at ht
  rcases ht with (ht | ⟨d, hd, rfl⟩) | ⟨a, -, rfl⟩
  · exfalso
    rcases ht with rfl | rfl | rfl | rfl | rfl | rfl
    · exact absurd hD.2 (by decide)
    · -- a file has a dot in it, and no colon
      have hcolon := colon_not_mem_of_checkIdentifier (parts_of_check hs).2.2
      rw [String.toList_append] at hcases
      rcases hcases with h | ⟨rest, h⟩
      · have hdot : '.' ∈ "DS".toList := h ▸ List.mem_append_right _ (by decide)
        exact absurd hdot (by decide)
      · have hmem : ':' ∈ s.path.toList ++ ".rrd".toList := h ▸ List.mem_append_left _ (by decide)
        rcases List.mem_append.1 hmem with h | h
        · exact hcolon h
        · exact absurd h (by decide)
    · exact absurd hD.2 (by decide)
    · exact Numeral.not_mem_spelling (by decide) (by decide) _ hD.1
    · exact absurd hD.2 (by decide)
    · exact Numeral.not_mem_spelling (by decide) (by decide) _ hD.1
  · exact ⟨d, hd, rfl⟩
  · exact absurd hD.2 (not_isSourceToken_template a)

theorem boundsIncrease {line : String} (hs : s.IsDeclared) (h : s.line = .ok line) :
    BoundsIncrease line := by
  intro body hbody argument hargument fields hfields
  obtain ⟨rfl, htokens⟩ := line_eq h
  obtain ⟨body', hbody', hsplit⟩ := tokenLine_split (by simp [template]) htokens
  obtain rfl := List.append_cancel_right (hbody'.symm.trans hbody)
  rw [hsplit] at hargument
  obtain ⟨token, htoken, rfl⟩ := List.mem_map.1 hargument
  obtain ⟨_, hcheck, -⟩ := Result.bind_eq_ok.1 h
  obtain ⟨d, hd, rfl⟩ := exists_source_of_fields hcheck htoken hfields
  obtain ⟨hdcheck, s', hs'⟩ := (written h).sources d hd
  obtain ⟨name, kind, heartbeat, low, high, hsix, hbounds⟩ :=
    DataSource.bounds_of_argument (hs.dataSources d hd) hdcheck hs'
  rw [hfields] at hsix
  exact ⟨name, kind, heartbeat, low, high, (List.cons.inj hsix).2, hbounds⟩

end Series

/-- A check that succeeds where all rules hold and fails for the first one that is broken. -/
structure Validates (check : Except Error String) (rules : List Rule) : Prop where
  returns_iff : (∃ line, check = .ok line) ↔ ∀ r ∈ rules, r.holds
  raises_iff : ∀ e, check = .error e ↔ FirstBroken rules e

/-- New databases and queries are validated exactly, and a line that creates a database has
bounds in order only. -/
theorem requests_validated (s : Series) (hs : s.IsDeclared) (q : Query) (hq : q.IsDeclared) :
    Validates s.line s.rules ∧ (∀ line, s.line = .ok line → BoundsIncrease line) ∧
      Validates q.line q.rules :=
  ⟨⟨(Series.follows_line hs).isOk_iff, Series.follows_line hs⟩,
    fun _ => Series.boundsIncrease hs, ⟨(Query.follows_line hq).isOk_iff, Query.follows_line hq⟩⟩

/-- A database whose lower bound is a whole number and whose upper one is an infinity. -/
def Series.halfOpen : Series where
  path := "load"
  dataSources := [⟨"cpu", 600, .text "GAUGE", .int 0, .float (.infinite false)⟩]
  archives := [⟨.text "AVERAGE", .int 1, 1, 24⟩]
  start := 0
  step := 300

/-- A query for columns over a range without an end. -/
def Query.endless : Query where
  path := "load"
  start := some (.given 0)
  columns := some ["cpu"]

/-- The one is written with its bounds in order, and the other one is refused for its range. -/
theorem requests_validated_halfOpen :
    Series.halfOpen.IsDeclared ∧ Query.endless.IsDeclared ∧
      Series.halfOpen.line
        = .ok "CREATE load.rrd -s 300 -b 0 DS:cpu:GAUGE:600:0:inf RRA:AVERAGE:1.0:1:24\n" ∧
      BoundsIncrease
        "CREATE load.rrd -s 300 -b 0 DS:cpu:GAUGE:600:0:inf RRA:AVERAGE:1.0:1:24\n" ∧
      Query.endless.line = .error (.query .noEnd) := by
  have hshort : ∀ i ∈ ([0, 1, 24, 300, 600] : List Int), ¬ Numeral.Overlong i := by
    unfold Numeral.Overlong
    decide +kernel
  have hword : ∀ t, ¬ (Scalar.text t).Overlong := by
    rintro t ⟨i, h, -⟩
    cases h
  have hs : Series.halfOpen.IsDeclared := by
    refine ⟨?_, ?_, hshort 0 (by decide), hshort 300 (by decide)⟩
    · intro d hd
      obtain rfl := List.mem_singleton.1 hd
      refine ⟨hshort 600 (by decide), hword _, .inr ⟨trivial, ?_⟩, .inr ⟨trivial, ?_⟩⟩
      · rintro ⟨i, h, hi⟩
        exact hshort 0 (by decide) (Scalar.int.inj h ▸ hi)
      · rintro ⟨i, h, -⟩
        cases h
    · intro a ha
      obtain rfl := List.mem_singleton.1 ha
      exact ⟨hword _, trivial, hshort 1 (by decide), hshort 24 (by decide)⟩
  have hq : Query.endless.IsDeclared := by
    refine ⟨hword _, ?_, ?_⟩
    · rintro ⟨i, h, hi⟩
      exact hshort 0 (by decide) (Slot.given.inj (Option.some.inj h) ▸ hi)
    · rintro ⟨i, h, -⟩
      cases h
  have hline : Series.halfOpen.line
      = .ok "CREATE load.rrd -s 300 -b 0 DS:cpu:GAUGE:600:0:inf RRA:AVERAGE:1.0:1:24\n" := by
    decide +kernel
  obtain ⟨-, hbounds, hquery⟩ := requests_validated .halfOpen hs .endless hq
  refine ⟨hs, hq, hline, hbounds _ hline, (hquery.raises_iff _).2 ?_⟩
  -- the path, the function and the start are in order, and columns need an end
  have hpath : ∀ r ∈ identifierRules "path" "load", r.holds :=
    (follows_identifier _ _).isOk_iff.1 ⟨⟨"load", by decide⟩, Identifier.ofString_eq_ok.2 rfl⟩
  have hnoEnd : ¬ (Query.endless.columns.isSome → Query.endless.finish.isSome) := by
    decide
  refine firstBroken_append.2 (.inr ⟨hpath, firstBroken_cons.2 (.inr ⟨⟨.average, rfl⟩, ?_⟩)⟩)
  exact firstBroken_cons.2 (.inr ⟨fun _ => rfl, firstBroken_cons.2 (.inl ⟨hnoEnd, rfl⟩)⟩)

end RrdCache
