/-
RrdCache/Proofs/Request/Template.lean

The templates of request lines.  The template of a request lists the tokens of its line: the
words of the protocol, and the arguments just as the caller gave them.  It checks nothing, so
that a template may well hold blanks and line feeds.

Main result (`Request.line_eq`): a request that has a line at all has the line of its
template, and each part of the template is then a single token.
-/
import RrdCache.Proofs.Request.Fields
import RrdCache.Request

namespace RrdCache

open Result

/-- A request line is that of these tokens. -/
def IsLineOf (tokens : List String) (line : String) : Prop :=
  line = tokenLine tokens ∧ ∀ t ∈ tokens, IsToken t

/-! ### Commands -/

namespace Command

/-- The tokens of a command. -/
def template : Command → List String
  | ping => ["PING"]
  | help topic => "HELP" :: topic.toList
  | stats => ["STATS"]
  | queue => ["QUEUE"]
  | flush path => ["FLUSH", path ++ ".rrd"]
  | flushAll => ["FLUSHALL"]
  | pending path => ["PENDING", path ++ ".rrd"]
  | forget path => ["FORGET", path ++ ".rrd"]
  | first path archive => ["FIRST", path ++ ".rrd", Numeral.spelling archive]
  | last path => ["LAST", path ++ ".rrd"]
  | info path => ["INFO", path ++ ".rrd"]
  | list path recursive => "LIST" :: (if recursive then ["RECURSIVE"] else []) ++ [path]
  | suspend path => ["SUSPEND", path ++ ".rrd"]
  | resume path => ["RESUME", path ++ ".rrd"]
  | suspendAll => ["SUSPENDALL"]
  | resumeAll => ["RESUMEALL"]
  | quit => ["QUIT"]
  | batch => ["BATCH"]
  | batchEnd => ["."]

theorem onFile_eq {word path line : String} (hword : IsToken word)
    (h : onFile word path = .ok line) : IsLineOf [word, path ++ ".rrd"] line := by
  obtain ⟨i, hi, h⟩ := bind_eq_ok.1 h
  have htoken := i.isToken_file
  rw [Identifier.file_eq hi] at h htoken
  obtain rfl := Except.ok.inj h
  refine ⟨(tokenLine_pair _ _).symm, ?_⟩
  simp [hword, htoken]

theorem firstLine_eq {path line : String} {archive : Int}
    (h : firstLine path archive = .ok line) : IsLineOf (first path archive).template line := by
  rw [firstLine] at h
  split at h
  · cases h
  obtain ⟨i, hi, h⟩ := bind_eq_ok.1 h
  obtain ⟨index, hindex, h⟩ := bind_eq_ok.1 h
  obtain ⟨-, rfl⟩ := intField_eq_ok.1 hindex
  have htoken := i.isToken_file
  rw [Identifier.file_eq hi] at h htoken
  obtain rfl := Except.ok.inj h
  constructor
  · rw [template, tokenLine_triple]
    rfl
  · have hword : IsToken "FIRST" := by decide
    simp [template, hword, htoken, isToken_spelling]

theorem listLine_eq {path line : String} {recursive : Bool}
    (h : (list path recursive).line = .ok line) :
    IsLineOf (list path recursive).template line := by
  obtain ⟨_, hchecked, h⟩ := bind_eq_ok.1 h
  have htoken := isToken_of_checkDirectory hchecked
  obtain rfl := Except.ok.inj h
  have hword : IsToken "LIST" := by decide
  have hrecursive : IsToken "RECURSIVE" := by decide
  cases recursive with
  | true =>
    refine ⟨?_, by simp [template, hword, hrecursive, htoken]⟩
    show _ = tokenLine ["LIST", "RECURSIVE", path]
    rw [tokenLine_triple]
    rfl
  | false =>
    refine ⟨?_, by simp [template, hword, htoken]⟩
    show _ = tokenLine ["LIST", path]
    rw [tokenLine_pair]
    rfl

theorem helpLine_eq {topic : Option String} {line : String}
    (h : (help topic).line = .ok line) : IsLineOf (help topic).template line := by
  have hword : IsToken "HELP" := by decide
  cases topic with
  | none =>
    obtain rfl := Except.ok.inj h
    exact ⟨rfl, by simp [template, hword]⟩
  | some topic =>
    obtain ⟨i, hi, hline⟩ := bind_eq_ok.1 h
    obtain rfl := Identifier.ofString_eq_ok.1 hi
    obtain rfl := Except.ok.inj hline
    constructor
    · show _ = tokenLine ["HELP", i.text]
      rw [tokenLine_pair]
      rfl
    · simp [template, hword, i.isToken]

/-- The line of a command is that of its template. -/
theorem line_eq {c : Command} {line : String} (h : c.line = .ok line) :
    IsLineOf c.template line := by
  cases c with
  | help topic => exact helpLine_eq h
  | first path archive => exact firstLine_eq h
  | list path recursive => exact listLine_eq h
  | flush path | pending path | forget path | last path | info path | suspend path
  | resume path => exact onFile_eq (by decide) h
  | ping | stats | queue | flushAll | suspendAll | resumeAll | quit | batch | batchEnd =>
    obtain rfl := Except.ok.inj h
    exact ⟨rfl, by decide⟩

end Command

/-! ### Updates -/

namespace Point

/-- The tokens of an update at a time. -/
def template (p : Point) (time : Nat) : List String :=
  ["UPDATE", p.path.text ++ ".rrd",
    String.intercalate ":" (Numeral.spelling time :: p.values.map Scalar.spelled)]

theorem line_eq {p : Point} {time : Nat} {line : String} (h : p.line time = .ok line) :
    IsLineOf (p.template time) line := by
  obtain ⟨values, hvalues, h⟩ := bind_eq_ok.1 h
  obtain ⟨timestamp, htimestamp, h⟩ := bind_eq_ok.1 h
  obtain ⟨fields, hfields, hvalues⟩ := bind_eq_ok.1 hvalues
  obtain ⟨-, rfl⟩ := intField_eq_ok.1 htimestamp
  obtain ⟨rfl, htokens⟩ := mapM_spelled (fun _ _ _ => Scalar.field_eq) hfields
  obtain rfl := Except.ok.inj hvalues
  obtain rfl := Except.ok.inj h
  have hne : p.values.map Scalar.spelled ≠ [] := by simpa using p.values_ne_nil
  constructor
  · rw [template, tokenLine_triple, String.intercalate_cons_of_ne_nil hne, Identifier.file]
    simp only [String.append_assoc]
    rfl
  · have hword : IsToken "UPDATE" := by decide
    have hfile : IsToken (p.path.text ++ ".rrd") := p.path.isToken_file
    have hlist := List.forall_mem_cons.2 ⟨isToken_spelling time, htokens⟩
    have hparts : IsToken (String.intercalate ":" _) :=
      IsToken.intercalate (by decide) (by simp) hlist
    simp [template, hword, hfile, hparts]

end Point

/-! ### New databases -/

namespace DataSource

/-- The token that describes a data source. -/
def template (d : DataSource) : String :=
  String.intercalate ":" ["DS", d.name, d.kind.word, Numeral.spelling d.heartbeat,
    d.minimum.spelledBound, d.maximum.spelledBound]

/-- The name of a data source that passes its check. -/
theorem isToken_name {d : DataSource} (h : d.check = .ok ()) : IsToken d.name := by
  obtain ⟨_, -, h⟩ := bind_eq_ok.1 h
  obtain ⟨_, -, h⟩ := bind_eq_ok.1 h
  obtain ⟨_, -, hname⟩ := bind_eq_ok.1 h
  exact isToken_of_checkIdentifier hname

theorem kind_eq {d : DataSource} {k : SourceKind} (h : d.sourceKind = .ok k) :
    d.kind = .text k.word := by
  rw [sourceKind] at h
  split at h
  · rename_i k' hk
    obtain rfl := Except.ok.inj h
    exact SourceKind.eq_of_ofScalar? hk
  · cases h

theorem argument_eq {d : DataSource} {s : String} (hname : IsToken d.name)
    (h : d.argument = .ok s) : s = d.template ∧ IsToken s := by
  obtain ⟨kind, hkind, h⟩ := bind_eq_ok.1 h
  obtain ⟨heartbeat, hheartbeat, h⟩ := bind_eq_ok.1 h
  obtain ⟨minimum, hminimum, h⟩ := bind_eq_ok.1 h
  obtain ⟨maximum, hmaximum, h⟩ := bind_eq_ok.1 h
  obtain ⟨-, rfl⟩ := intField_eq_ok.1 hheartbeat
  obtain ⟨rfl, hmin⟩ := Scalar.boundField_eq hminimum
  obtain ⟨rfl, hmax⟩ := Scalar.boundField_eq hmaximum
  obtain rfl := Except.ok.inj h
  refine ⟨?_, IsToken.intercalate (by decide) (by simp) ?_⟩
  · rw [template, kind_eq hkind, Scalar.word]
  have hstart : IsToken "DS" := by decide
  simp [hstart, hname, kind.isToken_word, isToken_spelling, hmin, hmax]

end DataSource

namespace Archive

/-- The token that describes an archive. -/
def template (a : Archive) : String :=
  String.intercalate ":" ["RRA", a.consolidation.word, a.xfilesFactor.spelledShare,
    Numeral.spelling a.steps, Numeral.spelling a.rows]

theorem consolidation_eq {a : Archive} {f : Consolidation} (h : a.function = .ok f) :
    a.consolidation = .text f.word := by
  rw [function] at h
  split at h
  · rename_i f' hf
    obtain rfl := Except.ok.inj h
    exact Consolidation.eq_of_ofScalar? hf
  · cases h

theorem share_eq {a : Archive} {x : Binary64} (h : a.share = .ok x) :
    a.xfilesFactor.toBinary64? = some x := by
  rw [share] at h
  split at h
  · cases h
  · rename_i x' hx _
    obtain rfl := Except.ok.inj h
    exact hx
  · cases h

theorem spelledShare_eq {a : Archive} {x : Binary64} (h : a.share = .ok x) :
    a.xfilesFactor.spelledShare = x.field := by
  rw [Scalar.spelledShare, share_eq h]
  rfl

theorem argument_eq {a : Archive} {s : String} (h : a.argument = .ok s) :
    s = a.template ∧ IsToken s := by
  obtain ⟨function, hfunction, h⟩ := bind_eq_ok.1 h
  obtain ⟨share, hshare, h⟩ := bind_eq_ok.1 h
  obtain ⟨steps, hsteps, h⟩ := bind_eq_ok.1 h
  obtain ⟨rows, hrows, h⟩ := bind_eq_ok.1 h
  obtain ⟨-, rfl⟩ := intField_eq_ok.1 hsteps
  obtain ⟨-, rfl⟩ := intField_eq_ok.1 hrows
  obtain rfl := Except.ok.inj h
  refine ⟨?_, IsToken.intercalate (by decide) (by simp) ?_⟩
  · rw [template, consolidation_eq hfunction, Scalar.word, spelledShare_eq hshare]
  have hstart : IsToken "RRA" := by decide
  simp [hstart, function.isToken_word, share.isToken_field, isToken_spelling]

end Archive

namespace Series

/-- The tokens of the creation of a database. -/
def template (s : Series) : List String :=
  ["CREATE", s.path ++ ".rrd", "-s", Numeral.spelling s.step, "-b", Numeral.spelling s.start]
    ++ s.dataSources.map DataSource.template ++ s.archives.map Archive.template

/-- A description that passes its check has parts that pass theirs. -/
theorem parts_of_check {s : Series} (h : s.check = .ok ()) :
    (∀ d ∈ s.dataSources, d.check = .ok ()) ∧ (∀ a ∈ s.archives, a.check = .ok ()) ∧
      checkIdentifier "path" s.path = .ok () := by
  obtain ⟨_, -, h⟩ := bind_eq_ok.1 h
  obtain ⟨_, -, h⟩ := bind_eq_ok.1 h
  obtain ⟨_, -, h⟩ := bind_eq_ok.1 h
  obtain ⟨_, -, h⟩ := bind_eq_ok.1 h
  obtain ⟨_, hsources, h⟩ := bind_eq_ok.1 h
  obtain ⟨_, harchives, hpath⟩ := bind_eq_ok.1 h
  exact ⟨forM_eq_ok.1 hsources, forM_eq_ok.1 harchives, hpath⟩

theorem line_eq {s : Series} {line : String} (h : s.line = .ok line) :
    IsLineOf s.template line := by
  obtain ⟨_, hcheck, h⟩ := bind_eq_ok.1 h
  obtain ⟨path, hpath, h⟩ := bind_eq_ok.1 h
  obtain ⟨step, hstep, h⟩ := bind_eq_ok.1 h
  obtain ⟨start, hstart, h⟩ := bind_eq_ok.1 h
  obtain ⟨sources, hsources, h⟩ := bind_eq_ok.1 h
  obtain ⟨archives, harchives, h⟩ := bind_eq_ok.1 h
  -- every number that was written is the spelling of itself
  obtain ⟨hparts, -, -⟩ := parts_of_check hcheck
  obtain ⟨-, rfl⟩ := intField_eq_ok.1 hstep
  obtain ⟨-, rfl⟩ := intField_eq_ok.1 hstart
  obtain ⟨rfl, hsources⟩ := mapM_spelled
    (fun d hd _ => DataSource.argument_eq (DataSource.isToken_name (hparts d hd))) hsources
  obtain ⟨rfl, harchives⟩ := mapM_spelled (fun _ _ _ => Archive.argument_eq) harchives
  obtain rfl := Except.ok.inj h
  have hfile := path.isToken_file
  rw [Identifier.file_eq hpath] at hfile ⊢
  refine ⟨rfl, ?_⟩
  intro t ht
  -- a token is one of the first six, or the text of a data source, or that of an archive
  rw [template, List.mem_append, List.mem_append] at ht
  rcases ht with (ht | ht) | ht
  · have hwords : IsToken "CREATE" ∧ IsToken "-s" ∧ IsToken "-b" := by decide
    simp only [List.mem_cons, List.not_mem_nil, or_false] at ht
    rcases ht with rfl | rfl | rfl | rfl | rfl | rfl
    · exact hwords.1
    · exact hfile
    · exact hwords.2.1
    · exact isToken_spelling _
    · exact hwords.2.2
    · exact isToken_spelling _
  · exact hsources t ht
  · exact harchives t ht

end Series

/-! ### Queries -/

namespace Query

/-- The tokens of a query. -/
def template (q : Query) : List String :=
  ["FETCH", q.path ++ ".rrd", q.consolidation.word] ++ q.start.toList.map Slot.spelled
    ++ q.finish.toList.map Slot.spelled ++ q.columns.getD []

/-- The fields of the range, where nothing is left out but from the end. -/
theorem rangeFields_eq {q : Query} {fields : List String} (hrange : q.checkRange = .ok ())
    (h : q.rangeFields = .ok fields) :
    fields = q.start.toList.map Slot.spelled ++ q.finish.toList.map Slot.spelled
        ++ q.columns.getD [] ∧
      ∀ t ∈ fields, IsToken t ∨ t ∈ q.columns.getD [] := by
  rw [checkRange] at hrange
  rw [rangeFields] at h
  -- without a start there is nothing, and without an end nothing but the start
  rcases hstart : q.start with - | start
  · simp only [hstart] at h hrange
    rcases hfinish : q.finish with - | finish
    · rcases hcolumns : q.columns with - | columns
      · obtain rfl := Except.ok.inj h
        simp
      · simp [hcolumns] at hrange
    · simp [hfinish] at hrange
  simp only [hstart] at h hrange
  obtain ⟨first, hfirst, h⟩ := bind_eq_ok.1 h
  obtain ⟨rfl, hfirst⟩ := limitField_eq hfirst
  rcases hfinish : q.finish with - | finish
  · simp only [hfinish] at h hrange
    obtain rfl := Except.ok.inj h
    rcases hcolumns : q.columns with - | columns
    · simp [hfirst]
    · simp [hcolumns] at hrange
  · simp only [hfinish] at h
    obtain ⟨last, hlast, h⟩ := bind_eq_ok.1 h
    obtain ⟨rfl, hlast⟩ := limitField_eq hlast
    obtain rfl := Except.ok.inj h
    refine ⟨rfl, ?_⟩
    simp only [List.mem_cons]
    rintro t (rfl | rfl | ht)
    · exact .inl hfirst
    · exact .inl hlast
    · exact .inr ht

theorem consolidation_eq {q : Query} {f : Consolidation} (h : q.function = .ok f) :
    q.consolidation = .text f.word := by
  rw [function] at h
  split at h
  · rename_i f' hf
    obtain rfl := Except.ok.inj h
    exact Consolidation.eq_of_ofScalar? hf
  · cases h

theorem line_eq {q : Query} {line : String} (h : q.line = .ok line) :
    IsLineOf q.template line := by
  obtain ⟨path, hpath, h⟩ := bind_eq_ok.1 h
  obtain ⟨function, hfunction, h⟩ := bind_eq_ok.1 h
  obtain ⟨_, hrange, h⟩ := bind_eq_ok.1 h
  obtain ⟨_, hcolumns, h⟩ := bind_eq_ok.1 h
  obtain ⟨fields, hfields, h⟩ := bind_eq_ok.1 h
  obtain ⟨rfl, htokens⟩ := rangeFields_eq hrange hfields
  obtain rfl := Except.ok.inj h
  have hfile := path.isToken_file
  rw [Identifier.file_eq hpath] at hfile ⊢
  constructor
  · rw [template, consolidation_eq hfunction, List.append_assoc, List.append_assoc]
    rfl
  intro t ht
  rw [template, consolidation_eq hfunction, List.append_assoc, List.append_assoc,
    List.mem_append, ← List.append_assoc] at ht
  rcases ht with ht | ht
  · have hfetch : IsToken "FETCH" := by decide
    simp only [List.mem_cons, List.not_mem_nil, or_false] at ht
    rcases ht with rfl | rfl | rfl
    · exact hfetch
    · exact hfile
    · exact function.isToken_word
  -- a limit is a token of its own, and a column was checked
  · rcases htokens t ht with ht | ht
    · exact ht
    · exact isToken_of_checkIdentifier (forM_eq_ok.1 hcolumns t ht)

end Query

/-! ### Requests -/

namespace Request

/-- The tokens of a request. -/
def template : Request → List String
  | command c => c.template
  | update point time => point.template time
  | create series => series.template
  | fetch query => query.template

theorem template_ne_nil (r : Request) : r.template ≠ [] := by
  cases r with
  | command c => cases c <;> exact List.cons_ne_nil _ _
  | update point time | create series | fetch query => exact List.cons_ne_nil _ _

/-- A request that has a line has the one of its template. -/
theorem line_eq {r : Request} {line : String} (h : r.line = .ok line) :
    IsLineOf r.template line := by
  cases r with
  | command c => exact Command.line_eq h
  | update point time => exact Point.line_eq h
  | create series => exact Series.line_eq h
  | fetch query => exact Query.line_eq h

end Request

end RrdCache
