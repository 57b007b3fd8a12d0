/-
RrdCache/Proofs/Request/Unambiguous.lean

Request lines are unambiguous.  A line falls apart at its blanks in one way only, and so do
the arguments with colons in them; the first word says what kind of request it is, data
sources and archives are told apart by their first letters, and the range and the columns of a
query by how many tokens are left.  Each field then gives back the argument that it was made
of.

Main result (`Request.same_line_iff`): two requests have the same line exactly if they have
the same normal form.
-/
import RrdCache.Proofs.Request.Normal

namespace RrdCache

open Result

/-! ### Taking lines apart -/

/-- Tokens are found again in their line. -/
theorem tokenLine_inj {tokens others : List String} (hne : tokens ≠ []) (hne' : others ≠ [])
    (h : ∀ t ∈ tokens, IsToken t) (h' : ∀ t ∈ others, IsToken t)
    (heq : tokenLine tokens = tokenLine others) : tokens = others := by
  obtain ⟨body, hbody, hsplit⟩ := tokenLine_split hne h
  obtain ⟨body', hbody', hsplit'⟩ := tokenLine_split hne' h'
  rw [heq, hbody'] at hbody
  rw [← List.append_cancel_right hbody, hsplit'] at hsplit
  exact (List.map_inj_right fun _ _ => String.toList_inj.1).1 hsplit.symm

/-- Fields without colons are found again between colons. -/
theorem fields_inj {fields others : List String} (hne : fields ≠ []) (hne' : others ≠ [])
    (h : ∀ t ∈ fields, ':' ∉ t.toList) (h' : ∀ t ∈ others, ':' ∉ t.toList)
    (heq : String.intercalate ":" fields = String.intercalate ":" others) : fields = others := by
  have hsplit := Point.splitOn_fields hne h
  rw [heq, Point.splitOn_fields hne' h'] at hsplit
  exact (List.map_inj_right fun _ _ => String.toList_inj.1).1 hsplit.symm

theorem file_inj {path other : String} (h : path ++ ".rrd" = other ++ ".rrd") :
    path = other := by
  have hchars := congrArg String.toList h
  rw [String.toList_append, String.toList_append] at hchars
  exact String.toList_inj.1 (List.append_cancel_right hchars)

/-- Two lists with a class of members in front of members outside it are found again in the
one list that they make. -/
theorem append_inj_of_class {α : Type} {p : α → Bool} {xs xs' ys ys' : List α}
    (hxs : ∀ a ∈ xs, p a) (hxs' : ∀ a ∈ xs', p a) (hys : ∀ a ∈ ys, ¬ p a)
    (hys' : ∀ a ∈ ys', ¬ p a) (h : xs ++ ys = xs' ++ ys') : xs = xs' ∧ ys = ys' := by
  have hfilter := congrArg (List.filter p) h
  rw [List.filter_append, List.filter_append, List.filter_eq_self.2 hxs,
    List.filter_eq_self.2 hxs', List.filter_eq_nil_iff.2 hys, List.filter_eq_nil_iff.2 hys',
    List.append_nil, List.append_nil] at hfilter
  exact ⟨hfilter, List.append_cancel_left (hfilter ▸ h)⟩

/-- If what is written of members tells what they stand for, then so does the list. -/
theorem map_eq_map_of {α β γ : Type} {f : α → β} {g : α → γ} {xs ys : List α}
    (hinj : ∀ a ∈ xs, ∀ b ∈ ys, f a = f b → g a = g b) (h : xs.map f = ys.map f) :
    xs.map g = ys.map g := by
  induction xs generalizing ys with
  | nil =>
    rw [List.map_nil] at h
    rw [List.map_eq_nil_iff.1 h.symm]
  | cons a xs ih =>
    rcases ys with - | ⟨b, ys⟩
    · cases h
    · obtain ⟨hfirst, hlater⟩ := List.cons.inj h
      rw [List.map_cons, List.map_cons, hinj a (by simp) b (by simp) hfirst]
      exact congrArg _ (ih (fun c hc d hd => hinj c (by simp [hc]) d (by simp [hd])) hlater)

/-! ### Fields -/

theorem Numeral.spelling_inj {i j : Int} (h : spelling i = spelling j) : i = j := by
  have hsign := congrArg sign (String.ofList_inj.1 h)
  rw [sign_digits, sign_digits] at hsign
  obtain ⟨hnegative, hdigits⟩ := Prod.mk.inj hsign
  have hvalue : i.natAbs = j.natAbs := by
    rw [← Nat.ofDigitChars_ten_toDigits (n := i.natAbs), hdigits, Nat.ofDigitChars_ten_toDigits]
  rw [← signed_natAbs i, ← signed_natAbs j, hnegative, hvalue]

/-- A whole number is spelt with digits and a sign. -/
theorem Numeral.not_mem_spelling {c : Char} (hdigit : ¬ c.isDigit) (hsign : c ≠ '-') (i : Int) :
    c ∉ (spelling i).toList := by
  rw [spelling, String.toList_ofList]
  intro hc
  rcases mem_digits hc with hc | ⟨hc, -⟩
  · exact hdigit hc
  · exact hsign hc

theorem Numeral.colon_not_mem_spelling (i : Int) : ':' ∉ (spelling i).toList :=
  not_mem_spelling (by decide) (by decide) i

/-- A blank limit is not spelt like a whole number. -/
theorem Slot.spelled_inj {a b : Slot Int} (h : a.spelled = b.spelled) : a = b := by
  have hblank : ∀ i, Numeral.spelling i ≠ "[]" := by
    intro i hi
    have hbracket : '[' ∉ (Numeral.spelling i).toList :=
      Numeral.not_mem_spelling (by decide) (by decide) i
    rw [hi] at hbracket
    exact hbracket (by decide)
  cases a with
  | given i =>
    cases b with
    | given j => rw [Numeral.spelling_inj h]
    | blank => exact absurd h (hblank i)
  | blank =>
    cases b with
    | given j => exact absurd h.symm (hblank j)
    | blank => rfl

/-- No colon stands in an identifier. -/
theorem colon_not_mem_of_checkIdentifier {role value : String}
    (h : checkIdentifier role value = .ok ()) : ':' ∉ value.toList := by
  obtain ⟨i, rfl⟩ := checkIdentifier_eq_ok.1 h
  have hsound := i.sound
  rw [identifierProblem?] at hsound
  split at hsound
  · cases hsound
  split at hsound
  · rename_i hall
    intro hc
    exact absurd (List.all_eq_true.1 hall _ hc) (by decide)
  · cases hsound

theorem Consolidation.colon_not_mem_word (f : Consolidation) : ':' ∉ f.word.toList := by
  cases f <;> decide

theorem SourceKind.colon_not_mem_word (k : SourceKind) : ':' ∉ k.word.toList := by
  cases k <;> decide

/-! ### Commands -/

/-- The tokens of a command are those of no other one. -/
theorem Command.template_inj {c d : Command} (h : c.template = d.template) : c = d := by
  -- commands that are not alike differ in their first word
  cases c <;> cases d <;> simp [template] at h ⊢
  case help.help topic topic' => cases topic <;> cases topic' <;> simp at h ⊢; exact h
  case first.first path archive path' archive' => exact ⟨h.1, Numeral.spelling_inj h.2⟩
  case list.list path recursive path' recursive' =>
    obtain ⟨hword, hpath⟩ := h
    refine ⟨hpath, ?_⟩
    cases recursive <;> cases recursive' <;> simp at hword ⊢
  all_goals exact h

/-! ### Updates -/

/-- The tokens of an update say what it is. -/
theorem Point.normal_eq_of_template {p q : Point} {time time' : Nat} {line line' : String}
    (hp : p.line time = .ok line) (hq : q.line time' = .ok line')
    (h : p.template time = q.template time') : p.normal time = q.normal time' ∧ time = time' := by
  obtain ⟨rfl, -⟩ := line_eq hp
  obtain ⟨rfl, -⟩ := line_eq hq
  -- the line reads as one point, which has the parts of both
  obtain ⟨u, hu, hpath, htime, hvalues⟩ := ofLine_line hp
  obtain ⟨u', hu', hpath', htime', hvalues'⟩ := ofLine_line hq
  rw [h, hu'] at hu
  obtain rfl := Except.ok.inj hu
  obtain rfl := Option.some.inj (htime.symm.trans htime')
  refine ⟨?_, rfl⟩
  simp only [normal, mk.injEq]
  exact ⟨hpath.symm.trans hpath', trivial,
    (Scalar.eq_map_asNumber hvalues).symm.trans (Scalar.eq_map_asNumber hvalues')⟩

/-! ### New databases -/

namespace DataSource

variable {d e : DataSource} {s s' : String}

/-- The fields of a data source that was written. -/
theorem fields (hcheck : d.check = .ok ()) (h : d.argument = .ok s) :
    ∃ (k : SourceKind) (low high : String), d.kind = .text k.word ∧
      boundField d.minimum = .ok low ∧ boundField d.maximum = .ok high ∧
      d.template = String.intercalate ":"
        ["DS", d.name, k.word, Numeral.spelling d.heartbeat, low, high] ∧
      ':' ∉ d.name.toList := by
  obtain ⟨k, hkind, h⟩ := bind_eq_ok.1 h
  obtain ⟨_, -, h⟩ := bind_eq_ok.1 h
  obtain ⟨low, hlow, h⟩ := bind_eq_ok.1 h
  obtain ⟨high, hhigh, -⟩ := bind_eq_ok.1 h
  refine ⟨k, low, high, kind_eq hkind, hlow, hhigh, ?_, ?_⟩
  · rw [template, kind_eq hkind, (Scalar.boundField_eq hlow).1, (Scalar.boundField_eq hhigh).1]
    rfl
  · obtain ⟨_, -, hcheck⟩ := bind_eq_ok.1 hcheck
    obtain ⟨_, -, hcheck⟩ := bind_eq_ok.1 hcheck
    obtain ⟨_, -, hname⟩ := bind_eq_ok.1 hcheck
    exact colon_not_mem_of_checkIdentifier hname

theorem normal_eq_of_template (hd : d.check = .ok ()) (he : e.check = .ok ())
    (hs : d.argument = .ok s) (hs' : e.argument = .ok s') (h : d.template = e.template) :
    d.normal = e.normal := by
  obtain ⟨k, low, high, hk, hlow, hhigh, htemplate, hname⟩ := fields hd hs
  obtain ⟨k', low', high', hk', hlow', hhigh', htemplate', hname'⟩ := fields he hs'
  obtain ⟨hlowColon, hlowValue⟩ := Scalar.value?_of_boundField hlow
  obtain ⟨hlowColon', hlowValue'⟩ := Scalar.value?_of_boundField hlow'
  obtain ⟨hhighColon, hhighValue⟩ := Scalar.value?_of_boundField hhigh
  obtain ⟨hhighColon', hhighValue'⟩ := Scalar.value?_of_boundField hhigh'
  rw [htemplate, htemplate'] at h
  -- a colon stands between fields only, so that the fields are the same one by one
  have hfields := fields_inj (List.cons_ne_nil _ _) (List.cons_ne_nil _ _)
    (by simp [hname, k.colon_not_mem_word, Numeral.colon_not_mem_spelling, hlowColon,
      hhighColon])
    (by simp [hname', k'.colon_not_mem_word, Numeral.colon_not_mem_spelling, hlowColon',
      hhighColon']) h
  simp only [List.cons.injEq, true_and, and_true] at hfields
  obtain ⟨hnames, hkinds, hheartbeats, rfl, rfl⟩ := hfields
  simp only [normal, mk.injEq]
  refine ⟨hnames, Numeral.spelling_inj hheartbeats, by rw [hk, hk', hkinds], ?_, ?_⟩
  · exact Option.some.inj (hlowValue.symm.trans hlowValue')
  · exact Option.some.inj (hhighValue.symm.trans hhighValue')

end DataSource

namespace Archive

variable {a b : Archive} {s s' : String}

/-- The fields of an archive that was written. -/
theorem fields (h : a.argument = .ok s) :
    ∃ (f : Consolidation) (x : Binary64), a.consolidation = .text f.word ∧
      a.xfilesFactor.asShare = .float x ∧
      a.template = String.intercalate ":"
        ["RRA", f.word, x.field, Numeral.spelling a.steps, Numeral.spelling a.rows] := by
  obtain ⟨f, hfunction, h⟩ := bind_eq_ok.1 h
  obtain ⟨x, hshare, -⟩ := bind_eq_ok.1 h
  have hx : a.xfilesFactor.asShare = .float x := by
    rw [Scalar.asShare, share_eq hshare]
    rfl
  refine ⟨f, x, consolidation_eq hfunction, hx, ?_⟩
  rw [template, consolidation_eq hfunction, spelledShare_eq hshare]
  rfl

theorem normal_eq_of_template (hs : a.argument = .ok s) (hs' : b.argument = .ok s')
    (h : a.template = b.template) : a.normal = b.normal := by
  obtain ⟨f, x, hf, hx, htemplate⟩ := fields hs
  obtain ⟨f', x', hf', hx', htemplate'⟩ := fields hs'
  rw [htemplate, htemplate'] at h
  have hfields := fields_inj (List.cons_ne_nil _ _) (List.cons_ne_nil _ _)
    (by simp [f.colon_not_mem_word, x.colon_not_mem_field,
      Numeral.colon_not_mem_spelling])
    (by simp [f'.colon_not_mem_word, x'.colon_not_mem_field,
      Numeral.colon_not_mem_spelling]) h
  simp only [List.cons.injEq, true_and, and_true] at hfields
  obtain ⟨hwords, hshares, hsteps, hrows⟩ := hfields
  -- the shares have the same text, and a text is read as one double
  have hvalue : Point.value? x.field.toList = some (.float x') := by
    rw [hshares]
    exact Point.value?_field x'
  rw [Point.value?_field] at hvalue
  simp only [normal, mk.injEq]
  refine ⟨by rw [hf, hf', hwords], ?_, Numeral.spelling_inj hsteps, Numeral.spelling_inj hrows⟩
  rw [hx, hx', Option.some.inj hvalue]

end Archive

namespace Series

variable {s t : Series} {line line' : String}

/-- What is known of a description that was written. -/
structure Written (s : Series) : Prop where
  sources : ∀ d ∈ s.dataSources, d.check = .ok () ∧ ∃ arg, d.argument = .ok arg
  archives : ∀ a ∈ s.archives, ∃ arg, a.argument = .ok arg

theorem written (h : s.line = .ok line) : s.Written := by
  obtain ⟨_, hcheck, h⟩ := bind_eq_ok.1 h
  obtain ⟨_, -, h⟩ := bind_eq_ok.1 h
  obtain ⟨_, -, h⟩ := bind_eq_ok.1 h
  obtain ⟨_, -, h⟩ := bind_eq_ok.1 h
  obtain ⟨sources, hsources, h⟩ := bind_eq_ok.1 h
  obtain ⟨archives, harchives, -⟩ := bind_eq_ok.1 h
  obtain ⟨hchecks, -, -⟩ := parts_of_check hcheck
  have harguments := exists_mapM_eq_ok.1 ⟨sources, hsources⟩
  exact ⟨fun d hd => ⟨hchecks d hd, harguments d hd⟩, exists_mapM_eq_ok.1 ⟨archives, harchives⟩⟩

/-- Data sources and archives are told apart by their first letters. -/
def isSourceToken (token : String) : Bool :=
  token.toList.head? == some 'D'

theorem isSourceToken_template (d : DataSource) : isSourceToken d.template := by
  rw [isSourceToken, DataSource.template, String.toList_intercalate]
  rfl

theorem not_isSourceToken_template (a : Archive) : ¬ isSourceToken a.template := by
  rw [isSourceToken, Archive.template, String.toList_intercalate]
  simp

theorem normal_eq_of_template (hs : s.line = .ok line) (ht : t.line = .ok line')
    (h : s.template = t.template) : s.normal = t.normal := by
  have hsw := written hs
  have htw := written ht
  simp only [template, List.cons_append, List.nil_append, List.cons.injEq, true_and] at h
  obtain ⟨hpath, hstep, hstart, hparts⟩ := h
  -- nothing marks where the archives begin but their first letter
  obtain ⟨hsources, harchives⟩ := append_inj_of_class
    (List.forall_mem_map.2 fun d _ => isSourceToken_template d)
    (List.forall_mem_map.2 fun d _ => isSourceToken_template d)
    (List.forall_mem_map.2 fun a _ => not_isSourceToken_template a)
    (List.forall_mem_map.2 fun a _ => not_isSourceToken_template a) hparts
  simp only [normal, mk.injEq]
  refine ⟨file_inj hpath, ?_, ?_, Numeral.spelling_inj hstart, Numeral.spelling_inj hstep⟩
  · refine map_eq_map_of (fun d hd e he hde => ?_) hsources
    obtain ⟨hcheck, _, harg⟩ := hsw.sources d hd
    obtain ⟨hcheck', _, harg'⟩ := htw.sources e he
    exact DataSource.normal_eq_of_template hcheck hcheck' harg harg' hde
  · refine map_eq_map_of (fun a ha b hb hab => ?_) harchives
    obtain ⟨_, harg⟩ := hsw.archives a ha
    obtain ⟨_, harg'⟩ := htw.archives b hb
    exact Archive.normal_eq_of_template harg harg' hab

end Series

/-! ### Queries -/

namespace Query

variable {q r : Query} {line line' : String}

/-- The tokens for the range and the columns. -/
def rangeTokens (q : Query) : List String :=
  q.start.toList.map Slot.spelled ++ q.finish.toList.map Slot.spelled ++ q.columns.getD []

/-- As nothing is left out but from the end, a token's place says what it is. -/
theorem rangeTokens_eq (h : q.checkRange = .ok ()) :
    q.start.map Slot.spelled = q.rangeTokens[0]? ∧
      q.finish.map Slot.spelled = q.rangeTokens[1]? ∧
      q.columns.getD [] = q.rangeTokens.drop 2 := by
  obtain ⟨path, consolidation, start, finish, columns⟩ := q
  cases start <;> cases finish <;> cases columns <;> simp [checkRange, rangeTokens] at h ⊢

/-- What is known of a query that was written. -/
theorem written (h : q.line = .ok line) :
    (∃ f : Consolidation, q.consolidation = .text f.word) ∧ q.checkRange = .ok () := by
  obtain ⟨_, -, h⟩ := bind_eq_ok.1 h
  obtain ⟨f, hfunction, h⟩ := bind_eq_ok.1 h
  obtain ⟨⟨⟩, hrange, -⟩ := bind_eq_ok.1 h
  exact ⟨⟨f, consolidation_eq hfunction⟩, hrange⟩

theorem filter_columns {columns others : Option (List String)}
    (h : columns.getD [] = others.getD []) :
    columns.filter (· ≠ []) = others.filter (· ≠ []) := by
  rcases columns with - | columns <;> rcases others with - | others
  · rfl
  · obtain rfl : [] = others := h
    rfl
  · obtain rfl : columns = [] := h
    rfl
  · obtain rfl : columns = others := h
    rfl

/-- The tokens of a query say what it is. -/
theorem normal_eq_of_template (hq : q.line = .ok line) (hr : r.line = .ok line')
    (h : q.template = r.template) : q.normal = r.normal := by
  obtain ⟨⟨f, hf⟩, hqrange⟩ := written hq
  obtain ⟨⟨f', hf'⟩, hrrange⟩ := written hr
  obtain ⟨hstart, hfinish, hcolumns⟩ := rangeTokens_eq hqrange
  obtain ⟨hstart', hfinish', hcolumns'⟩ := rangeTokens_eq hrrange
  simp only [template, List.append_assoc, List.cons_append, List.nil_append, List.cons.injEq,
    true_and] at h
  obtain ⟨hpath, hword, hrest⟩ := h
  have htokens : q.rangeTokens = r.rangeTokens := by
    simpa only [rangeTokens, List.append_assoc] using hrest
  have hspelled : Function.Injective Slot.spelled := fun _ _ => Slot.spelled_inj
  simp only [normal, mk.injEq]
  refine ⟨file_inj hpath, ?_, ?_, ?_, filter_columns ?_⟩
  · rw [hf, hf'] at hword ⊢
    exact congrArg Scalar.text hword
  · exact Option.map_injective hspelled (by rw [hstart, hstart', htokens])
  · exact Option.map_injective hspelled (by rw [hfinish, hfinish', htokens])
  · rw [hcolumns, hcolumns', htokens]

end Query

/-! ### Requests -/

namespace Request

/-- No command begins with the word of another kind of request. -/
theorem template_command_ne (c : Command) (rest : List String) :
    c.template ≠ "UPDATE" :: rest ∧ c.template ≠ "CREATE" :: rest ∧
      c.template ≠ "FETCH" :: rest := by
  cases c <;> simp [Command.template]

/-- The tokens of a request say what it is. -/
theorem normal_eq_of_template {r q : Request} {line line' : String} (hr : r.line = .ok line)
    (hq : q.line = .ok line') (h : r.template = q.template) : r.normal = q.normal := by
  -- the first word of a line says of which kind the request is
  cases r with
  | command c =>
    obtain ⟨hupdate, hcreate, hfetch⟩ := template_command_ne c q.template.tail
    cases q with
    | command d => exact congrArg command (Command.template_inj h)
    | update point time => exact absurd h hupdate
    | create series => exact absurd h hcreate
    | fetch query => exact absurd h hfetch
  | update p time =>
    cases q with
    | command d => exact absurd h.symm (template_command_ne d _).1
    | update p' time' =>
      obtain ⟨hpoint, rfl⟩ := Point.normal_eq_of_template hr hq h
      exact congrArg (update · time) hpoint
    | create _ | fetch _ => simp [template, Point.template, Series.template, Query.template] at h
  | create s =>
    cases q with
    | command d => exact absurd h.symm (template_command_ne d _).2.1
    | create t => exact congrArg create (Series.normal_eq_of_template hr hq h)
    | update _ _ | fetch _ =>
      simp [template, Point.template, Series.template, Query.template] at h
  | fetch s =>
    cases q with
    | command d => exact absurd h.symm (template_command_ne d _).2.2
    | fetch t => exact congrArg fetch (Query.normal_eq_of_template hr hq h)
    | update _ _ | create _ =>
      simp [template, Point.template, Series.template, Query.template] at h

/-- Two requests have the same line exactly if they mean the same. -/
theorem same_line_iff {r q : Request} {line line' : String} (hr : r.line = .ok line)
    (hq : q.line = .ok line') : line = line' ↔ r.normal = q.normal := by
  obtain ⟨rfl, htokens⟩ := line_eq hr
  obtain ⟨rfl, htokens'⟩ := line_eq hq
  constructor
  · intro h
    have htemplate := tokenLine_inj r.template_ne_nil q.template_ne_nil htokens htokens' h
    exact normal_eq_of_template hr hq htemplate
  · intro h
    rw [← template_normal, h, template_normal]

/-- A database whose source has no bounds, with a whole number for a share. -/
def unbounded : Request :=
  create {
    path := "cpu"
    dataSources := [{ name := "load", heartbeat := 60 }]
    archives := [⟨.text "LAST", .int 0, 1, 10⟩]
    start := 0
    step := 10 }

/-- The same database with all numbers as doubles. -/
def unboundedDoubles : Request :=
  create {
    path := "cpu"
    dataSources := [⟨"load", 60, .text "GAUGE", .float .nan, .float .nan⟩]
    archives := [⟨.text "LAST", .float (.finite false .zero), 1, 10⟩]
    start := 0
    step := 10 }

theorem same_line_unbounded :
    unbounded.line = .ok "CREATE cpu.rrd -s 10 -b 0 DS:load:GAUGE:60:U:U RRA:LAST:0.0:1:10\n" ∧
      unboundedDoubles.line
        = .ok "CREATE cpu.rrd -s 10 -b 0 DS:load:GAUGE:60:U:U RRA:LAST:0.0:1:10\n" ∧
      unbounded ≠ unboundedDoubles ∧ unbounded.normal = unboundedDoubles.normal := by
  have hline : unbounded.line
      = .ok "CREATE cpu.rrd -s 10 -b 0 DS:load:GAUGE:60:U:U RRA:LAST:0.0:1:10\n" := by
    decide +kernel
  have hline' : unboundedDoubles.line
      = .ok "CREATE cpu.rrd -s 10 -b 0 DS:load:GAUGE:60:U:U RRA:LAST:0.0:1:10\n" := by
    decide +kernel
  exact ⟨hline, hline', by decide, (same_line_iff hline hline').1 rfl⟩

end Request

end RrdCache
