/-
RrdCache/Proofs/Reply/Bodies.lean

What calls make of the body of a reply: of the lines after its status line.  A body of texts is
given back as it came, line by line.  A body of entries is read line by line if all of its lines
are entries, and otherwise its first other line is the error (`ReadsEach`).  Statistics are then
collected by name (`IsDictionary`).

Main result (`returnsBody_decode`): this is what each of the calls that ask for lines makes of a
body, whatever stands in it.
-/
import Mathlib.Data.List.Induction
import RrdCache.Proofs.Client.Course
import RrdCache.Proofs.Escape.Basic
import RrdCache.Proofs.Reply.Lines
import RrdCache.Proofs.Session.Batch

namespace RrdCache

/-! ### Bodies of texts -/

/-- Texts that are the lines of a body: as many as these, and verbatim with a line feed behind
each. -/
structure IsBody (body : List (List Char)) (texts : List String) : Prop where
  lines : texts.map String.toList = body
  length : texts.length = body.length
  bytes : (texts.flatMap fun t => utf8 t.toList ++ [10]) = body.flatMap lineBytes

/-- Whatever stands in the lines of a reply, taking their line feeds off gives the body. -/
theorem isBody_lines (r : WireReply) : IsBody r.body (r.lines.map chomp) := by
  rw [Client.chomp_lines]
  refine ⟨?_, List.length_map _, ?_⟩
  · rw [List.map_map]
    exact (List.map_congr_left fun line _ => String.toList_ofList).trans (List.map_id _)
  · rw [List.flatMap_map]
    simp only [String.toList_ofList]
    rfl

/-! ### Bodies of entries -/

/-- A line of a body with its line feed, as it is read. -/
def ended (l : List Char) : String :=
  String.ofList (l ++ ['\n'])

@[simp] theorem toList_ended (l : List Char) : (ended l).toList = l ++ ['\n'] :=
  String.toList_ofList

theorem WireReply.lines_eq (r : WireReply) : r.lines = r.body.map ended := rfl

/-- Some digits that stand together in a text are too many to be converted. -/
def HasLongRun (s : List Char) : Prop :=
  ∃ run, run <:+: s ∧ (∀ c ∈ run, c.isDigit) ∧ Numeral.digitLimit < run.length

/-- What comes of reading the lines of a body one by one.  The lines that can be read are those
of a documented shape, and what is read from one is the value of the parts that it has. -/
structure ReadsEach {Parts α : Type} (Documented : List Char → Prop) (line : Parts → List Char)
    (value : Parts → α) (malformed : String → LineError) (body : List (List Char))
    (read : Except Error (List α)) : Prop where
  returns : (∃ all, read = .ok all) ↔ ∀ l ∈ body, Documented (l ++ ['\n'])
  /-- There is one value for each line, in the order of the lines. -/
  in_order : ∀ all, read = .ok all →
    List.Forall₂ (fun l a => ∃ p, line p = l ++ ['\n'] ∧ value p = a) body all
  /-- If a line is of another shape, the first such line is the error, unless it is the length
  of a number that keeps a line from being read. -/
  raises : (¬ ∀ l ∈ body, Documented (l ++ ['\n'])) → (∀ l ∈ body, ¬ HasLongRun l) →
    FirstIs (fun l => Documented (l ++ ['\n']))
      (fun l => ¬ Documented (l ++ ['\n']) ∧ read = .error (.line (malformed (ended l)))) body

section ReadsEach

variable {Parts α : Type} {Documented : List Char → Prop} {Prints : String → α → Prop}
  {line : Parts → List Char} {value : Parts → α} {read : String → Except Error α}
  {malformed : String → LineError}

/-- Reading each line of a body follows from reading one line. -/
theorem ReadsOnce.readsEach (h : ReadsOnce Documented Prints line value read)
    (hother : ∀ l, ¬ Documented (l ++ ['\n']) → ¬ HasLongRun l →
      read (ended l) = .error (.line (malformed (ended l))))
    (r : WireReply) : ReadsEach Documented line value malformed r.body (r.lines.mapM read) where
  returns := by
    rw [Result.exists_mapM_eq_ok, r.lines_eq, List.forall_mem_map]
    refine forall₂_congr fun l _ => ?_
    rw [h.returns, toList_ended]
  in_order all hall := by
    rw [Result.mapM_eq_ok, r.lines_eq, List.forall₂_map_left_iff] at hall
    refine hall.imp fun l a hread => ?_
    rw [← toList_ended]
    exact h.parts _ _ hread
  raises hbad hshort := by
    obtain ⟨before, l, after, hbody, hbefore, hl⟩ := exists_firstIs hbad
    refine ⟨before, l, after, hbody, hbefore, hl, Result.mapM_eq_error.2 ?_⟩
    refine ⟨before.map ended, ended l, after.map ended, ?_, ?_, hother l hl (hshort l ?_)⟩
    · rw [r.lines_eq, hbody, List.map_append, List.map_cons]
    · rw [List.forall_mem_map]
      intro l' hl'
      rw [h.returns, toList_ended]
      exact hbefore l' hl'
    · rw [hbody]
      exact List.mem_append_right _ List.mem_cons_self

end ReadsEach

/-- Digits within a line that is too long to be one of its numbers. -/
theorem hasLongRun_of_line {l digits : List Char} (front back : List Char)
    (h : front ++ digits ++ back ++ ['\n'] = l ++ ['\n']) (hdigits : Shape.IsDigits digits)
    (hlong : Numeral.digitLimit < digits.length) : HasLongRun l :=
  ⟨digits, ⟨front, back, List.append_cancel_right h⟩, hdigits.2, hlong⟩

theorem QueueEntry.ofLine_other {l : List Char} (h : ¬ Documented (l ++ ['\n']))
    (hshort : ¬ HasLongRun l) :
    ofLine (ended l) = .error (.line (.queue (ended l))) := by
  rw [ofLine, toList_ended]
  split
  · rfl
  · rename_i count path hsplit
    obtain ⟨q, hline, -⟩ := exists_of_split? hsplit
    exfalso
    rcases Nat.lt_or_ge Numeral.digitLimit q.digits.length with hlong | hlength
    · refine hshort (hasLongRun_of_line [] (q.gap ++ q.path) ?_ q.digits_isDigits hlong)
      rw [← hline, QueueLine.line]
      simp
    · exact h (documented_iff.2 ⟨q, hline, hlength⟩)

theorem Statistic.ofLine_other {l : List Char} (h : ¬ Documented (l ++ ['\n']))
    (hshort : ¬ HasLongRun l) :
    ofLine (ended l) = .error (.line (.stats (ended l))) := by
  rw [ofLine, toList_ended]
  split
  · rfl
  · rename_i name number hsplit
    obtain ⟨m, hline, -⟩ := exists_of_split? hsplit
    exfalso
    rcases Nat.lt_or_ge Numeral.digitLimit m.digits.length with hlong | hlength
    · refine hshort (hasLongRun_of_line (m.name ++ ':' :: (m.gap ++ m.sign)) [] ?_
        m.digits_isDigits hlong)
      rw [← hline, StatisticLine.line]
      simp
    · exact h (documented_iff.2 ⟨m, hline, hlength⟩)

/-! ### Statistics by name -/

/-- Statistics by name: each name once, in the order in which the names first appear, and with
the last value that was read for it. -/
structure IsDictionary (read all : List Statistic) : Prop where
  names : all.map Statistic.name = (read.map Statistic.name).eraseDups
  distinct : (all.map Statistic.name).Nodup
  last : ∀ s ∈ all, ∃ before after, read = before ++ s :: after ∧ ∀ t ∈ after, t.name ≠ s.name

namespace Statistic

variable {s t : Statistic} {all : List Statistic}

/-- A name that is not known yet goes to the end. -/
theorem names_put (s : Statistic) (all : List Statistic) :
    (s.put all).map name
      = if s.name ∈ all.map name then all.map name else all.map name ++ [s.name] := by
  induction all with
  | nil => rfl
  | cons t all ih =>
    rw [put, List.map_cons]
    by_cases ht : t.name = s.name
    · simp [ht]
    · rw [if_neg ht, List.map_cons, ih]
      by_cases hmem : s.name ∈ all.map name
      · rw [if_pos hmem, if_pos (List.mem_cons_of_mem _ hmem)]
      · rw [if_neg hmem, if_neg (by simp [Ne.symm ht, hmem])]
        rfl

/-- A statistic takes the place of the one with its name, and no other one is touched. -/
theorem mem_put (hall : (all.map name).Nodup) (h : t ∈ s.put all) :
    t = s ∨ (t ∈ all ∧ t.name ≠ s.name) := by
  induction all with
  | nil => exact .inl (List.mem_singleton.1 h)
  | cons u all ih =>
    obtain ⟨hu, hall⟩ := List.nodup_cons.1 hall
    rw [put] at h
    split at h
    · rename_i hname
      rcases List.mem_cons.1 h with rfl | h
      · exact .inl rfl
      · refine .inr ⟨List.mem_cons_of_mem _ h, fun htname => hu ?_⟩
        rw [hname, ← htname]
        exact List.mem_map_of_mem h
    · rename_i hname
      rcases List.mem_cons.1 h with rfl | h
      · exact .inr ⟨List.mem_cons_self, hname⟩
      · exact (ih hall h).imp id fun h => ⟨List.mem_cons_of_mem _ h.1, h.2⟩

theorem collect_append (read : List Statistic) (s : Statistic) :
    collect (read ++ [s]) = s.put (collect read) := by
  rw [collect, List.foldl_append]
  rfl

/-- Collecting what was read gives a dictionary.  The induction is on the statistics from the
last one on, since each of them overrides those before it. -/
theorem isDictionary_collect (read : List Statistic) : IsDictionary read (collect read) := by
  induction read using List.reverseRecOn with
  | nil => exact ⟨rfl, List.nodup_nil, by simp [collect]⟩
  | append_singleton read s ih =>
    rw [collect_append]
    have hknown : s.name ∈ (collect read).map name ↔ s.name ∈ read.map name := by
      rw [ih.names, List.mem_eraseDups]
    refine ⟨?_, ?_, ?_⟩
    · rw [names_put, List.map_append, List.map_singleton, List.eraseDups_append, ← ih.names,
        List.cons_removeAll, List.removeAll]
      by_cases hs : s.name ∈ read.map name
      · simp [hknown.2 hs, hs]
      · simp [mt hknown.1 hs, hs, List.eraseDups_cons]
    · rw [names_put]
      split
      · exact ih.distinct
      · rename_i hnew
        refine List.nodup_append.2 ⟨ih.distinct, List.pairwise_singleton _ _, ?_⟩
        rintro n hn _ hs rfl
        exact hnew (List.mem_singleton.1 hs ▸ hn)
    · intro t ht
      rcases mem_put ih.distinct ht with rfl | ⟨ht, hname⟩
      · exact ⟨read, [], rfl, by simp⟩
      · obtain ⟨before, after, rfl, hafter⟩ := ih.last t ht
        refine ⟨before, after ++ [s], by simp, ?_⟩
        rw [List.forall_mem_append]
        exact ⟨hafter, by simpa using Ne.symm hname⟩

example : collect [⟨"A", 1⟩, ⟨"B", 2⟩, ⟨"A", 3⟩] = [⟨"A", 3⟩, ⟨"B", 2⟩] := by decide

end Statistic

/-! ### Calls that ask for lines -/

/-- The calls that give back what stands in the lines of a reply, line by line. -/
def Call.AsksForLines : Call → Prop
  | help _ | info _ | list _ _ | pending _ | queue | stats => True
  | _ => False

/-- What a call that asks for lines returns for the body of a reply. -/
inductive ReturnsBody (r : WireReply) : Call → Except Error Outcome → Prop
  | help {topic : Option String} {texts : List String} (isBody : IsBody r.body texts) :
    ReturnsBody r (.help topic) (.ok (.help r.text texts))
  | info {path : String} {texts : List String} (isBody : IsBody r.body texts) :
    ReturnsBody r (.info path) (.ok (.texts texts))
  | list {path : String} {recursive : Bool} {texts : List String} (isBody : IsBody r.body texts) :
    ReturnsBody r (.list path recursive) (.ok (.texts texts))
  | pending {path : String} {texts : List String} (isBody : IsBody r.body texts) :
    ReturnsBody r (.pending path) (.ok (.texts texts))
  | queue {read : Except Error (List QueueEntry)}
      (reads : ReadsEach QueueEntry.Documented QueueLine.line QueueLine.entry .queue r.body read) :
    ReturnsBody r .queue (.queue <$> read)
  | stats {read : Except Error (List Statistic)} {dictionary : List Statistic → List Statistic}
      (reads : ReadsEach Statistic.Documented StatisticLine.line StatisticLine.statistic .stats
        r.body read)
      (collects : ∀ all, IsDictionary all (dictionary all)) :
    ReturnsBody r .stats ((fun all => .stats (dictionary all)) <$> read)

/-- A call that asks for lines sends one request, and makes this of the reply to it. -/
theorem returnsBody_decode {c : Call} (hc : c.AsksForLines) :
    ∃ request decode, c.course = .order request decode ∧
      ∀ r : WireReply, ReturnsBody r c (decode ⟨r.text, r.lines⟩) := by
  cases c with
  | help topic => exact ⟨_, _, rfl, fun r => .help (isBody_lines r)⟩
  | info path => exact ⟨_, _, rfl, fun r => .info (isBody_lines r)⟩
  | list path recursive => exact ⟨_, _, rfl, fun r => .list (isBody_lines r)⟩
  | pending path => exact ⟨_, _, rfl, fun r => .pending (isBody_lines r)⟩
  | queue =>
    have hreads := QueueEntry.reads_once.readsEach fun _ => QueueEntry.ofLine_other
    exact ⟨_, _, rfl, fun r => .queue (hreads r)⟩
  | stats =>
    have hreads := Statistic.reads_once.readsEach fun _ => Statistic.ofLine_other
    exact ⟨_, _, rfl, fun r => .stats (hreads r) Statistic.isDictionary_collect⟩
  | _ => exact absurd hc id

end RrdCache
