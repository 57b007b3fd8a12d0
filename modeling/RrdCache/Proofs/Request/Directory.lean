/-
RrdCache/Proofs/Request/Directory.lean

Which texts are directories.  The check cuts the slashes off at both ends, cuts the rest at its
slashes, and looks at one segment after the other; the root is let through before that.  The
grammar of directories knows nothing of this: it is a single slash, or segments with single
slashes between them and any slashes around them.

Main result (`checkDirectory_exact`): the check accepts the grammar and nothing else, and
whatever it accepts has no empty segment inside, no dots and no white space.
-/
import RrdCache.Proofs.Address.RoundTrip
import RrdCache.Proofs.Request.Rules

namespace RrdCache

/-! ### The grammar -/

/-- The text of a segment: 1 to 64 ASCII letters, digits, underscores and dashes. -/
def IsSegment (s : List Char) : Prop :=
  (1 ≤ s.length ∧ s.length ≤ 64) ∧ ∀ c ∈ s, c.isAlphanum ∨ c = '_' ∨ c = '-'

/-- The text is a run of slashes; it may be empty. -/
def IsSlashes (s : List Char) : Prop :=
  ∀ c ∈ s, c = '/'

/-- Segments with single slashes between them, and any slashes around them. -/
structure SlashPath where
  front : List Char
  segments : List (List Char)
  back : List Char
  front_isSlashes : IsSlashes front
  segments_ne_nil : segments ≠ []
  segments_isSegment : ∀ s ∈ segments, IsSegment s
  back_isSlashes : IsSlashes back

namespace SlashPath

/-- The characters of a path without the slashes around it. -/
def joined (p : SlashPath) : List Char := ['/'].intercalate p.segments

/-- The characters of a path. -/
def text (p : SlashPath) : List Char := p.front ++ p.joined ++ p.back

end SlashPath

/-- The text of a directory: the root, or a path. -/
inductive IsDirectory : List Char → Prop
  | root : IsDirectory ['/']
  | path (p : SlashPath) : IsDirectory p.text

/-- What a directory is free of. -/
structure IsTidy (s : List Char) : Prop where
  /-- A segment is empty only in front of all others or behind them. -/
  no_gap : ∀ before after, s.splitOn '/' = before ++ [] :: after →
    (∀ t ∈ before, t = []) ∨ (∀ t ∈ after, t = [])
  no_dots : ['.'] ∉ s.splitOn '/' ∧ ['.', '.'] ∉ s.splitOn '/'
  no_blanks : ∀ c ∈ s, isBlank c = false ∧ c ≠ '\n'

/-- The errors of a text that is no identifier or no directory. -/
inductive Error.IsIdentifier : Error → Prop
  | identifier (role value : String) (problem : IdentifierProblem) :
      IsIdentifier (.identifier role value problem)
  | directory (value : String) : IsIdentifier (.directory value)

/-! ### Cutting off at both ends -/

section Trim

variable {p : Char → Bool} {s : List Char}

/-- A text is what is cut off in front, what is left, and what is cut off behind. -/
theorem exists_trim (p : Char → Bool) (s : List Char) :
    ∃ front back, s = front ++ trim p s ++ back ∧ (∀ c ∈ front, p c) ∧ ∀ c ∈ back, p c := by
  refine ⟨s.takeWhile p, ((s.dropWhile p).reverse.takeWhile p).reverse, ?_,
    fun c hc => List.mem_takeWhile_imp hc,
    fun c hc => List.mem_takeWhile_imp (List.mem_reverse.1 hc)⟩
  rw [List.append_assoc, trim, trimEnd, ← List.reverse_append, List.takeWhile_append_dropWhile,
    List.reverse_reverse, List.takeWhile_append_dropWhile]

/-- What begins and ends outside of the class is left. -/
theorem trim_append {front back : List Char} (hfront : ∀ c ∈ front, p c)
    (hback : ∀ c ∈ back, p c) (hne : s ≠ []) (hfirst : Scan.Ends p s)
    (hlast : Scan.Ends p s.reverse) : trim p (front ++ s ++ back) = s := by
  have hrest : Scan.Ends p (s ++ back) := (Scan.ends_append hne).2 hfirst
  rw [List.append_assoc, trim, Scan.dropWhile_append_of_ends hfront hrest, trimEnd,
    List.reverse_append, Scan.dropWhile_append_of_ends (by simpa using hback) hlast,
    List.reverse_reverse]

end Trim

/-! ### Segments -/

theorem isIdentifierChar_iff {c : Char} :
    isIdentifierChar c ↔ c.isAlphanum ∨ c = '_' ∨ c = '-' := by
  rw [isIdentifierChar, Bool.or_eq_true, Bool.or_eq_true, beq_iff_eq, beq_iff_eq, or_assoc]

/-- A segment is what passes for an identifier. -/
theorem isSegment_iff {s : List Char} {role : String} :
    IsSegment s ↔ checkIdentifier role (String.ofList s) = .ok () := by
  have hrules := (follows_checkIdentifier role (String.ofList s)).isOk_iff
  simp only [identifierRules, List.forall_mem_cons, List.not_mem_nil, false_implies, implies_true,
    and_true, String.toList_ofList, isIdentifierChar_iff] at hrules
  rw [Unique.exists_iff] at hrules
  exact hrules.symm

namespace IsSegment

variable {s : List Char}

theorem ne_nil (hs : IsSegment s) : s ≠ [] :=
  List.ne_nil_of_length_pos hs.1.1

theorem isGraphic (hs : IsSegment s) : ∀ c ∈ s, isGraphic c := by
  intro c hc
  rcases hs.2 c hc with h | rfl | rfl
  · exact isGraphic_of_isAlphanum h
  · decide
  · decide

/-- A mark that is neither a letter nor a digit, an underscore or a dash stands in no segment. -/
theorem not_mem (hs : IsSegment s) {c : Char}
    (hc : ¬ (c.isAlphanum ∨ c = '_' ∨ c = '-') := by decide) : c ∉ s :=
  fun h => hc (hs.2 c h)

end IsSegment

/-- Slashes have nothing between them. -/
theorem splitOn_slashes {s : List Char} (h : IsSlashes s) : ∀ t ∈ s.splitOn '/', t = [] := by
  induction s with
  | nil => simp
  | cons c s ih =>
    obtain ⟨rfl, hlater⟩ := List.forall_mem_cons.1 h
    rw [List.splitOn_cons_eq_if_modifyHead, if_pos (by decide)]
    exact List.forall_mem_cons.2 ⟨rfl, ih hlater⟩

namespace SlashPath

variable (p : SlashPath)

theorem nil_not_mem : [] ∉ p.segments := fun h =>
  (p.segments_isSegment [] h).ne_nil rfl

theorem splitOn_joined : p.joined.splitOn '/' = p.segments :=
  List.splitOn_intercalate '/' (fun s hs => (p.segments_isSegment s hs).not_mem) p.segments_ne_nil

/-! A path that is empty, or that begins or ends with a slash, is cut into an empty text among
others, which is no segment. -/

theorem joined_ne_nil : p.joined ≠ [] := by
  intro h
  have hcut := p.splitOn_joined
  rw [h, List.splitOn_nil] at hcut
  exact p.nil_not_mem (hcut ▸ List.mem_singleton_self [])

theorem ends_joined : Scan.Ends (· == '/') p.joined := by
  rcases h : p.joined with - | ⟨c, s⟩
  · exact Scan.ends_nil
  · have hcut := p.splitOn_joined
    rw [h, List.splitOn_cons_eq_if_modifyHead] at hcut
    rw [Scan.ends_cons, beq_eq_false_iff_ne]
    rintro rfl
    rw [if_pos (by decide)] at hcut
    exact p.nil_not_mem (hcut ▸ List.mem_cons_self)

theorem ends_reverse_joined : Scan.Ends (· == '/') p.joined.reverse := by
  rcases h : p.joined.reverse with - | ⟨c, s⟩
  · exact Scan.ends_nil
  · have hcut := p.splitOn_joined
    rw [List.reverse_eq_cons_iff.1 h] at hcut
    rw [Scan.ends_cons, beq_eq_false_iff_ne]
    rintro rfl
    rw [List.splitOn_append_cons_self, List.splitOn_nil] at hcut
    exact p.nil_not_mem (hcut ▸ List.mem_append_right _ List.mem_cons_self)

/-- The check cuts a path out of the slashes around it. -/
theorem trim_text : trim (· == '/') p.text = p.joined :=
  trim_append (fun c hc => beq_iff_eq.2 (p.front_isSlashes c hc))
    (fun c hc => beq_iff_eq.2 (p.back_isSlashes c hc)) p.joined_ne_nil p.ends_joined
    p.ends_reverse_joined

theorem splitOn_joined_append {back : List Char} (h : IsSlashes back) :
    ∃ after, (p.joined ++ back).splitOn '/' = p.segments ++ after ∧ ∀ t ∈ after, t = [] := by
  cases back with
  | nil => exact ⟨[], by simp [splitOn_joined], List.forall_mem_nil _⟩
  | cons c back =>
    obtain ⟨rfl, hlater⟩ := List.forall_mem_cons.1 h
    refine ⟨back.splitOn '/', ?_, splitOn_slashes hlater⟩
    rw [List.splitOn_append_cons_self, splitOn_joined]

/-- Cutting at all slashes gives the segments, with empty texts in front of them and behind. -/
theorem splitOn_text :
    ∃ before after, p.text.splitOn '/' = before ++ (p.segments ++ after) ∧
      (∀ t ∈ before, t = []) ∧ ∀ t ∈ after, t = [] := by
  obtain ⟨after, hcut, hafter⟩ := p.splitOn_joined_append p.back_isSlashes
  have hfront := p.front_isSlashes
  rw [text, List.append_assoc]
  generalize p.front = front at hfront ⊢
  induction front with
  | nil => exact ⟨[], after, hcut, List.forall_mem_nil _, hafter⟩
  | cons c front ih =>
    obtain ⟨rfl, hlater⟩ := List.forall_mem_cons.1 hfront
    obtain ⟨before, after, hsplit, hbefore, hafter⟩ := ih hlater
    refine ⟨[] :: before, after, ?_, List.forall_mem_cons.2 ⟨rfl, hbefore⟩, hafter⟩
    rw [List.cons_append, List.splitOn_cons_eq_if_modifyHead, if_pos (by decide), hsplit]
    rfl

end SlashPath

/-! ### The check -/

/-- The rules for a directory that is not the root: it has more than slashes, and its segments
are identifiers. -/
def directoryRules (value : String) : List Rule :=
  ⟨trim (· == '/') value.toList ≠ [], .directory value⟩ ::
    (directorySegments value).flatMap (identifierRules "directory segment")

theorem follows_checkDirectory {value : String} (hroot : value ≠ "/") :
    Follows (checkDirectory value) (directoryRules value) := by
  intro e
  rw [checkDirectory, if_neg hroot, directoryRules, firstBroken_cons]
  by_cases hempty : trim (· == '/') value.toList = []
  · simp [hempty]
  · rw [if_neg (by simpa using hempty),
      Follows.forM (fun s _ => follows_checkIdentifier "directory segment" s) e]
    simp [hempty]

/-- Each rule for a directory says of something that it is no identifier or no directory. -/
theorem isIdentifier_of_directoryRules {value : String} {r : Rule} (hr : r ∈ directoryRules value) :
    r.error.IsIdentifier := by
  rcases List.mem_cons.1 hr with rfl | hr
  · exact .directory value
  · obtain ⟨s, -, hr⟩ := List.mem_flatMap.1 hr
    rcases List.mem_cons.1 hr with rfl | hr
    · exact .identifier _ _ _
    · obtain rfl := List.mem_singleton.1 hr
      exact .identifier _ _ _

theorem isIdentifier_of_checkDirectory {value : String} {e : Error}
    (h : checkDirectory value = .error e) : e.IsIdentifier := by
  have hroot : value ≠ "/" := by
    rintro rfl
    cases h
  obtain ⟨before, r, after, hrules, -, -, rfl⟩ := (follows_checkDirectory hroot e).1 h
  apply isIdentifier_of_directoryRules
  rw [hrules]
  exact List.mem_append_right _ List.mem_cons_self

/-- The segments that the check looks at. -/
theorem checkDirectory_eq_ok {value : String} (hroot : value ≠ "/") :
    checkDirectory value = .ok () ↔ trim (· == '/') value.toList ≠ [] ∧
      ∀ s ∈ (trim (· == '/') value.toList).splitOn '/', IsSegment s := by
  rw [checkDirectory, if_neg hroot]
  split
  · rename_i hempty
    simp [List.isEmpty_iff.1 hempty]
  · rename_i hempty
    rw [Result.forM_eq_ok, directorySegments, List.forall_mem_map,
      and_iff_right (List.isEmpty_iff.not.1 hempty)]
    exact forall₂_congr fun s _ => isSegment_iff.symm

/-- The check accepts the grammar and nothing else. -/
theorem checkDirectory_iff {value : String} :
    checkDirectory value = .ok () ↔ IsDirectory value.toList := by
  by_cases hroot : value = "/"
  · subst hroot
    exact iff_of_true (if_pos rfl) .root
  rw [checkDirectory_eq_ok hroot]
  constructor
  · rintro ⟨-, hsegments⟩
    obtain ⟨front, back, hvalue, hfront, hback⟩ := exists_trim (· == '/') value.toList
    have hjoined : ['/'].intercalate ((trim (· == '/') value.toList).splitOn '/')
        = trim (· == '/') value.toList := List.intercalate_splitOn '/'
    rw [hvalue, ← hjoined]
    exact .path ⟨front, _, back, fun c hc => beq_iff_eq.1 (hfront c hc),
      List.splitOn_ne_nil _ _, hsegments, fun c hc => beq_iff_eq.1 (hback c hc)⟩
  · intro h
    generalize htext : value.toList = text at h
    cases h with
    | root => exact absurd (String.toList_inj.1 htext) hroot
    | path p =>
      rw [p.trim_text, p.splitOn_joined]
      exact ⟨p.joined_ne_nil, p.segments_isSegment⟩

example : checkDirectory "/a//b/" = .error (.identifier "directory segment" "" .length) := by decide

/-! ### What directories are free of -/

/-- A graphic character is not white space. -/
theorem isBlank_of_isGraphic {c : Char} (h : isGraphic c) : isBlank c = false := by
  have hall : ∀ n < 0x7F, 0x21 ≤ n → isBlank (Char.ofNat n) = false := by decide +kernel
  obtain ⟨hlow, hhigh⟩ := isGraphic_iff.1 h
  have hc := hall c.toNat (by omega) hlow
  rwa [Char.ofNat_toNat] at hc

namespace IsDirectory

variable {s : List Char}

theorem isGraphic (h : IsDirectory s) : ∀ c ∈ s, isGraphic c := by
  cases h with
  | root => exact List.all_eq_true.1 (by decide)
  | path p =>
    have hslash : isGraphic '/' := by decide
    intro c hc
    rcases List.mem_append.1 hc with hc | hc
    · rcases List.mem_append.1 hc with hc | hc
      · rwa [p.front_isSlashes c hc]
      · rcases mem_intercalate hc with hc | ⟨t, ht, hc⟩
        · rwa [List.mem_singleton.1 hc]
        · exact (p.segments_isSegment t ht).isGraphic c hc
    · rwa [p.back_isSlashes c hc]

/-- A text between two slashes of a directory is empty or a segment. -/
theorem eq_nil_or_isSegment (h : IsDirectory s) {t : List Char} (ht : t ∈ s.splitOn '/') :
    t = [] ∨ IsSegment t := by
  cases h with
  | root => exact .inl (splitOn_slashes (by simp [IsSlashes]) t ht)
  | path p =>
    obtain ⟨before, after, hsplit, hbefore, hafter⟩ := p.splitOn_text
    rw [hsplit, List.mem_append, List.mem_append] at ht
    rcases ht with ht | ht | ht
    · exact .inl (hbefore t ht)
    · exact .inr (p.segments_isSegment t ht)
    · exact .inl (hafter t ht)

/-- The empty texts between slashes stand in front of all segments or behind them. -/
theorem no_gap (h : IsDirectory s) {before after : List (List Char)}
    (hcut : s.splitOn '/' = before ++ [] :: after) :
    (∀ t ∈ before, t = []) ∨ (∀ t ∈ after, t = []) := by
  cases h with
  | root =>
    have hslash : IsSlashes ['/'] := by simp [IsSlashes]
    refine .inl fun t ht => splitOn_slashes hslash t ?_
    rw [hcut]
    exact List.mem_append_left _ ht
  | path p =>
    obtain ⟨front, back, hsplit, hfront, hback⟩ := p.splitOn_text
    rw [hsplit] at hcut
    rcases List.append_eq_append_iff.1 hcut with ⟨middle, rfl, hrest⟩ | ⟨middle, rfl, -⟩
    · -- it is not one of the segments, so that it comes behind all of them
      refine .inr fun t ht => hback t ?_
      rcases List.append_eq_append_iff.1 hrest with ⟨gap, -, rfl⟩ | ⟨- | ⟨u, gap⟩, hsegments, hgap⟩
      · exact List.mem_append_right _ (List.mem_cons_of_mem _ ht)
      · obtain rfl := hgap
        exact List.mem_cons_of_mem _ ht
      · obtain ⟨rfl, -⟩ := List.cons.inj hgap
        exact absurd (hsegments ▸ List.mem_append_right _ List.mem_cons_self) p.nil_not_mem
    · exact .inl fun t ht => hfront t (List.mem_append_left _ ht)

theorem isTidy (h : IsDirectory s) : IsTidy s where
  no_gap _ _ := h.no_gap
  no_dots := by
    constructor <;> intro hdot
    all_goals
      rcases h.eq_nil_or_isSegment hdot with hnil | hsegment
      · cases hnil
      · exact hsegment.not_mem (c := '.') (by decide) List.mem_cons_self
  no_blanks c hc := by
    have hgraphic := h.isGraphic c hc
    refine ⟨isBlank_of_isGraphic hgraphic, ?_⟩
    rintro rfl
    exact absurd hgraphic (by decide)

end IsDirectory

/-- A text is accepted if it is a directory, and refused as no identifier if it is none; a
directory has no empty segment inside, no dots and no white space. -/
theorem checkDirectory_exact (value : String) :
    (checkDirectory value = .ok () ↔ IsDirectory value.toList) ∧
      (¬ IsDirectory value.toList → ∃ e, checkDirectory value = .error e ∧ e.IsIdentifier) ∧
      (checkDirectory value = .ok () → IsTidy value.toList) := by
  refine ⟨checkDirectory_iff, fun hnot => ?_, fun h => (checkDirectory_iff.1 h).isTidy⟩
  rcases hcheck : checkDirectory value with e | ⟨⟨⟩⟩
  · exact ⟨e, rfl, isIdentifier_of_checkDirectory hcheck⟩
  · exact absurd (checkDirectory_iff.1 hcheck) hnot

end RrdCache
