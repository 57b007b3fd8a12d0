/-
RrdCache/Proofs/Request/Normal.lean

Normal forms of requests.  A caller can ask for one thing in several ways: a value of an
update may be a number or a text that spells it, a bound may be left out or be no number, a
share may be given as a whole number, and no columns are the same as an empty list of them.
The normal form of a request settles on one of these ways and changes nothing else; the time
of an update is the one that was found for it.

What stands on the wire is the same for a request and its normal form
(`Request.template_normal`), and the text of a number reads as the number's normal form.
-/
import RrdCache.Proofs.Request.RoundTrip
import RrdCache.Proofs.Request.Template

namespace RrdCache

/-! ### Numbers -/

namespace Scalar

/-- A text counts as the double that it spells. -/
def asNumber : Scalar → Scalar
  | text s => ((Binary64.ofText? s.toList).map float).getD (text s)
  | v => v

/-- A bound that is missing is no number. -/
def asBound (v : Scalar) : Scalar :=
  if v = null then float .nan else v.asNumber

/-- A share counts as a double. -/
def asShare (v : Scalar) : Scalar :=
  (v.toBinary64?.map float).getD v

theorem ComesBackAs.eq_asNumber {v u : Scalar} (h : v.ComesBackAs u) : u = v.asNumber := by
  cases h with
  | int i => rfl
  | float x => rfl
  | text s x hx => rw [asNumber, hx]; rfl

/-- Values come back as the numbers that they are. -/
theorem eq_map_asNumber {vs us : List Scalar} (h : List.Forall₂ ComesBackAs vs us) :
    us = vs.map asNumber := by
  induction h with
  | nil => rfl
  | cons hfirst _ ih => rw [List.map_cons, hfirst.eq_asNumber, ih]

@[simp] theorem spelled_asNumber (v : Scalar) : v.asNumber.spelled = v.spelled := by
  cases v with
  | text s =>
    rw [asNumber, spelled]
    rcases hx : Binary64.ofText? s.toList with - | x
    · simp [spelled, hx]
    · rfl
  | null | bool _ | int _ | float _ | blank => rfl

@[simp] theorem spelledBound_asBound (v : Scalar) : v.asBound.spelledBound = v.spelledBound := by
  rw [asBound]
  split
  · rename_i hnull
    rw [hnull]
    rfl
  · rename_i hnull
    have hnumber : v.asNumber ≠ null := by
      cases v with
      | text s =>
        rw [asNumber]
        rcases Binary64.ofText? s.toList with - | x <;> exact Scalar.noConfusion
      | null => exact absurd rfl hnull
      | bool _ | int _ | float _ | blank => exact Scalar.noConfusion
    rw [spelledBound, if_neg hnumber, spelledBound, if_neg hnull, spelled_asNumber]

@[simp] theorem spelledShare_asShare (v : Scalar) : v.asShare.spelledShare = v.spelledShare := by
  rw [asShare]
  rcases hx : v.toBinary64? with - | x
  · rfl
  · rw [spelledShare, spelledShare, hx]
    rfl

/-- The text of a number on a request line reads as the number, and no colon stands in it. -/
theorem value?_of_field {v : Scalar} {s : String} (h : v.field = .ok s) :
    ':' ∉ s.toList ∧ Point.value? s.toList = some v.asNumber := by
  obtain ⟨hcolon, u, hu, hvalue⟩ := field_comesBack h
  exact ⟨hcolon, hu.eq_asNumber ▸ hvalue⟩

theorem value?_of_boundField {v : Scalar} {s : String} (h : boundField v = .ok s) :
    ':' ∉ s.toList ∧ Point.value? s.toList = some v.asBound := by
  rw [boundField] at h
  rw [asBound]
  split at h
  · rename_i hnull
    obtain rfl := Except.ok.inj h
    rw [if_pos hnull]
    exact ⟨by decide, by decide +kernel⟩
  · rename_i hnull
    rw [if_neg hnull]
    exact value?_of_field h

end Scalar

/-! ### Requests -/

/-- An update at the time that was found for it, its values as numbers. -/
def Point.normal (p : Point) (time : Nat) : Point where
  path := p.path
  timestamp := some time
  values := p.values.map Scalar.asNumber
  values_ne_nil := by simpa using p.values_ne_nil

def DataSource.normal (d : DataSource) : DataSource :=
  { d with minimum := d.minimum.asBound, maximum := d.maximum.asBound }

def Archive.normal (a : Archive) : Archive :=
  { a with xfilesFactor := a.xfilesFactor.asShare }

def Series.normal (s : Series) : Series :=
  { s with
    dataSources := s.dataSources.map DataSource.normal
    archives := s.archives.map Archive.normal }

/-- No columns are the same as an empty list of them. -/
def Query.normal (q : Query) : Query :=
  { q with columns := q.columns.filter (· ≠ []) }

/-- The request that stands for all that mean the same. -/
def Request.normal : Request → Request
  | command c => command c
  | update point time => update (point.normal time) time
  | create series => create series.normal
  | fetch query => fetch query.normal

@[simp] theorem Query.columns_normal (q : Query) :
    q.normal.columns.getD [] = q.columns.getD [] := by
  rw [Query.normal]
  rcases q.columns with - | columns
  · rfl
  · cases columns <;> rfl

@[simp] theorem DataSource.template_normal (d : DataSource) :
    d.normal.template = d.template := by
  simp [template, normal]

@[simp] theorem Archive.template_normal (a : Archive) : a.normal.template = a.template := by
  simp [template, normal]

/-- A request and its normal form look the same on the wire. -/
theorem Request.template_normal (r : Request) : r.normal.template = r.template := by
  cases r with
  | command c => rfl
  | update point time => simp [normal, template, Point.template, Point.normal,
    Function.comp_def]
  | create series => simp [normal, template, Series.template, Series.normal,
    Function.comp_def]
  | fetch query =>
    rw [normal, template, template, Query.template, Query.template, Query.columns_normal]
    rfl

end RrdCache
