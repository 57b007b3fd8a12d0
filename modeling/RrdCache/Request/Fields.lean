/-
RrdCache/Request/Fields.lean

Fields of request lines: numbers as the daemon reads them, and the closed sets of words
for the kinds of data sources and for the consolidation functions.
-/
import RrdCache.Error

namespace RrdCache

/-! ### Numbers -/

/-- The word for a value that is not known. -/
def unknownWord : String := "U"

/-- A double on a request line: its shortest text, or the word for unknown. -/
def Binary64.field (x : Binary64) : String :=
  if x.isNaN then unknownWord else x.text

/-- A number on a request line.  A whole number is written in full; a text counts as the
double that it spells. -/
def Scalar.field (v : Scalar) : Except Error String :=
  match v with
  | .int i => liftNumeral (Numeral.text i)
  | .float x => .ok x.field
  | .text s =>
    match Binary64.ofText? s.toList with
    | some x => .ok x.field
    | none => .error (.notANumber v)
  | _ => .error (.notANumber v)

/-- A whole number on a request line. -/
def intField (i : Int) : Except Error String :=
  liftNumeral (Numeral.text i)

/-- A limit of a range on a request line.  A blank is written as it is shown. -/
def limitField (limit : Slot Int) : Except Error String :=
  match limit with
  | .given i => intField i
  | .blank => .ok limit.toScalar.shown

/-- A bound on a request line: a missing one is unknown. -/
def boundField (v : Scalar) : Except Error String :=
  if v = .null then .ok unknownWord else v.field

/-! ### Words -/

/-- What a data source measures. -/
inductive SourceKind
  | gauge
  | counter
  | dcounter
  | derive
  | dderive
  | absolute
deriving DecidableEq, Repr

namespace SourceKind

/-- The word for a kind. -/
def word : SourceKind → String
  | gauge => "GAUGE"
  | counter => "COUNTER"
  | dcounter => "DCOUNTER"
  | derive => "DERIVE"
  | dderive => "DDERIVE"
  | absolute => "ABSOLUTE"

/-- All kinds. -/
def all : List SourceKind := [gauge, counter, dcounter, derive, dderive, absolute]

/-- The kind that a value names. -/
def ofScalar? (v : Scalar) : Option SourceKind :=
  all.find? fun k => Scalar.text k.word = v

end SourceKind

/-- How the values of a row are made one. -/
inductive Consolidation
  | average
  | min
  | max
  | last
deriving DecidableEq, Repr

namespace Consolidation

/-- The word for a function. -/
def word : Consolidation → String
  | average => "AVERAGE"
  | min => "MIN"
  | max => "MAX"
  | last => "LAST"

/-- All functions. -/
def all : List Consolidation := [average, min, max, last]

/-- The function that a value names. -/
def ofScalar? (v : Scalar) : Option Consolidation :=
  all.find? fun f => Scalar.text f.word = v

end Consolidation

end RrdCache
