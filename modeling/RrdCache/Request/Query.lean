/-
RrdCache/Request/Query.lean

Queries for the data of one database.  The range and the columns may be left out, but
only from the end: an end needs a start, and columns need both.  A limit that is there may
still be blank.
-/
import RrdCache.Request.Fields
import RrdCache.Identifier.Checked

namespace RrdCache

/-- A query: the database, how its values are consolidated, the range, and the columns. -/
structure Query where
  path : String
  consolidation : Scalar := .text "AVERAGE"
  start : Option (Slot Int) := none
  finish : Option (Slot Int) := none
  columns : Option (List String) := none
deriving DecidableEq

namespace Query

/-- The consolidation function of a query. -/
def function (q : Query) : Except Error Consolidation :=
  match Consolidation.ofScalar? q.consolidation with
  | some f => .ok f
  | none => .error (.showing q.consolidation (.query (.consolidation q.consolidation)))

/-- The rules for what may be left out. -/
def checkRange (q : Query) : Except Error Unit :=
  if q.start.isNone ∧ (q.finish.isSome ∨ q.columns.isSome) then .error (.query .noStart)
  else if q.finish.isNone ∧ q.columns.isSome then .error (.query .noEnd)
  else .ok ()

/-- The fields for the range and the columns: each stands only after those before it. -/
def rangeFields (q : Query) : Except Error (List String) :=
  match q.start with
  | none => .ok []
  | some start => do
    let start ← limitField start
    match q.finish with
    | none => .ok [start]
    | some finish => do
      let finish ← limitField finish
      .ok (start :: finish :: q.columns.getD [])

/-- The request line of a query. -/
def line (q : Query) : Except Error String := do
  let path ← Identifier.ofPath q.path
  let function ← q.function
  q.checkRange
  (q.columns.getD []).forM (checkIdentifier "column")
  let range ← q.rangeFields
  .ok (String.intercalate " " (["FETCH", path.file, function.word] ++ range) ++ "\n")

end Query

end RrdCache
