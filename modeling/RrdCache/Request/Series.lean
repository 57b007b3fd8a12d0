/-
RrdCache/Request/Series.lean

Descriptions of new databases: data sources, archives, and the request line that creates
them.  A description holds what its author wrote; `check` says whether the daemon would
take it, and the first rule that is broken, in the order of the checks, is the error.
-/
import RrdCache.Request.Fields
import RrdCache.Identifier.Checked

namespace RrdCache

/-- A measured quantity: its name, the seconds after which it counts as unknown, its kind,
and bounds, each of which may be null. -/
structure DataSource where
  name : String
  heartbeat : Int
  kind : Scalar := .text "GAUGE"
  minimum : Scalar := .null
  maximum : Scalar := .null
deriving DecidableEq

/-- A round robin archive: how steps are made one row, which share of them may be unknown,
how many steps make a row, and how many rows are kept. -/
structure Archive where
  consolidation : Scalar
  xfilesFactor : Scalar
  steps : Int
  rows : Int
deriving DecidableEq

/-- A new database. -/
structure Series where
  path : String
  dataSources : List DataSource
  archives : List Archive
  start : Int
  step : Int
deriving DecidableEq

/-- Raises an error where a condition fails. -/
def require (condition : Prop) [Decidable condition] (e : Error) : Except Error Unit :=
  if condition then .ok () else .error e

namespace DataSource

/-- The kind of a data source. -/
def sourceKind (d : DataSource) : Except Error SourceKind :=
  match SourceKind.ofScalar? d.kind with
  | some k => .ok k
  | none => .error (.showing d.kind (.series (.kind d.kind)))

/-- Whether both bounds are given and the greater one does not exceed the lesser. -/
def boundsCross (d : DataSource) : Bool :=
  d.minimum != .null && d.maximum != .null && d.maximum.le d.minimum

/-- The rules for a data source. -/
def check (d : DataSource) : Except Error Unit := do
  let _ ← d.sourceKind
  require (0 < d.heartbeat) (.series .heartbeat)
  require (d.boundsCross = false) (.series .bounds)
  checkIdentifier "data source name" d.name

/-- The argument that describes a data source. -/
def argument (d : DataSource) : Except Error String := do
  let kind ← d.sourceKind
  let heartbeat ← intField d.heartbeat
  let minimum ← boundField d.minimum
  let maximum ← boundField d.maximum
  .ok (String.intercalate ":" ["DS", d.name, kind.word, heartbeat, minimum, maximum])

end DataSource

namespace Archive

/-- The consolidation function of an archive. -/
def function (a : Archive) : Except Error Consolidation :=
  match Consolidation.ofScalar? a.consolidation with
  | some f => .ok f
  | none => .error (.showing a.consolidation (.series (.consolidation a.consolidation)))

/-- Whether a value is a number from 0 to 1. -/
def isShare (v : Scalar) : Bool :=
  (Scalar.int 0).le v && v.le (.int 1)

/-- The rules for an archive. -/
def check (a : Archive) : Except Error Unit := do
  let _ ← a.function
  require (isShare a.xfilesFactor) (.series .xfilesFactor)
  require (0 < a.steps) (.series .steps)
  require (0 < a.rows) (.series .rows)

/-- The share as a double; a whole number beyond all doubles is none. -/
def share (a : Archive) : Except Error Binary64 :=
  match a.xfilesFactor, a.xfilesFactor.toBinary64? with
  | .int _, some (.infinite _) => .error (.numeral .beyondDoubles)
  | _, some x => .ok x
  | v, none => .error (.notANumber v)

/-- The argument that describes an archive.  The share is written as a double. -/
def argument (a : Archive) : Except Error String := do
  let function ← a.function
  let share ← a.share
  let steps ← intField a.steps
  let rows ← intField a.rows
  .ok (String.intercalate ":" ["RRA", function.word, share.field, steps, rows])

end Archive

namespace Series

/-- The rules for a database. -/
def check (s : Series) : Except Error Unit := do
  require (s.dataSources ≠ []) (.series .noDataSources)
  require (s.archives ≠ []) (.series .noArchives)
  require (0 < s.step) (.series .step)
  require (0 ≤ s.start) (.series .start)
  s.dataSources.forM DataSource.check
  s.archives.forM Archive.check
  checkIdentifier "path" s.path

/-- The request line that creates a database. -/
def line (s : Series) : Except Error String := do
  s.check
  let path ← Identifier.ofPath s.path
  let step ← intField s.step
  let start ← intField s.start
  let dataSources ← s.dataSources.mapM DataSource.argument
  let archives ← s.archives.mapM Archive.argument
  .ok (String.intercalate " "
    (["CREATE", path.file, "-s", step, "-b", start] ++ dataSources ++ archives) ++ "\n")

end Series

end RrdCache
