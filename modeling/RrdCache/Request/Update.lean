/-
RrdCache/Request/Update.lean

Updates: values for the data sources of one database at one time.  `Point.line` writes
the request line and `Point.ofLine` reads it back.  A line has the shape

    UPDATE <database>.rrd <timestamp>:<value>:...:<value>

where the reader takes digits of any script and every spelling of a number.
-/
import RrdCache.Request.Fields
import RrdCache.Identifier.Checked
import RrdCache.Text.Scan

namespace RrdCache

/-- Values for one database; without a timestamp they are for the time of sending. -/
structure Point where
  path : Identifier
  timestamp : Option Nat
  values : List Scalar
  values_ne_nil : values ≠ []
deriving DecidableEq

namespace Point

/-- The timestamp that a value gives: none if it is null, and a whole number of seconds
otherwise. -/
def checkTimestamp (v : Scalar) : Except Error (Option Nat) :=
  match v, v.epoch? with
  | .null, _ => .ok none
  | _, some t => .ok (some t)
  | _, none => .error (.showing v (.update (.timestamp v)))

/-- The point with these parts, checked in this order: values, timestamp, path. -/
def ofParts (path : String) (timestamp : Scalar) (values : List Scalar) : Except Error Point :=
  if h : values = [] then .error (.update .noValues)
  else do
    let timestamp ← checkTimestamp timestamp
    let path ← Identifier.ofPath path
    .ok ⟨path, timestamp, values, h⟩

/-! ### Writing -/

/-- Values joined by colons. -/
def valuesField (values : List Scalar) : Except Error String := do
  let fields ← values.mapM Scalar.field
  .ok (String.intercalate ":" fields)

/-- The request line of a point at a time.  The values are written before the time is. -/
def line (p : Point) (timestamp : Nat) : Except Error String := do
  let values ← valuesField p.values
  let timestamp ← intField timestamp
  .ok ("UPDATE " ++ p.path.file ++ " " ++ timestamp ++ ":" ++ values ++ "\n")

/-! ### Reading -/

/-- The path, the timestamp and the values of a line of the right shape. -/
def split? (line : List Char) : Option (List Char × List Char × List Char) := do
  let rest ← Scan.after? "UPDATE ".toList line
  let (file, rest) ← Scan.run? (· != ' ') rest
  let path ← Scan.before? ".rrd".toList file
  if path.isEmpty then none
  let rest ← Scan.after? [' '] rest
  let (timestamp, rest) ← Scan.run? isDecimalDigit rest
  let rest ← Scan.after? [':'] rest
  let (values, rest) ← Scan.run? (fun c => c != ' ' && c != '\n') rest
  if rest = ['\n'] then some (path, timestamp, values) else none

/-- The value that a token spells.  Dashes and characters with a digit value make a whole
number, or nothing; every other token is a double. -/
def value? (token : List Char) : Option Scalar :=
  let digits := token.dropWhile (· == '-')
  if token = unknownWord.toList then some (.float .nan)
  else if !digits.isEmpty && digits.all hasDigitValue then
    (Numeral.ofText token).toOption.map .int
  else (Binary64.ofText? token).map .float

/-- The value of a token of a line; the line is for the message. -/
def readValue (line : String) (token : List Char) : Except Error Scalar :=
  match value? token with
  | some v => .ok v
  | none => .error (.update (.value (String.ofList token) line))

/-- The point that a request line stands for. -/
def ofLine (line : String) : Except Error Point :=
  match split? line.toList with
  | none => .error (.update (.shape line))
  | some (path, timestamp, values) => do
    let values ← (values.splitOn ':').mapM (readValue line)
    let timestamp ← liftNumeral (Numeral.value (timestamp.map foldDigit))
    ofParts (String.ofList path) (.int timestamp) values

end Point

end RrdCache
