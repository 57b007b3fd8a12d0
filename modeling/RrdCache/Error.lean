/-
RrdCache/Error.lean

Everything that can go wrong, by cause.  Requests are refused before anything is sent
(`identifier` to `query`, and `clock` for an omitted timestamp); the transport fails
(`transport`, `truncated`); a line of a reply is not what it should be (`status`, `line`);
the daemon refuses (`refused`, `unexpected`, `rejected`).  The last four constructors are
faults of a caller or of the surroundings: a number that cannot be converted, a text that
is no address, a blank where a value is needed, and a limit of the stream.

`Error.message` is the wording.
-/
import RrdCache.Scalar
import RrdCache.Identifier.Basic

namespace RrdCache

/-- Why an update was refused, or a line is no update. -/
inductive UpdateError
  | noValues
  | timestamp (value : Scalar)
  | shape (line : String)
  | value (token line : String)
deriving DecidableEq

/-- Why the description of a new database was refused. -/
inductive SeriesError
  | noDataSources
  | noArchives
  | step
  | start
  | kind (value : Scalar)
  | heartbeat
  | bounds
  | consolidation (value : Scalar)
  | xfilesFactor
  | steps
  | rows
deriving DecidableEq

/-- Why a query for data was refused. -/
inductive QueryError
  | consolidation (value : Scalar)
  | noStart
  | noEnd
deriving DecidableEq

/-- Which use of the transport failed; the text is the failure's own. -/
inductive TransportError
  | read (text : String)
  | write (text : String)
  | close (text : String)
  | connect (address text : String)
deriving DecidableEq, Repr

/-- Why a reply's first line is no status line. -/
inductive StatusError
  | shape (line : String)
  | notUtf8 (bytes : List UInt8)
deriving DecidableEq

/-- Why a line of a reply was not understood. -/
inductive LineError
  | notUtf8 (bytes : List UInt8)
  | queue (line : String)
  | stats (line : String)
  | timestamp (message : String)
  | unsigned (what value : String)
  | header (line : String)
  | row (line : String)
deriving DecidableEq

/-- Why there is no time to put into an update. -/
inductive ClockError
  | unavailable (text : String)
  | unreadable (text : String)
  | beforeEpoch
  | reading (value : Scalar)
deriving DecidableEq

/-- Why a text is no address. -/
inductive AddressError
  | empty
  | noPath (text : String)
  | unterminated (text : String)
  | trailing (text : String)
  | noHost (text : String)
  | port (port text : String)
deriving DecidableEq, Repr

/-- Which value of a command line is needed and was left blank. -/
inductive BlankError
  | consolidation
  | archive
  | level
deriving DecidableEq, Repr

/-- How the surroundings fail: the system refuses, or a limit of the stream is hit. -/
inductive Fault
  | system (text : String)
  | limit (text : String)
deriving DecidableEq, Repr

/-- Everything that can go wrong. -/
inductive Error
  | identifier (role value : String) (problem : IdentifierProblem)
  | directory (value : String)
  | notANumber (value : Scalar)
  | archiveIndex (index : Int)
  | update (cause : UpdateError)
  | series (cause : SeriesError)
  | query (cause : QueryError)
  | clock (cause : ClockError)
  | transport (cause : TransportError)
  | truncated (count : Nat)
  | status (cause : StatusError)
  | line (cause : LineError)
  | refused (code : Int) (message : String)
  | unexpected (message expected : String)
  | rejected (message : String) (errors : List String)
  | numeral (cause : NumeralError)
  | address (cause : AddressError)
  | blank (cause : BlankError)
  | fault (fault : Fault)
deriving DecidableEq

/-! ### Wording -/

/-- The text of a fault. -/
def Fault.text : Fault → String
  | system t => t
  | limit t => t

/-- The wording of a refused update. -/
def UpdateError.message : UpdateError → String
  | noValues => "data is empty"
  | timestamp v => "timestamp must be a non-negative int, got " ++ v.shown
  | shape line => "not an UPDATE line: " ++ quoted line
  | value token line => "bad value " ++ quoted token ++ " in " ++ quoted line

/-- The wording of a refused database. -/
def SeriesError.message : SeriesError → String
  | noDataSources => "at least one data source is required"
  | noArchives => "at least one round robin archive is required"
  | step => "step must be greater than 0"
  | start => "start must not be negative"
  | kind v => "unknown DataSourceType: " ++ v.shown
  | heartbeat => "heartbeat must be greater than 0"
  | bounds => "maximum must be greater than minimum"
  | consolidation v => "unknown ConsolidationFunction: " ++ v.shown
  | xfilesFactor => "xfiles_factor must be between 0 and 1"
  | steps => "steps must be greater than 0"
  | rows => "rows must be greater than 0"

/-- The wording of a refused query. -/
def QueryError.message : QueryError → String
  | consolidation v => "unknown ConsolidationFunction: " ++ v.shown
  | noStart => "start must be specified"
  | noEnd => "end must be specified"

/-- The wording of a failed transport; the failure's own text stands last. -/
def TransportError.message : TransportError → String
  | read t => "read failed: " ++ t
  | write t => "write failed: " ++ t
  | close t => "close failed: " ++ t
  | connect address t => "unable to connect to " ++ address ++ ": " ++ t

/-- The wording of a line that is not understood. -/
def LineError.message : LineError → String
  | notUtf8 bytes => "line is not valid UTF-8: " ++ quotedBytes bytes
  | queue line => "bad queue line: " ++ quoted line
  | stats line => "bad stats line: " ++ quoted line
  | timestamp message => "bad timestamp: " ++ quoted message
  | unsigned what value => "unable to parse " ++ what ++ ": " ++ quoted value
  | header line => "bad fetch header line: " ++ quoted line
  | row line => "bad fetch data line: " ++ quoted line

/-- The wording of a status line that is none. -/
def StatusError.message : StatusError → String
  | shape line => "bad status line: " ++ quoted line
  | notUtf8 bytes => "bad status line: " ++ (LineError.notUtf8 bytes).message

/-- The wording of a missing time. -/
def ClockError.message : ClockError → String
  | unavailable t => t
  | unreadable t => "unable to read system time: " ++ t
  | beforeEpoch => "system time is before the epoch"
  | reading v => "clock returned " ++ v.shown ++ ", not whole epoch seconds"

/-- The wording of a refused address. -/
def AddressError.message : AddressError → String
  | empty => "empty daemon address"
  | noPath t => "missing socket path in " ++ quoted t
  | unterminated t => "unterminated IPv6 address in " ++ quoted t
  | trailing t => "unexpected text after IPv6 address in " ++ quoted t
  | noHost t => "missing host in " ++ quoted t
  | port p t => "bad port " ++ quoted p ++ " in " ++ quoted t

/-- The wording of a blank where a value is needed. -/
def BlankError.message : BlankError → String
  | consolidation => "[] is not a valid ConsolidationFunction"
  | archive => "'<' not supported between instances of 'list' and 'int'"
  | level => "attribute name must be string, not 'list'"

namespace Error

/-- What an error says. -/
def message : Error → String
  | identifier role value problem => role ++ " " ++ quoted value ++ " " ++ problem.message
  | directory value => "directory " ++ quoted value ++ " is empty"
  | notANumber v => "not a number: " ++ v.shown
  | archiveIndex i => "archive index must not be negative, got " ++ Numeral.spelling i
  | update e => e.message
  | series e => e.message
  | query e => e.message
  | clock e => e.message
  | transport e => e.message
  | truncated n => "stream ended after " ++ Numeral.spelling n ++ " bytes of a line"
  | status e => e.message
  | line e => e.message
  | refused code message => "daemon error " ++ Numeral.spelling code ++ ": " ++ message
  | unexpected message expected => "expected " ++ quoted expected ++ ", got " ++ quoted message
  | rejected message errors =>
    message ++ " (" ++ Numeral.spelling errors.length ++ " failed)"
  | numeral e => e.message
  | address e => e.message
  | blank e => e.message
  | fault f => f.text

/-- An error whose wording shows a value: if the value is a whole number too long to be
written, that is the error instead. -/
def showing (v : Scalar) (e : Error) : Error :=
  match v.shown? with
  | .ok _ => e
  | .error cause => numeral cause

end Error

/-- A failed conversion as an error. -/
def liftNumeral {α : Type} : Except NumeralError α → Except Error α
  | .ok a => .ok a
  | .error cause => .error (.numeral cause)

end RrdCache
