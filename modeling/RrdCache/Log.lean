/-
RrdCache/Log.lean

Records of what a client does.  A record has a level, the part of the client it comes from,
and a text.
-/

namespace RrdCache

/-- How much a record matters. -/
inductive LogLevel
  | debug
  | info
  | warning
  | error
  | critical
deriving DecidableEq, Repr

namespace LogLevel

/-- The word for a level. -/
def word : LogLevel → String
  | debug => "DEBUG"
  | info => "INFO"
  | warning => "WARNING"
  | error => "ERROR"
  | critical => "CRITICAL"

/-- How much a level matters, as a number. -/
def rank : LogLevel → Nat
  | debug => 10
  | info => 20
  | warning => 30
  | error => 40
  | critical => 50

/-- All levels. -/
def all : List LogLevel := [debug, info, warning, error, critical]

/-- The level with a word. -/
def ofWord? (word : String) : Option LogLevel :=
  all.find? fun l => l.word = word

end LogLevel

/-- The part of a client that a record comes from. -/
inductive LogSource
  | exchange
  | session
  | batch
  | connection
deriving DecidableEq, Repr

/-- One record. -/
structure LogRecord where
  level : LogLevel
  source : LogSource
  text : String
deriving DecidableEq, Repr

end RrdCache
