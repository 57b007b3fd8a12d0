/-
RrdCache/Request.lean

Requests of every kind, each with the one line that sends it.  A request that breaks a rule
has no line, and its first broken rule is the error.
-/
import RrdCache.Request.Command
import RrdCache.Request.Query
import RrdCache.Request.Series
import RrdCache.Request.Update

namespace RrdCache

/-- What a client can send. -/
inductive Request
  | command (command : Command)
  /-- Values for a database at a time. -/
  | update (point : Point) (time : Nat)
  /-- A new database. -/
  | create (series : Series)
  /-- A query for data. -/
  | fetch (query : Query)
deriving DecidableEq

/-- The line of a request. -/
def Request.line : Request → Except Error String
  | command c => c.line
  | update point time => point.line time
  | create series => series.line
  | fetch query => query.line

end RrdCache
