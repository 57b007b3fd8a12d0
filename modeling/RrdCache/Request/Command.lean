/-
RrdCache/Request/Command.lean

The requests without a body of their own: a word, and at most one identifier or directory
after it.
-/
import RrdCache.Request.Fields
import RrdCache.Identifier.Checked

namespace RrdCache

/-- A request that is a word and at most one argument. -/
inductive Command
  | ping
  | help (topic : Option String)
  | stats
  | queue
  | flush (path : String)
  | flushAll
  | pending (path : String)
  | forget (path : String)
  | first (path : String) (archive : Int)
  | last (path : String)
  | info (path : String)
  | list (path : String) (recursive : Bool)
  | suspend (path : String)
  | resume (path : String)
  | suspendAll
  | resumeAll
  | quit
  | batch
  | batchEnd
deriving DecidableEq, Repr

namespace Command

/-- A word and the file of a database. -/
def onFile (word path : String) : Except Error String := do
  let path ← Identifier.ofPath path
  .ok (word ++ " " ++ path.file ++ "\n")

/-- The line that asks for the first time in an archive.  The archive is checked before the
database is. -/
def firstLine (path : String) (archive : Int) : Except Error String :=
  if archive < 0 then .error (.showing (.int archive) (.archiveIndex archive))
  else do
    let path ← Identifier.ofPath path
    let archive ← intField archive
    .ok ("FIRST " ++ path.file ++ " " ++ archive ++ "\n")

/-- The request line of a command. -/
def line : Command → Except Error String
  | ping => .ok "PING\n"
  | help none => .ok "HELP\n"
  | help (some topic) => do
    let topic ← Identifier.ofString "command" topic
    .ok ("HELP " ++ topic.text ++ "\n")
  | stats => .ok "STATS\n"
  | queue => .ok "QUEUE\n"
  | flush path => onFile "FLUSH" path
  | flushAll => .ok "FLUSHALL\n"
  | pending path => onFile "PENDING" path
  | forget path => onFile "FORGET" path
  | first path archive => firstLine path archive
  | last path => onFile "LAST" path
  | info path => onFile "INFO" path
  | list path recursive => do
    checkDirectory path
    .ok ((if recursive then "LIST RECURSIVE " else "LIST ") ++ path ++ "\n")
  | suspend path => onFile "SUSPEND" path
  | resume path => onFile "RESUME" path
  | suspendAll => .ok "SUSPENDALL\n"
  | resumeAll => .ok "RESUMEALL\n"
  | quit => .ok "QUIT\n"
  | batch => .ok "BATCH\n"
  | batchEnd => .ok ".\n"

end Command

end RrdCache
