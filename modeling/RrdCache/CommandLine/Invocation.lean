/-
RrdCache/CommandLine/Invocation.lean

The command line of the program: which daemon to talk to, how to print, what to log, and
one task with its own options and operands.
-/
import RrdCache.CommandLine.Grammar
import RrdCache.Request.Fields
import RrdCache.Log

namespace RrdCache

/-- What the program is asked to do. -/
inductive Task
  | ping
  | stats
  | queue
  | flushAll
  | last (path : String)
  | info (path : String)
  | pending (path : String)
  | flush (path : String)
  | first (path : String) (archive : Slot Int)
  | list (path : String) (recursive : Bool)
  | update (path : String) (timestamp : Option (Slot Int)) (values : List Binary64)
  | fetch (path : String) (consolidation : Slot Consolidation)
      (start finish : Option (Slot Int)) (columns : Option (List String))
deriving DecidableEq

/-- A command line that can be carried out. -/
structure Invocation where
  address : Option String
  json : Bool
  level : Slot LogLevel
  task : Task
deriving DecidableEq

/-! ### The grammars -/

/-- Whether a text spells a whole number. -/
def spellsInt (text : String) : Bool :=
  (Numeral.ofText text.toList).toOption.isSome

/-- Whether a text spells a number. -/
def spellsNumber (text : String) : Bool :=
  (Binary64.ofText? text.toList).isSome

/-- The consolidation function with a word. -/
def Consolidation.ofWord? (word : String) : Option Consolidation :=
  Consolidation.ofScalar? (.text word)

/-- Whether a text is the word of a consolidation function. -/
def spellsConsolidation (text : String) : Bool :=
  (Consolidation.ofWord? text).isSome

/-- The operand that names a database. -/
def pathOperand : OperandSpec := { name := "path" }

/-- The tasks and their own grammars. -/
def taskGrammars : List (String × Grammar) :=
  [("ping", {}), ("stats", {}), ("queue", {}), ("flushall", {}),
   ("last", { operands := [pathOperand] }),
   ("info", { operands := [pathOperand] }),
   ("pending", { operands := [pathOperand] }),
   ("flush", { operands := [pathOperand] }),
   ("first",
    { options := [{ name := "--archive", kind := .one, accepts := spellsInt }],
      operands := [pathOperand] }),
   ("list",
    { options := [{ name := "--recursive", kind := .flag }],
      operands := [{ name := "path", kind := .optional }] }),
   ("update",
    { options := [{ name := "--timestamp", kind := .one, accepts := spellsInt }],
      operands := [pathOperand,
        { name := "values", kind := .several, accepts := spellsNumber }] }),
   ("fetch",
    { options :=
        [{ name := "--cf", kind := .one, accepts := spellsConsolidation },
         { name := "--start", kind := .one, accepts := spellsInt },
         { name := "--end", kind := .one, accepts := spellsInt },
         { name := "--columns", kind := .many }],
      operands := [pathOperand] })]

/-- The grammar of a task. -/
def taskGrammar? (name : String) : Option Grammar :=
  (taskGrammars.find? fun t => t.1 = name).map (·.2)

/-- The grammar of the whole line: options, and a task with the rest of the line. -/
def mainGrammar : Grammar :=
  { options :=
      [{ name := "--address", kind := .one },
       { name := "--json", kind := .flag },
       { name := "--log-level", kind := .one, accepts := fun w => (LogLevel.ofWord? w).isSome }],
    operands := [{ name := "task", kind := .rest, accepts := fun w => (taskGrammar? w).isSome }] }

/-! ### Reading -/

namespace Matches

/-- What an option was given as its value, if it was given: blank if it has none. -/
def slot? {α : Type} (m : Matches) (name : String) (read : String → Option α) :
    Option (Slot α) :=
  match m.values? name with
  | none => none
  | some [] => some .blank
  | some (v :: _) => (read v).map .given

/-- The whole number given for an option. -/
def int? (m : Matches) (name : String) : Option (Slot Int) :=
  m.slot? name fun v => (Numeral.ofText v.toList).toOption

/-- Whether an option was given. -/
def has (m : Matches) (name : String) : Bool :=
  (m.values? name).isSome

/-- The database that is named. -/
def path (m : Matches) : String :=
  (m.value? "path").getD ""

/-- The task of a name with what its own grammar found. -/
def task? (m : Matches) (name : String) : Option Task :=
  match name with
  | "ping" => some .ping
  | "stats" => some .stats
  | "queue" => some .queue
  | "flushall" => some .flushAll
  | "last" => some (.last m.path)
  | "info" => some (.info m.path)
  | "pending" => some (.pending m.path)
  | "flush" => some (.flush m.path)
  | "first" => some (.first m.path ((m.int? "--archive").getD (.given 0)))
  | "list" => some (.list ((m.value? "path").getD "/") (m.has "--recursive"))
  | "update" =>
    let values := ((m.values? "values").getD []).filterMap fun v => Binary64.ofText? v.toList
    some (.update m.path (m.int? "--timestamp") values)
  | "fetch" =>
    let consolidation := (m.slot? "--cf" Consolidation.ofWord?).getD (.given .average)
    some (.fetch m.path consolidation (m.int? "--start") (m.int? "--end") (m.values? "--columns"))
  | _ => none

end Matches

/-- What a command line asks for.  Arguments left over make it wrong, but only after all of
it was read. -/
def Invocation.ofLine (line : List String) : Except Stop Invocation := do
  let m ← mainGrammar.read line
  match m.values? "task" with
  | some (name :: rest) =>
    match taskGrammar? name with
    | none => .error .usage
    | some grammar => do
      let own ← grammar.read rest
      match own.task? name with
      | none => .error .usage
      | some task =>
        if m.leftOver ++ own.leftOver = [] then
          .ok
            { address := m.value? "--address"
              json := m.has "--json"
              level := (m.slot? "--log-level" LogLevel.ofWord?).getD (.given .warning)
              task := task }
        else .error .usage
  | _ => .error .usage

end RrdCache
