/-
RrdCache/Identifier/Checked.lean

Checks of identifiers and directories, with the error that a failed check raises.  A
directory is the root, or identifiers joined by single slashes with any slashes around
them; it goes on the wire as it was given.
-/
import RrdCache.Error

namespace RrdCache

/-- The identifier that a text is; `role` says what it names. -/
def Identifier.ofString (role value : String) : Except Error Identifier :=
  match h : identifierProblem? value with
  | none => .ok ⟨value, h⟩
  | some problem => .error (.identifier role value problem)

/-- The identifier of a database. -/
def Identifier.ofPath (value : String) : Except Error Identifier :=
  Identifier.ofString "path" value

/-- The file of a database: its identifier and the ending of all databases. -/
def Identifier.file (path : Identifier) : String :=
  path.text ++ ".rrd"

/-- Checks a text for being an identifier. -/
def checkIdentifier (role value : String) : Except Error Unit :=
  (Identifier.ofString role value).map fun _ => ()

/-- The segments of a directory between its slashes, those around it cut off. -/
def directorySegments (value : String) : List String :=
  ((trim (· == '/') value.toList).splitOn '/').map String.ofList

/-- Checks a text for being a directory. -/
def checkDirectory (value : String) : Except Error Unit :=
  if value = "/" then .ok ()
  else if (trim (· == '/') value.toList).isEmpty then .error (.directory value)
  else (directorySegments value).forM (checkIdentifier "directory segment")

end RrdCache
