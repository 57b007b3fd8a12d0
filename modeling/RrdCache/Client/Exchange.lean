/-
RrdCache/Client/Exchange.lean

Exchanges of one request and one reply.  A reply is a status line and, unless it refuses
the request, as many further lines as its number says; they are read and not looked at.
-/
import RrdCache.Dialogue
import RrdCache.Reply.Status

namespace RrdCache

/-- An accepted request's reply: its message, and the lines after the status line with
their line feeds. -/
structure Reply where
  message : String
  lines : List String
deriving DecidableEq, Repr

/-- A text without the line feeds at its end. -/
def chomp (line : String) : String :=
  String.ofList (trimEnd (· == '\n') line.toList)

/-- The text that bytes encode. -/
def decodeUtf8? (bytes : List UInt8) : Option String :=
  String.fromUTF8? ⟨bytes.toArray⟩

/-- The line that bytes hold, if they are a whole line of text. -/
def lineOfBytes (bytes : List UInt8) : Except Error String :=
  if bytes.getLast? ≠ some 10 then .error (.truncated bytes.length)
  else match decodeUtf8? bytes with
    | some line => .ok line
    | none => .error (.line (.notUtf8 bytes))

namespace Client

/-! ### Reading -/

/-- Reads a line.  Every fault of reading is a failure of the transport. -/
def readLine : Dialogue String := do
  let answer ← Dialogue.perform .readLine
  let bytes ← Dialogue.attempt answer fun f => .transport (.read f.text)
  Dialogue.ofExcept (lineOfBytes bytes)

/-- Reads a number of lines. -/
def readLines : Nat → Dialogue (List String)
  | 0 => pure []
  | n + 1 => do
    let line ← readLine
    let rest ← readLines n
    pure (line :: rest)

/-- In place of a status line, bytes that are no text are a malformed status. -/
def asStatusError : Error → Error
  | .line (.notUtf8 bytes) => .status (.notUtf8 bytes)
  | e => e

/-- Reads a status line and gives its message and the number of lines that follow. -/
def readStatus : Dialogue (String × Nat) :=
  readLine.andThen fun
    | .error e => Dialogue.fail (asStatusError e)
    | .ok line => do
      match ← Dialogue.ofExcept (Status.ofLine line) with
      | .refused code message =>
        Dialogue.log .debug .exchange
          ("status " ++ Numeral.spelling code ++ ": " ++ message)
        Dialogue.fail (.refused code message)
      | .accepted message pending =>
        Dialogue.log .debug .exchange
          ("status ok: " ++ message ++ " (+" ++ Numeral.spelling pending ++ " lines)")
        pure (message, pending)

/-- Reads a whole reply. -/
def readReply : Dialogue Reply := do
  let (message, pending) ← readStatus
  let lines ← readLines pending
  pure ⟨message, lines⟩

/-! ### Writing -/

/-- Sends a line and waits until it is on its way. -/
def writeLine (line : String) : Dialogue Unit := do
  Dialogue.log .debug .exchange ("send " ++ quoted line)
  let written ← Dialogue.perform (.write line)
  Dialogue.attempt written (Fault.toError .write)
  let drained ← Dialogue.perform .drain
  Dialogue.attempt drained (Fault.toError .write)

/-- Sends a request and reads its reply. -/
def exchange (line : String) : Dialogue Reply := do
  writeLine line
  readReply

end Client

end RrdCache
