/-
RrdCache/Main.lean

The program in the real world.  `Link.answer` answers the actions of a dialogue with a
socket, the system's clock and the log on the error stream; all else was decided before.
Only remote daemons can be reached: the library has no local sockets.
-/
import RrdCache.CommandLine.Program
import Std.Async.DNS
import Std.Async.TCP
import Std.Time

open Std.Async Std.Net

namespace RrdCache

/-- An open connection: its socket, and bytes that were received and not read yet. -/
structure Link where
  socket : Option TCP.Socket.Client := none
  received : ByteArray := ByteArray.empty

namespace Link

/-- The answer to an action that the system may refuse. -/
def attempt {α : Type} (act : IO α) : IO (Except Fault α) := do
  try return .ok (← act)
  catch e => return .error (.system (toString e))

/-- The socket of an open connection. -/
def openSocket (link : Link) : IO TCP.Socket.Client :=
  match link.socket with
  | some s => pure s
  | none => throw (IO.userError "not connected")

/-- How many bytes are asked for at once. -/
def chunk : UInt64 := 65536

/-- Receives until there is a line feed among the bytes, or no more bytes come. -/
partial def receiveLine (socket : TCP.Socket.Client) (received : ByteArray) : IO ByteArray := do
  if received.data.contains 10 then return received
  match ← (socket.recv? chunk).block with
  | some more => receiveLine socket (received ++ more)
  | none => return received

/-- Reads a line. -/
def readLine (ref : IO.Ref Link) : IO (List UInt8) := do
  let link ← ref.get
  let received ← receiveLine (← link.openSocket) link.received
  let (line, rest) := cutLine received.toList
  ref.set { link with received := ⟨rest.toArray⟩ }
  return line

/-- Opens a connection to the first of a host's addresses that answers. -/
def connectFirst (port : UInt16) : List IPAddr → IO TCP.Socket.Client
  | [] => throw (IO.userError "host not found")
  | ip :: rest => do
    let address : SocketAddress := match ip with
      | .v4 a => .v4 ⟨a, port⟩
      | .v6 a => .v6 ⟨a, port⟩
    try
      let socket ← TCP.Socket.Client.mk
      (socket.connect address).block
      return socket
    catch e => if rest.isEmpty then throw e else connectFirst port rest

/-- Opens a connection. -/
def dial (ref : IO.Ref Link) (a : Address) : IO Unit := do
  if a.isUnix then throw (IO.userError "local sockets are not supported")
  let host := a.host.getD ""
  let ips ← (DNS.getAddrInfo host "").block
  let socket ← connectFirst (UInt16.ofNat a.port.toNat) ips.toList
  ref.set { socket := some socket }

/-- The seconds since the epoch. -/
def now : IO Reading := do
  let time ← attempt do return (← Std.Time.Timestamp.now).toSecondsSinceUnixEpoch.val
  match time with
  | .ok seconds => return systemReading (.ok (.int seconds))
  | .error f => return systemReading (.error f.text)

/-- Puts a record on the error stream, if it matters enough. -/
def keep (level : Slot LogLevel) (record : LogRecord) : IO Unit := do
  let time ← Std.Time.PlainDateTime.now
  let stamp := time.format "uuuu-MM-dd HH:mm:ss,SSS"
  IO.eprint (String.join (logLines stamp level [record]))

/-- The world's answer to an action. -/
def answer (ref : IO.Ref Link) (level : Slot LogLevel) : (a : Action) → IO a.Answer
  | .readLine => attempt (readLine ref)
  | .write line => attempt do ((← (← ref.get).openSocket).send line.toUTF8).block
  | .drain => return .ok ()
  | .close => return .awaited
  | .waitClosed => attempt do
    let socket ← (← ref.get).openSocket
    ref.set {}
    socket.shutdown.block
  | .dial address => attempt (dial ref address)
  | .look => now
  | .log record => keep level record

/-- Performs a dialogue. -/
def run {α : Type} (ref : IO.Ref Link) (level : Slot LogLevel) : Dialogue α → IO (Except Error α)
  | .done r => return r
  | .ask a next => do run ref level (next (← answer ref level a))

end Link

/-- The line that a wrong command line is answered with. -/
def usage : String :=
  "usage: rrdc [-h] [--address ADDRESS] [--json] [--log-level LEVEL] TASK ..."

/-- Carries out a command line and gives its exit code.  The log is on the error stream
already when the report is written. -/
def carryOut (line : List String) : IO UInt32 := do
  match Invocation.ofLine line with
  | .error .help => IO.println usage; return 0
  | .error .usage => IO.eprintln usage; return UInt32.ofNat Stop.usage.exitCode
  | .ok invocation =>
    let ref ← IO.mkRef ({} : Link)
    let setting ← IO.getEnv "RRDCACHED_ADDRESS"
    let result ← Link.run ref invocation.level (invocation.dialogue setting)
    match invocation.report "" result [] with
    | .ok report =>
      IO.print report.output
      IO.eprint report.errors
      return UInt32.ofNat report.exitCode
    | .error e =>
      IO.eprintln e.message
      return 1

end RrdCache

/-- The program. -/
def main (line : List String) : IO UInt32 :=
  RrdCache.carryOut line
