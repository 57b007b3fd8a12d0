/-
RrdCache/Client/Connection.lean

Opening and closing connections.  `Client.closing` closes the connection after a dialogue
in any case, and an error of closing takes the place of what the dialogue gave.
-/
import RrdCache.Dialogue

namespace RrdCache

namespace Client

/-- Records that a connection is open.  The record shows the address, and one without a text goes
unrecorded: nothing fails for it. -/
def logConnected (a : Address) : Dialogue Unit :=
  match a.text with
  | .ok text => Dialogue.log .info .connection ("connected to " ++ text)
  | .error _ => pure ()

/-- Opens a connection.  If the system refuses, the error names the address. -/
def connect (a : Address) : Dialogue Unit := do
  let answer ← Dialogue.perform (.dial a)
  match answer with
  | .ok () => logConnected a
  | .error (.system t) =>
    let text ← Dialogue.ofExcept a.text
    Dialogue.fail (.transport (.connect text t))
  | .error f => Dialogue.fail (.fault f)

/-- Opens a connection to the address that a text spells. -/
def connectTo (text : String) : Dialogue Unit := do
  let address ← Dialogue.ofExcept (Address.ofText text)
  connect address

/-- Records that the connection is closed. -/
def logClosed : Dialogue Unit :=
  Dialogue.log .info .session "connection closed"

/-- Closes the connection, if it can be closed. -/
def close : Dialogue Unit := do
  match ← Dialogue.perform .close with
  | .unable => pure ()
  | .immediate => logClosed
  | .awaited =>
    let answer ← Dialogue.perform .waitClosed
    Dialogue.attempt answer (Fault.toError .close)
    logClosed

/-- Closes the connection after a dialogue, whatever its result. -/
def closing {α : Type} (d : Dialogue α) : Dialogue α :=
  d.andThen fun result => do
    close
    Dialogue.ofExcept result

end Client

end RrdCache
