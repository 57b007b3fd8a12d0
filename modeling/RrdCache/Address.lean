/-
RrdCache/Address.lean

Addresses of daemons.  A local socket is named by its path, alone or after "unix:"; a
remote one by a host and a port, which may be missing, and a host with colons in it
stands in brackets.  `Address.ofText` reads all spellings and `Address.text` writes one.
-/
import RrdCache.Error
import RrdCache.Text.Blank

namespace RrdCache

/-- The port of a daemon that has no other. -/
def defaultPort : Int := 42217

/-- The host of a daemon that has no other. -/
def defaultHost : String := "localhost"

/-- Where a daemon listens: at a local socket, if there is one, or at a host and port. -/
structure Address where
  host : Option String := none
  port : Int := defaultPort
  unixPath : Option String := none
deriving DecidableEq, Repr

namespace Address

/-- Whether a daemon listens at a local socket. -/
def isUnix (a : Address) : Bool := a.unixPath.isSome

/-- A host and a port: a host with colons stands in brackets.  The word for a missing host
is part of the format. -/
def hostText (host : Option String) (port : String) : String :=
  match host with
  | none => "None:" ++ port
  | some h => if ':' ∈ h.toList then "[" ++ h ++ "]:" ++ port else h ++ ":" ++ port

/-- The text of an address. -/
def text (a : Address) : Except Error String :=
  match a.unixPath with
  | some path => .ok ("unix:" ++ path)
  | none => do
    let port ← liftNumeral (Numeral.text a.port)
    .ok (hostText a.host port)

/-! ### Reading -/

/-- The start of an address with the path of a local socket after it. -/
def unixMark : List Char := "unix:".toList

/-- The greatest port. -/
def portLimit : Int := 65535

/-- The address with this host and port; an empty port is the default one.  `all` is the
whole text, for messages. -/
def ofHost (all : String) (host port : List Char) : Except Error Address :=
  if host.isEmpty then .error (.address (.noHost all))
  else if port.isEmpty then .ok { host := some (String.ofList host) }
  else if !port.all hasDigitValue then .error (.address (.port (String.ofList port) all))
  else do
    let number ← liftNumeral (Numeral.ofText port)
    if 0 < number ∧ number ≤ portLimit then
      .ok { host := some (String.ofList host), port := number }
    else .error (.address (.port (String.ofList port) all))

/-- The address after an opening bracket: a host up to the first closing one, and a port
after a colon. -/
def ofBracketed (all : String) (s : List Char) : Except Error Address :=
  let host := s.takeWhile (· != ']')
  match s.dropWhile (· != ']') with
  | [] => .error (.address (.unterminated all))
  | [_] => ofHost all host []
  | _ :: ':' :: port => ofHost all host port
  | _ => .error (.address (.trailing all))

/-- The address without brackets: one colon separates a port, more belong to the host. -/
def ofPlain (all : String) (s : List Char) : Except Error Address :=
  if s.count ':' = 1 then
    ofHost all (s.takeWhile (· != ':')) ((s.dropWhile (· != ':')).drop 1)
  else ofHost all s []

/-- The address that characters without white space around them spell. -/
def ofTrimmed (s : List Char) : Except Error Address :=
  let all := String.ofList s
  if s.isEmpty then .error (.address .empty)
  else if unixMark.isPrefixOf s then
    let path := s.drop unixMark.length
    if path.isEmpty then .error (.address (.noPath all))
    else .ok { unixPath := some (String.ofList path) }
  else match s with
    | '/' :: _ => .ok { unixPath := some all }
    | '[' :: rest => ofBracketed all rest
    | _ => ofPlain all s

/-- The address that a text spells. -/
def ofText (s : String) : Except Error Address :=
  ofTrimmed (trim isBlank s.toList)

/-- The text of the address that counts when none is given: the setting, unless it is
missing or empty. -/
def defaultText (setting : Option String) : String :=
  match setting with
  | some s => if s = "" then hostText defaultHost (Numeral.spelling defaultPort) else s
  | none => hostText defaultHost (Numeral.spelling defaultPort)

/-- The address that counts when none is given. -/
def ofSetting (setting : Option String) : Except Error Address :=
  ofText (defaultText setting)

end Address

end RrdCache
