import RosterPanel.Browser

/-!
# Links

A link is a connection to the backend that comes back by itself: when its socket closes it waits,
each time longer, and opens another one. What happens on a socket is handled in two halves, since
the panel is told in between: `hear` first, and `afterClose` when a close has been told.
-/

namespace RosterPanel

/-- Model of `ConnectionState`. -/
inductive Phase
  | disconnected
  | connecting
  | connected
deriving DecidableEq, Repr

namespace Phase

def name : Phase → String
  | .disconnected => "Disconnected"
  | .connecting => "Connecting"
  | .connected => "Connected"

end Phase

/-- Model of `TransportError`: why a request could not go out. -/
inductive LinkError
  | notInitialized
  | notConnected
  | socket (text : String)
deriving DecidableEq, Repr

namespace LinkError

/-- The text of an error, which a `CommandFailed` carries. -/
def message : LinkError → String
  | .notInitialized => "WebSocket is not initialized"
  | .notConnected => "WebSocket is not connected"
  | .socket text => "WebSocket error: " ++ text

end LinkError

/-- Model of `WsConfig`. -/
structure LinkSettings where
  url : String
  /-- The delay before a first retry, in milliseconds, before it is doubled. -/
  initialDelay : UInt32 := 1000
  /-- No delay is longer than this. -/
  maxDelay : UInt32 := 30000
deriving DecidableEq, Repr

namespace LinkSettings

/-- Model of `saturating_mul`: `min (a * b) (2 ^ 32 - 1)`. -/
def saturatingMul (a b : UInt32) : UInt32 :=
  UInt32.ofNat (min (a.toNat * b.toNat) (UInt32.size - 1))

/-- Model of `get_backoff_ms`: the delay after a number of failed attempts,
`initialDelay * 2 ^ min attempt 10`, and `maxDelay` at most. -/
def delay (s : LinkSettings) (attempt : UInt32) : UInt32 :=
  min (saturatingMul s.initialDelay (UInt32.ofNat (Nat.pow 2 (min attempt.toNat 10)))) s.maxDelay

end LinkSettings

/-- What happens on a socket. -/
inductive SocketEvent
  | opened
  | closed
  | failed
  /-- A message, with its text if it is one. -/
  | message (text : Option String)
deriving DecidableEq, Repr

/-- What a link tells the panel. -/
inductive Signal
  | connected
  | received (text : String)
  | disconnected
deriving DecidableEq, Repr

/-- Model of `WsClient`, its three callbacks aside: what they are told of is a `Signal`. -/
structure Link where
  settings : LinkSettings
  phase : Phase := .disconnected
  /-- How many attempts have failed since the link was last connected. -/
  attempt : UInt32 := 0
  /-- The timer that was last set to connect again. -/
  timer : Option Nat := none
  /-- Whether the link was closed from this side. -/
  retired : Bool := false
  /-- The socket in use. -/
  socket : Option Nat := none
deriving DecidableEq, Repr

namespace Link

/-- Model of `clear_reconnect_timeout`: clears the timer that the link remembers. Without a window
it is only forgotten. -/
def clearTimer (l : Link) (b : Browser) : Link × Browser :=
  match l.timer with
  | none => (l, b)
  | some t => ({ l with timer := none }, if b.window then b.clearTimer t else b)

/-- Model of `connect` (`WsClient`), for the link that goes by the number `self`. If no socket can
be opened the link is left as it is then. -/
def connect (l : Link) (self : Nat) (b : Browser) : Except LinkError Unit × Link × Browser :=
  let b := b.say .log ("Connecting to " ++ l.settings.url)
  let l := { l with attempt := 0, retired := false, phase := .connecting }
  match b.openSocket l.settings.url self with
  | .error e => (.error (.socket (Browser.thrown e)), l, b)
  | .ok (s, b) =>
    let (l, b) := l.clearTimer b
    (.ok (), { l with socket := some s }, b)

/-- Model of `schedule_reconnect`: sets a timer to connect again. -/
def scheduleRetry (l : Link) (self : Nat) (b : Browser) : Link × Browser :=
  if b.window then
    match b.setTimer (l.settings.delay l.attempt).toInt32.toInt (.reconnect self) with
    | .ok (t, b) => ({ l with timer := some t }, b)
    | .error e => (l, b.say .error ("Failed to schedule reconnection: " ++ Browser.thrown e))
  else (l, b)

/-- What the timer of `schedule_reconnect` does when it fires. -/
def retry (l : Link) (self : Nat) (b : Browser) : Link × Browser :=
  if l.phase = .disconnected then
    let b := b.say .log
      ("Attempting reconnection (attempt " ++ toString l.attempt.toNat ++ ")")
    let l := { l with phase := .connecting }
    match b.openSocket l.settings.url self with
    | .ok (s, b) => ({ l with socket := some s }, b)
    | .error e =>
      let b := b.say .error
        ("Failed to create WebSocket during reconnect: " ++ Browser.thrown e)
      scheduleRetry { l with phase := .disconnected, attempt := l.attempt + 1 } self b
  else (l, b)

/-- The listeners that `establish_connection` puts on a socket, up to the callback that each calls:
what the link tells. Sockets from earlier keep theirs. -/
def hear (l : Link) (b : Browser) : SocketEvent → Option Signal × Link × Browser
  | .opened =>
    (some .connected, { l with phase := .connected, attempt := 0 },
      b.say .log "WebSocket connected")
  | .closed =>
    (some .disconnected, { l with phase := .disconnected }, b.say .log "WebSocket closed")
  | .failed => (none, l, b.say .error "WebSocket error: \"error\"")
  | .message (some text) => (some (.received text), l, b)
  | .message none => (none, l, b.say .warn "Received non-text WebSocket message")

/-- The rest of the close listener, when the close has been told: unless the link was closed from
this side, it will connect again. -/
def afterClose (l : Link) (self : Nat) (b : Browser) : Link × Browser :=
  if l.retired then (l, b) else scheduleRetry { l with attempt := l.attempt + 1 } self b

/-- Model of `send_serialized_message`. -/
def send (l : Link) (text : String) (b : Browser) : Except LinkError Unit × Browser :=
  match l.socket with
  | none => (.error .notInitialized, b)
  | some s =>
    if l.phase = .connected then
      let (result, b) := b.sendOn s text
      (result.mapError fun e => .socket (Browser.thrown e), b)
    else (.error .notConnected, b)

/-- The code of a close that nothing is wrong with. -/
def normalClosure : Nat := 1000

/-- Model of `close` (`WsClient`): closes the link from this side. -/
def close (l : Link) (b : Browser) : Except LinkError Unit × Link × Browser :=
  let (l, b) := l.clearTimer b
  let closing := l.socket
  let l := { l with retired := true, phase := .disconnected, socket := none }
  match closing with
  | none => (.ok (), l, b)
  | some s =>
    match b.closeSocket s normalClosure with
    | .ok b => (.ok (), l, b)
    | .error e => (.error (.socket (Browser.thrown e)), l, b)

end Link

end RosterPanel
