/-!
# The browser around the panel

What a page offers to a program, its document aside: a console, timers on a clock, and sockets.
Sockets only record what is done to them; what happens on them comes from outside.
-/

namespace RosterPanel

inductive Level
  | log
  | warn
  | error
deriving DecidableEq, Repr

/-- What a timer is for. -/
inductive Task
  /-- Connect a link again. -/
  | reconnect (link : Nat)
  /-- Take a notice off the page. -/
  | dismiss (element : Nat)
deriving DecidableEq, Repr

structure Timer where
  id : Nat
  /-- The time at which it fires. -/
  due : Nat
  /-- The delay that was asked for, which may be negative. -/
  delay : Int
  task : Task
deriving DecidableEq, Repr

structure Socket where
  url : String
  /-- The link that opened it. -/
  owner : Nat
  sent : List String := []
  /-- The codes with which it was closed. -/
  closed : List Nat := []
  /-- What the next sends throw, if anything, one entry for each. -/
  sendErrors : List (Option String) := []
  /-- What sending throws after those, if anything. -/
  sendError : Option String := none
  /-- What closing throws, if anything. -/
  closeError : Option String := none
deriving DecidableEq, Repr

namespace Socket

/-- What the next send throws, if anything. -/
def nextSendError? (s : Socket) : Option String := s.sendErrors.headD s.sendError

/-- The socket when a send has been tried. -/
def tried (s : Socket) : Socket := { s with sendErrors := s.sendErrors.tail }

end Socket

/-- What the program needs of a page beside its document. -/
structure Browser where
  /-- Whether there is a window to set timers and ask questions with. -/
  window : Bool := true
  /-- Whether the window has a document. -/
  document : Bool := true
  /-- The page's host, if it can be read. -/
  host : Option String := none
  /-- The page's protocol, if it can be read. -/
  protocol : Option String := none
  /-- What setting a timer throws, if anything. -/
  timerError : Option String := none
  /-- What opening a socket throws, if anything. -/
  socketError : Option String := none
  now : Nat := 0
  nextTimer : Nat := 1
  /-- The pending timers, in order of creation. -/
  timers : List Timer := []
  sockets : List Socket := []
  console : List (Level × String) := []
deriving DecidableEq, Repr

namespace Browser

/-- How a thrown text is quoted in console lines. -/
def thrown (text : String) : String := "JsValue(\"" ++ text ++ "\")"

def say (b : Browser) (level : Level) (text : String) : Browser :=
  { b with console := b.console ++ [(level, text)] }

/-- Opens a socket for a link. -/
def openSocket (b : Browser) (url : String) (owner : Nat) : Except String (Nat × Browser) :=
  match b.socketError with
  | some e => .error e
  | none => .ok (b.sockets.length, { b with sockets := b.sockets ++ [{ url, owner }] })

/-- Changes the socket with a number, if there is one. -/
def modifySocket (b : Browser) (s : Nat) (f : Socket → Socket) : Browser :=
  { b with sockets := b.sockets.modify s f }

def sendOn (b : Browser) (s : Nat) (text : String) : Except String Unit × Browser :=
  match b.sockets[s]?.bind Socket.nextSendError? with
  | some e => (.error e, b.modifySocket s Socket.tried)
  | none =>
    (.ok (), b.modifySocket s fun socket =>
      { socket.tried with sent := socket.sent ++ [text] })

def closeSocket (b : Browser) (s : Nat) (code : Nat) : Except String Browser :=
  match b.sockets[s]?.bind (·.closeError) with
  | some e => .error e
  | none => .ok (b.modifySocket s fun socket => { socket with closed := socket.closed ++ [code] })

/-- Sets a timer; a negative delay counts as none. -/
def setTimer (b : Browser) (delay : Int) (task : Task) : Except String (Nat × Browser) :=
  match b.timerError with
  | some e => .error e
  | none =>
    let timer : Timer := { id := b.nextTimer, due := b.now + delay.toNat, delay, task }
    .ok (timer.id, { b with nextTimer := b.nextTimer + 1, timers := b.timers ++ [timer] })

def clearTimer (b : Browser) (id : Nat) : Browser :=
  { b with timers := b.timers.filter (·.id != id) }

/-- Of two timers the one that fires first; of two due at once the first. -/
def earlier (s t : Timer) : Timer := if t.due < s.due then t else s

/-- The timer that fires next, if one is due by a time. -/
def nextDue? (b : Browser) (limit : Nat) : Option Timer :=
  match b.timers.filter (·.due ≤ limit) with
  | [] => none
  | t :: rest => some (rest.foldl earlier t)

/-- A timer has fired: the clock shows its time. -/
def expire (b : Browser) (t : Timer) : Browser := { b.clearTimer t.id with now := t.due }

end Browser

end RosterPanel
