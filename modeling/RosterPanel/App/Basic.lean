import RosterPanel.App.Shell
import RosterPanel.Frame

/-!
# The application

The panel in its shell, and everything that can be done to it from outside: starting it, messages,
frames, events on sockets, and the passing of time. Gestures are in `RosterPanel.App.Gesture`.
-/

namespace RosterPanel

/-- The content of `APP_STATE`, in its shell. -/
structure App where
  panel : Panel
  shell : Shell

instance : Networked App where
  network a := a.shell.network
  setNetwork n a := { a with shell := { a.shell with network := n } }

namespace App

/-- Model of `dispatch_global_message`: hands a message to the panel and carries out everything that
follows. -/
def post (m : Message) (a : App) : App :=
  let (panel, shell) := dispatch Shell.host m (a.panel, a.shell)
  { panel, shell }

def say (level : Level) (text : String) (a : App) : App :=
  { a with shell := a.shell.say level text }

/-- Changes the element with a number, its children aside. -/
def adjust (n : Nat) (f : Page.Element Nat Handler → Page.Element Nat Handler) (a : App) : App :=
  { a with shell := { a.shell with document := a.shell.document.adjustElement n f } }

/-- Does something in the shell that may fail. -/
def inShell (f : Shell → Except String Unit × Shell) (a : App) : Except String Unit × App :=
  let (result, shell) := f a.shell
  (result, { a with shell })

def mount (a : App) : Except String Unit × App := a.inShell Shell.mount

def connect (a : App) : Except String Unit × App := a.inShell Shell.connect

/-- Model of `start`: lays out the page and connects to the backend. -/
def start (a : App) : Except String Unit × App :=
  match a.mount with
  | (.ok _, a) => a.connect
  | failed => failed

/-- Model of `init_api_config_js`: sets the address of the backend. -/
def configure (url : String) (a : App) : App :=
  { a with shell := { a.shell with endpoint := some (Endpoint.ofUrl url) } }

/-- Model of `receive_server_message` for a frame that is read. -/
def receive (f : Frame) (a : App) : App :=
  match f.message? with
  | some m => a.post m
  | none => a

/-- The callbacks that `setup_websocket` sets: takes what a link tells. A text that is no frame is
passed over. -/
def told (signal : Signal) (a : App) : App :=
  match signal with
  | .connected => a.post .connectionOpened
  | .disconnected => a.post .connectionLost
  | .received text =>
    match Message.ofText? text with
    | some m => a.post m
    | none => a

def run (task : Task) (a : App) : App := { a with shell := a.shell.run task }

/-- Something happens on a socket. -/
def socketEvent (s : Nat) (e : SocketEvent) (a : App) : App := Networked.socketEvent told s e a

/-- Time passes. -/
def tick (ms : Nat) (a : App) : App := Networked.tick run ms a

/-- Model of `show`: shows a notice. -/
def notify (kind : NoticeKind) (text : String) (a : App) : App :=
  { a with shell := a.shell.notify kind text }

/-- Model of `append_user_element`: puts the block of a single user on the page, into the list of
users or into the block of a group. Gives the number of the block, if there is one. -/
def appendUser (u : User) (groupId : Option String) (a : App) :
    Except String (Option Nat) × App :=
  if a.shell.hasDocument then
    match a.shell.view with
    | none => (.ok none, a)
    | some view =>
      let c : Canvas := { document := a.shell.document, view }
      let drawn := match groupId with
        | none => some (c.addUser a.panel.latches.isLatched u)
        | some g => c.addMember? g u
      match drawn with
      | some (n, c) =>
        (.ok (some n),
          { a with shell := { a.shell with document := c.document, view := some c.view } })
      | none =>
        let text := "No block for group " ++ groupId.getD "" ++ ", skipping member " ++ u.id
        (.ok none, a.say .warn text)
  else (.error Shell.noDocument, a)

end App

end RosterPanel
