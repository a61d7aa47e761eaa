import RosterPanel.Dispatch
import RosterPanel.Endpoint
import RosterPanel.Network
import RosterPanel.Outlet
import RosterPanel.View.Notice

/-!
# The shell

Everything around the panel: the network, the page, what is remembered of the page once it is laid
out, and where requests go. `Shell.host` carries out the panel's effects in it.
-/

namespace RosterPanel

/-- The network, the page and what the program keeps of them: `VIEW`, `WS_CLIENT`, `API_CONFIG`. -/
structure Shell where
  network : Network
  document : Page.Document Handler
  /-- What is remembered of the page, once it is laid out. -/
  view : Option View := none
  /-- The link over which requests go out. -/
  installed : Option Nat := none
  /-- The configured address of the backend. -/
  endpoint : Option Endpoint := none
  /-- The questions that have been asked so far. -/
  asked : List String := []

instance : Networked Shell where
  network s := s.network
  setNetwork n s := { s with network := n }

namespace Shell

def browser (s : Shell) : Browser := s.network.browser

/-- Whether `document` (`dom_utils`) gives a document. -/
def hasDocument (s : Shell) : Bool := s.browser.window && s.browser.document

/-- What is said when the program cannot get at the document. -/
def noDocument : String := "no document available"

def say (s : Shell) (level : Level) (text : String) : Shell :=
  Networked.setBrowser (·.say level text) s

/-- Model of `send_command` over the link that `setup_websocket` has installed. -/
def send (r : Request) (s : Shell) : Except LinkError Unit × Shell :=
  match s.installed with
  | none => Outlet.missing.send (fun _ s => (.ok (), s)) r s
  | some i =>
    Outlet.ready.send
      (fun text s =>
        let (result, network) := s.network.send i text
        (result, { s with network }))
      r s

/-- Model of `render` over `with_view`: draws a part of the page. Before the page is laid out there
is nothing to draw on. -/
def draw (p : Panel) (part : Drawing) (s : Shell) : Shell :=
  if s.hasDocument then
    match s.view with
    | none => s
    | some view =>
      let c := Canvas.draw p part { document := s.document, view }
      { s with document := c.document, view := some c.view }
  else s.say .error ("Render failed: " ++ Browser.thrown noDocument)

def notify (kind : NoticeKind) (text : String) (s : Shell) : Shell :=
  let (document, browser) := Notice.display kind text s.document s.browser
  Networked.setBrowser (fun _ => browser) { s with document }

/-- The shell as the host of a panel. -/
def host : Host Shell where
  send := send
  draw := draw
  notify := notify

/-- Model of `mount`: lays out the page, or says why not. -/
def mount (s : Shell) : Except String Unit × Shell :=
  if s.hasDocument then
    match Layout.mount s.document with
    | (.ok view, document) => (.ok (), { s with document, view := some view })
    | (.error e, document) => (.error e, { s with document })
  else (.error noDocument, s)

/-- Model of `get_ws_url`: the configured address, or one on the page's own host. -/
def socketUrl (s : Shell) : Except String String :=
  match s.endpoint with
  | some e => .ok e.socketUrl
  | none =>
    if s.browser.window then
      match s.browser.host, s.browser.protocol with
      | none, _ => .error "host unavailable"
      | _, none => .error "protocol unavailable"
      | some host, some protocol => .ok (Endpoint.sameOrigin host protocol)
    else .error "window unavailable"

/-- Model of `setup_websocket`: makes a new link, installs it and connects it. -/
def connect (s : Shell) : Except String Unit × Shell :=
  match s.socketUrl with
  | .error e => (.error e, s)
  | .ok url =>
    let (i, network) := s.network.addLink { url }
    let (result, network) := network.connect i
    (result.mapError LinkError.message, { s with network, installed := some i })

/-- Does what a timer was set for. -/
def run (task : Task) (s : Shell) : Shell :=
  match task with
  | .reconnect i => { s with network := s.network.retry i }
  | .dismiss n => { s with document := s.document.detach n }

end Shell

end RosterPanel
