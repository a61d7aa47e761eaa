import RosterPanel.Link
import RosterPanel.Request

/-!
# Outlets

Where requests go out: nowhere as long as no client is installed, and not while the client is being
changed by somebody else.
-/

namespace RosterPanel

/-- The state of `WS_CLIENT`: nothing installed, in use by somebody else, or free. -/
inductive Outlet
  | missing
  | busy
  | ready
deriving DecidableEq, Repr

namespace Outlet

/-- Model of `send_command`: sends a request; `carry` is how the installed client sends a text. -/
def send {ω : Type} (o : Outlet) (carry : String → ω → Except LinkError Unit × ω) (r : Request)
    (w : ω) : Except LinkError Unit × ω :=
  match o with
  | .missing => (.error .notInitialized, w)
  | .busy => (.error (.socket "transport is busy"), w)
  | .ready => carry r.text w

end Outlet

/-- A client without a socket: it keeps what is sent while it is connected. -/
structure Recorder where
  phase : Phase
  sent : List String := []
deriving DecidableEq, Repr

namespace Recorder

def carry (text : String) (r : Recorder) : Except LinkError Unit × Recorder :=
  if r.phase = .connected then (.ok (), { r with sent := r.sent ++ [text] })
  else (.error .notConnected, r)

end Recorder

end RosterPanel
