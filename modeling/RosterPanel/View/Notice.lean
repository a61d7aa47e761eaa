import RosterPanel.Browser
import RosterPanel.View.Layout

/-!
# Notices

Short notices in a corner of the page, the newest on top, each of which goes away after a while.
-/

namespace RosterPanel

open Page (Document)

namespace NoticeKind

/-- Model of `class_name` (`ToastKind`). -/
def className : NoticeKind → String
  | .success => "toast-success"
  | .error => "toast-error"

end NoticeKind

namespace Notice

def styleId : String := "toast-styles"

def styles : List StyleRule :=
  [⟨".toast-root", "position:fixed;top:16px;right:16px;display:flex;flex-direction:column;" ++
      "gap:8px;z-index:9999;font-family:Arial,Helvetica,sans-serif"⟩,
    ⟨".toast", "padding:10px 16px;border-radius:4px;color:#fff;" ++
      "box-shadow:0 2px 4px rgba(0,0,0,.1);opacity:0;animation:toast-in .2s forwards"⟩,
    ⟨".toast-success", "background:#16a34a"⟩,
    ⟨".toast-error", "background:#dc2626"⟩,
    ⟨"@keyframes toast-in", "to\x7bopacity:1\x7d"⟩]

def rootId : String := "toast-root"

/-- The constant `TOAST_TIMEOUT_MS`: how long a notice stays, in milliseconds. -/
def duration : Int := 4000

/-- Model of `ensure_root`: the corner for notices, which is put into the body if it is missing;
none when there is no body. -/
def ensureRoot? (d : Document Handler) : Option (Nat × Document Handler) :=
  match d.byId? rootId with
  | some n => some (n, d)
  | none =>
    (Layout.rootNumber? d.body).map fun parent =>
      Layout.put d parent (.element ((Sketch.styled "div" rootId).setAttribute "id" rootId) [])

def sketch (kind : NoticeKind) (text : String) : Sketch :=
  .element ((Sketch.styled "div" "toast").addClass kind.className) (Sketch.textNodes text)

/-- Model of `show` over `try_show`: shows a notice and sets a timer to take it away. As far as the
page has no place for it, it is not shown; if no timer can be set, it stays. -/
def display (kind : NoticeKind) (text : String) (d : Document Handler) (b : Browser) :
    Document Handler × Browser :=
  if b.window && b.document then
    match Layout.ensureStyles? d styleId styles with
    | none => (d, b)
    | some d =>
      match ensureRoot? d with
      | none => (d, b)
      | some (root, d) =>
        let (node, entered) := d.enter (sketch kind text)
        let shown := entered.prepend root (node.mapMark (·.2))
        match b.setTimer duration (.dismiss d.fresh) with
        | .ok (_, b) => (shown, b)
        | .error _ => (shown, b)
  else (d, b)

end Notice

end RosterPanel
