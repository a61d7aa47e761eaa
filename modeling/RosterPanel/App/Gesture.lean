import RosterPanel.App.Basic
import RosterPanel.Drag

/-!
# Gestures

What happens when somebody clicks, drags, drops or commits a field. An event runs the listeners of
the element that it hits and then those of each element around it; which elements these are is
settled before the first listener runs.
-/

namespace RosterPanel

/-- The kinds of events, each a special case of the one before. -/
inductive EventKind
  | event
  | mouse
  | drag
deriving DecidableEq, Repr

namespace EventKind

/-- Whether an event of this kind is also one of another kind. -/
def isA : EventKind → EventKind → Bool
  | _, .event => true
  | .mouse, .mouse | .drag, .mouse | .drag, .drag => true
  | _, _ => false

end EventKind

/-- What is carried along in a drag. -/
structure Transfer where
  /-- Texts by media type. -/
  items : Table String := ∅
  /-- What the drag is allowed to do. -/
  effect : String := ""

structure Gesture where
  event : String
  kind : EventKind
  transfer : Option Transfer := none
  /-- The answer to a question that is asked meanwhile; none when asking fails. -/
  answer : Option Bool := some true

/-- An event that is being handled. -/
structure Firing where
  app : App
  transfer : Option Transfer
  /-- Whether a listener has claimed the event for itself. -/
  prevented : Bool := false

namespace Handler

/-- The kind of event that a listener is for. -/
def kind : Handler → EventKind
  | .post _ | .control _ _ => .mouse
  | .carryUser _ | .hover | .leave | .dropOn _ => .drag
  | .commit _ _ => .event

/-- The constant `GROUP_HOVER_CLASS`: the class of a block that something may be dropped on. -/
def hoverClass : String := "groupHover"

end Handler

namespace Firing

open Page (Element)

def post (m : Message) (f : Firing) : Firing := { f with app := f.app.post m }

/-- Claims the event. -/
def claim (f : Firing) : Firing := { f with prevented := true }

def adjust (n : Nat) (change : Element Nat Handler → Element Nat Handler) (f : Firing) : Firing :=
  { f with app := f.app.adjust n change }

/-- Changes what is carried along, if anything is. -/
def load (change : Transfer → Transfer) (f : Firing) : Firing :=
  { f with transfer := f.transfer.map change }

def warn (text : String) (f : Firing) : Firing := { f with app := f.app.say .warn text }

/-- Model of `confirm`: asks a question. Without a window there is nobody to ask, and the answer is
no. -/
def ask (question : String) (answer : Option Bool) (f : Firing) : Bool × Firing :=
  let shell := f.app.shell
  if shell.browser.window then
    let app := { f.app with shell := { shell with asked := shell.asked ++ [question] } }
    (answer.getD false, { f with app })
  else (false, f)

/-- The element with a number as it is now. -/
def element? (n : Nat) (f : Firing) : Option (Element Nat Handler) :=
  f.app.shell.document.element? n

/-- Runs a listener of the element `self`, for an event that hit the element `target`. As `listen`
has it, a listener passes over events of another kind than its own. -/
def handle (g : Gesture) (target self : Nat) (h : Handler) (f : Firing) : Firing :=
  if !g.kind.isA h.kind then f
  else
    match h with
    | .post m => f.post m
    | .control m question =>
      if (f.element? self).any Element.isDisabled then f
      else
        match question with
        | none => f.post m
        | some q =>
          let (agreed, f) := f.ask q g.answer
          if agreed then f.post m else f
    | .carryUser userId =>
      let text := (DragPayload.user userId).text
      f.load fun t => ⟨t.items.insert DragPayload.mediaType text, "link"⟩
    | .hover =>
      if f.transfer.any (·.items.contains DragPayload.mediaType) then
        f.claim.adjust self (·.addClass Handler.hoverClass)
      else f
    | .leave => f.adjust self (·.removeClass Handler.hoverClass)
    | .dropOn groupId =>
      let f := f.claim.adjust self (·.removeClass Handler.hoverClass)
      let dropped := f.transfer.map fun t => (t.items.find? DragPayload.mediaType).getD ""
      match dropped.bind DragPayload.userIdOfText? with
      | some userId => f.post (.assignUser userId groupId)
      | none => f.warn "Ignoring drop without a user payload"
    | .commit id key =>
      match (f.element? target).bind Element.fieldText? with
      | some value => f.post (.updateProperty id key value)
      | none => f

end Firing

namespace App

/-- Sets the text in an input field. -/
def fill (n : Nat) (text : String) (a : App) : App := a.adjust n (Page.Element.fill text)

/-- An event hits an element on the page. -/
def fire (target : Nat) (g : Gesture) (a : App) : Firing :=
  let listeners := (a.shell.document.path target).flatMap fun e =>
    (e.listeners.filter (·.event == g.event)).map fun l => (e.mark, l.handler)
  listeners.foldl (fun f l => f.handle g target l.1 l.2) { app := a, transfer := g.transfer }

end App

end RosterPanel
