import RosterPanel.Entity
import RosterPanel.Verb

/-!
# Latched controls

A control that sends a request is latched until the request is answered, so that repeated clicks
send nothing more. Each control is latched on its own. Latches are released by control, by the id
of a deleted entity, or by the verb of a request that failed; where several fit, the oldest goes.
-/

namespace RosterPanel

/-- Model of `ControlId`: a control that latches. -/
inductive Control
  | addGroup
  | addUser
  | delete (entity : EntityRef)
deriving DecidableEq, Repr

namespace Control

/-- The DOM id of a control. -/
def label : Control → String
  | .addGroup => "add-group"
  | .addUser => "add-user"
  | .delete r => "delete-" ++ r.kind.name ++ "-" ++ r.id

/-- Whether this is the control that deletes the entity with an id, of whichever kind. -/
def deletes (id : String) : Control → Bool
  | .delete r => r.id == id
  | _ => false

end Control

/-- Model of `Pending`: a latched control and the verb of the request that it waits for. -/
structure Latch where
  control : Control
  verb : Verb
deriving DecidableEq, Repr

/-- Model of `ControlGuard`: the latched controls, oldest first. -/
structure Latches where
  pending : List Latch := []
deriving DecidableEq, Repr

/-- Model of `ArmOutcome`. -/
inductive ArmOutcome
  /-- The control was free and is latched now. -/
  | armed
  /-- The control is latched already. -/
  | rejected
deriving DecidableEq, Repr

namespace Latches

instance : EmptyCollection Latches := ⟨{}⟩

/-- Model of `pending_controls`. -/
def controls (l : Latches) : List Control := l.pending.map (·.control)

/-- Model of `is_disabled`. -/
def isLatched (l : Latches) (c : Control) : Bool := l.pending.any (·.control == c)

/-- Model of `is_idle`. -/
def isIdle (l : Latches) : Bool := l.pending.isEmpty

/-- Model of `try_arm`: latches a control, unless it is latched already. -/
def arm (l : Latches) (c : Control) (v : Verb) : ArmOutcome × Latches :=
  if l.isLatched c then (.rejected, l) else (.armed, ⟨l.pending ++ [⟨c, v⟩]⟩)

/-- Takes the first element that passes out of a list. -/
def takeFirst {α : Type} (p : α → Bool) : List α → Option α × List α
  | [] => (none, [])
  | a :: rest =>
    if p a then (some a, rest)
    else
      let (found, left) := takeFirst p rest
      (found, a :: left)

/-- Model of `take_first`: releases the oldest latch that passes. -/
def releaseFirst (l : Latches) (p : Latch → Bool) : Option Control × Latches :=
  let (found, left) := takeFirst p l.pending
  (found.map (·.control), ⟨left⟩)

/-- Model of `resolve_control`: releases a control, if it is latched. -/
def releaseControl (l : Latches) (c : Control) : Option Control × Latches :=
  l.releaseFirst (·.control == c)

/-- Model of `resolve_delete`: releases the oldest delete control for an entity with an id, of
whichever kind. -/
def releaseDeletion (l : Latches) (id : String) : Option Control × Latches :=
  l.releaseFirst (·.control.deletes id)

/-- Model of `resolve_kind`: releases the oldest control that waits for a request with a verb. -/
def releaseVerb (l : Latches) (v : Verb) : Option Control × Latches :=
  l.releaseFirst (·.verb == v)

/-- Model of `release_all`: releases everything, oldest first. -/
def releaseAll (l : Latches) : List Control × Latches := (l.controls, ∅)

end Latches

end RosterPanel
