import RosterPanel.Json.Record

/-!
# Dragged users

What a user's block carries when it is dragged onto a group: a small JSON object, which may also
come from elsewhere and is therefore checked when it is dropped.
-/

namespace RosterPanel

open Json (Raw Value)

/-- Model of `DragPayload`. -/
structure DragPayload where
  kind : String
  id : String
deriving DecidableEq, Repr

namespace DragPayload

/-- The constant `DRAG_MIME_TYPE`: the media type under which a payload travels. -/
def mediaType : String := "application/json"

/-- The constant `DRAG_KIND_USER`: the kind of a payload that stands for a user. -/
def userKind : String := "user"

/-- Model of `user` (`DragPayload`). -/
def user (id : String) : DragPayload := ⟨userKind, id⟩

def json (p : DragPayload) : Value := .object [("type", .string p.kind), ("id", .string p.id)]

/-- Model of `to_json` (`DragPayload`). -/
def text (p : DragPayload) : String := p.json.text

def ofRaw? (raw : Raw) : Option DragPayload := do
  let r ← raw.record? ["type", "id"] 2
  return ⟨← r.text? "type", ← r.text? "id"⟩

/-- The user that a payload stands for, if it is one and names it. -/
def userId? (p : DragPayload) : Option String :=
  if p.kind = userKind ∧ p.id ≠ "" then some p.id else none

/-- Model of `parse_user_drag`: the user that a dropped text stands for. -/
def userIdOfText? (s : String) : Option String := do
  (← ofRaw? (← Raw.ofText? s)).userId?

end DragPayload

end RosterPanel
