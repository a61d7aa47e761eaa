import RosterPanel.Entity
import RosterPanel.Verb

/-!
# Requests

A request to the backend is one JSON object: a verb, and as far as the verb needs them the id of
the entity that it is about, a tag that the answer repeats, and a body. The builders below are all
the requests that the panel makes; `create` ones are in `RosterPanel.Placeholder`.
-/

namespace RosterPanel

open Json (Raw Value)

/-- Property values by name. -/
abbrev Properties := Table Value

/-- Model of `EntityPayload`: a body that describes an entity, as far as it is described. -/
structure Description where
  kind : Option EntityKind := none
  name : Option String := none
  realName : Option String := none
  id : Option String := none
deriving DecidableEq, Repr

namespace Description

/-- The parts that are there, in their fixed order. -/
def fields (d : Description) : List (String × Value) :=
  (d.kind.map fun k => ("type", k.json)).toList ++
  (d.name.map fun s => ("name", Value.string s)).toList ++
  (d.realName.map fun s => ("realName", Value.string s)).toList ++
  (d.id.map fun s => ("id", Value.string s)).toList

def json (d : Description) : Value := .object d.fields

def ofRaw? (raw : Raw) : Option Description := do
  let r ← raw.record? ["type", "name", "realName", "id"] 4
  return {
    kind := ← r.optional? "type" EntityKind.ofRaw?
    name := ← r.optional? "name" Raw.text?
    realName := ← r.optional? "realName" Raw.text?
    id := ← r.optional? "id" Raw.text? }

end Description

/-- Model of `CommandData`, which is untagged: a description is tried first. -/
inductive Body
  | description (entity : Description)
  | properties (values : Properties)

namespace Body

def json : Body → Value
  | .description d => d.json
  | .properties p => .ofTable p

/-- Reads a body: a description wherever it can be one, else an object of properties. -/
def ofRaw? (room : Nat) (raw : Raw) : Option Body := do
  let v ← raw.value? room
  match Description.ofRaw? raw with
  | some d => return .description d
  | none => v.table?.map .properties

end Body

/-- Model of `CommandEnvelope`. -/
structure Request where
  verb : Verb
  id : Option String := none
  callback : Option String := none
  body : Option Body := none

namespace Request

def json (r : Request) : Value :=
  .object <|
    [("command", r.verb.json)] ++
    (r.id.map fun s => ("id", Value.string s)).toList ++
    (r.callback.map fun s => ("callback", Value.string s)).toList ++
    (r.body.map fun b => ("data", b.json)).toList

/-- Model of `to_json` (`CommandEnvelope`): the text that goes over the wire. -/
def text (r : Request) : String := r.json.text

def ofRaw? (raw : Raw) : Option Request := do
  let r ← raw.record? ["command", "id", "callback", "data"] 4
  return {
    verb := ← (r.get? "command").bind Verb.ofRaw?
    id := ← r.optional? "id" Raw.text?
    callback := ← r.optional? "callback" Raw.text?
    body := ← r.optional? "data" (Body.ofRaw? (Raw.maxDepth - 1)) }

def ofText? (s : String) : Option Request := (Raw.ofText? s).bind ofRaw?

/-- Model of `payload` (`CommandEnvelope`): the description in the body, if that is what the body
is. -/
def description? (r : Request) : Option Description :=
  match r.body with
  | some (.description d) => some d
  | _ => none

/-! ## Builders -/

/-- Model of `delete`: asks to delete an entity, which is described by kind, name and id. -/
def delete (e : Entity) : Request where
  verb := .delete
  id := e.id
  body := some (.description { kind := e.kind, name := e.name, id := e.id })

/-- Model of `list`: asks for all entities of a kind. -/
def list (k : EntityKind) : Request where
  verb := .list
  body := some (.description { kind := k })

/-- Model of `add_to_group`: asks to make a user a member of a group. -/
def addToGroup (userId groupId : String) : Request where
  verb := .add
  id := groupId
  body := some (.description { id := userId })

/-- Model of `remove_from_group`: asks to end a user's membership in a group. -/
def removeFromGroup (userId groupId : String) : Request where
  verb := .remove
  id := groupId
  body := some (.description { id := userId })

/-- Model of `list_members`: asks for the members of a group. -/
def listMembers (groupId : String) : Request where
  verb := .children
  id := groupId

/-- Model of `get_properties`: asks for the properties of an entity. -/
def getProperties (id : String) : Request where
  verb := .get
  id := id

/-- Model of `update_property`: asks to set one property of an entity to a text. -/
def updateProperty (id key value : String) : Request where
  verb := .update
  id := id
  body := some (.properties ((∅ : Properties).insert key (.string value)))

end Request

end RosterPanel
