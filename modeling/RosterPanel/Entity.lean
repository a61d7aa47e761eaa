import RosterPanel.Json.Record

/-!
# Users and groups

The two kinds of entity that the panel manages, their JSON form, and references to them.
-/

namespace RosterPanel

open Json (Raw Value)

/-- Model of `EntityType`. -/
inductive EntityKind
  | user
  | group
deriving DecidableEq, Repr

namespace EntityKind

def name : EntityKind → String
  | .user => "User"
  | .group => "Group"

def ofName? (name : String) : Option EntityKind :=
  if name = "User" then some .user else if name = "Group" then some .group else none

def json (k : EntityKind) : Value := .string k.name

def ofRaw? (raw : Raw) : Option EntityKind := raw.alternative?.bind ofName?

def ofJson? (v : Value) : Option EntityKind := ofRaw? (.ofValue v)

end EntityKind

/-- Model of `Group`. -/
structure Group where
  id : String
  name : String
deriving DecidableEq, Repr

namespace Group

def fields (g : Group) : List (String × Value) :=
  [("id", .string g.id), ("name", .string g.name)]

def json (g : Group) : Value := .object g.fields

def ofRaw? (raw : Raw) : Option Group := do
  let r ← raw.record? ["id", "name"] 1
  return ⟨← r.text? "id", ← r.textOrEmpty? "name"⟩

end Group

/-- Model of `User`; the text may lack `realName`, but not `id`. -/
structure User where
  id : String
  name : String
  realName : Option String
deriving DecidableEq, Repr

namespace User

def fields (u : User) : List (String × Value) :=
  [("id", .string u.id), ("name", .string u.name)] ++
    u.realName.toList.map fun real => ("realName", .string real)

def json (u : User) : Value := .object u.fields

def ofRaw? (raw : Raw) : Option User := do
  let r ← raw.record? ["id", "name", "realName"] 1
  return ⟨← r.text? "id", ← r.textOrEmpty? "name", ← r.optional? "realName" Raw.text?⟩

def ofText? (s : String) : Option User := (Raw.ofText? s).bind ofRaw?

/-- Model of `display_name`: `realName` if there is one that is not empty, else `name`. -/
def displayName (u : User) : String :=
  match u.realName with
  | some real => if real.isEmpty then u.name else real
  | none => u.name

end User

/-- Model of `Entity`, whose JSON form is tagged by `type`. -/
inductive Entity
  | user (user : User)
  | group (group : Group)
deriving DecidableEq, Repr

/-- Model of `EntityRef`: an entity by kind and id alone. -/
structure EntityRef where
  id : String
  kind : EntityKind
deriving DecidableEq, Repr

namespace EntityRef

def json (r : EntityRef) : Value := .object [("id", .string r.id), ("type", r.kind.json)]

def ofRaw? (raw : Raw) : Option EntityRef := do
  let r ← raw.record? ["id", "type"] 2
  return ⟨← r.text? "id", ← (r.get? "type").bind EntityKind.ofRaw?⟩

def ofText? (s : String) : Option EntityRef := (Raw.ofText? s).bind ofRaw?

end EntityRef

namespace Entity

def kind : Entity → EntityKind
  | .user _ => .user
  | .group _ => .group

def id : Entity → String
  | .user u => u.id
  | .group g => g.id

def name : Entity → String
  | .user u => u.name
  | .group g => g.name

/-- Model of `to_ref`. -/
def ref (e : Entity) : EntityRef := ⟨e.id, e.kind⟩

def fields : Entity → List (String × Value)
  | .user u => u.fields
  | .group g => g.fields

/-- An entity is written with its kind in front. -/
def json (e : Entity) : Value := .object (("type", e.kind.json) :: e.fields)

def user? : Entity → Option User
  | .user u => some u
  | .group _ => none

def group? : Entity → Option Group
  | .group g => some g
  | .user _ => none

/-- Reads an entity, its kind being the tag `type`. -/
def ofRaw? (raw : Raw) : Option Entity := do
  let (tag, rest) ← raw.tagged? "type"
  match ← EntityKind.ofName? tag with
  | .user => (User.ofRaw? rest).map .user
  | .group => (Group.ofRaw? rest).map .group

def ofJson? (v : Value) : Option Entity := ofRaw? (.ofValue v)

/-- Reads an entity from a text. All of it is read, the fields that are not known too. -/
def ofText? (s : String) : Option Entity := do
  let raw ← Raw.ofText? s
  let _ ← raw.value? Raw.maxDepth
  ofRaw? raw

end Entity

/-- Model of `PropertyTarget`: what the property panel is opened for. A user may be edited from
inside a group's block; the group is then named. -/
structure Target where
  entity : EntityRef
  groupId : Option String
deriving DecidableEq, Repr

end RosterPanel
