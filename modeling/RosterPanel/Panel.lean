import RosterPanel.Message
import RosterPanel.Placeholder

/-!
# The panel

What the panel knows, and how a message changes it. Nothing is changed ahead of an answer of the
backend: gestures send requests, and answers change what is cached. Everything that has to happen
outside (requests, drawing, notices) is asked for by effects, in order.
-/

namespace RosterPanel

/-- Model of `PropertyPanel`: what it is for and, once the backend has answered, the properties. -/
structure Editor where
  target : Target
  properties : Option Properties := none

/-- Model of `AdminState`. -/
structure Panel where
  /-- The groups, in the order of the backend. -/
  groups : List Group := []
  /-- The users, in the order of the backend. -/
  users : List User := []
  /-- The users in each group, by the group's id. -/
  members : Table (List User) := ∅
  /-- Whether the groups have been listed since they were last asked for. -/
  groupsListed : Bool := false
  /-- Whether the users have been listed since they were last asked for. -/
  usersListed : Bool := false
  /-- The controls that wait for an answer. -/
  latches : Latches := ∅
  editor : Option Editor := none
  connected : Bool := false
  /-- Where placeholder numbers are drawn from. -/
  words : Words

namespace Panel

/-- Model of `new` (`AdminState`): a panel that has heard nothing yet. -/
def fresh (words : Words) : Panel where
  words := words

/-- Model of `group` (`AdminState`). -/
def group? (p : Panel) (id : String) : Option Group := p.groups.find? (·.id == id)

/-- Model of `user` (`AdminState`). -/
def user? (p : Panel) (id : String) : Option User := p.users.find? (·.id == id)

/-- Model of `members_of`. -/
def membersOf (p : Panel) (groupId : String) : List User := (p.members.find? groupId).getD []

/-- A panel after a message, and the effects that the message has. -/
abbrev Reaction := Panel × List Effect

/-! ## Connection -/

/-- Model of `update` on `ConnectionOpened`. -/
def connectionOpened (p : Panel) : Reaction :=
  ({ p with connected := true }, [.chain .refreshGroups, .chain .refreshUsers])

/-- Model of `update` on `ConnectionLost`. No answer will come any more, so all controls are freed.
Only the first loss is reported: attempts to reconnect may fail too. -/
def connectionLost (p : Panel) : Reaction :=
  let (released, latches) := p.latches.releaseAll
  ({ p with connected := false, latches },
    released.map .free ++
      if p.connected then [.notify .error "Connection to the server lost"] else [])

/-! ## Lists -/

/-- Model of `update` on `RefreshGroups`. -/
def refreshGroups (p : Panel) : Reaction :=
  ({ p with groups := [], members := ∅, groupsListed := false },
    [.draw .groups, .send (.list .group)])

/-- Model of `update` on `RefreshUsers`. -/
def refreshUsers (p : Panel) : Reaction :=
  ({ p with users := [], usersListed := false }, [.draw .users, .send (.list .user)])

/-- Model of `update` on `RefreshGroup`. -/
def refreshGroup (p : Panel) (groupId : String) : Reaction :=
  ({ p with members := p.members.erase groupId },
    [.drawMembers groupId, .send (.listMembers groupId)])

/-- Model of `update` on `EntitiesListed` for groups: takes over their list. Members stay known for
groups that are still there, and are asked for anew. -/
def groupsListing (p : Panel) (groups : List Group) : Reaction :=
  ({ p with
      groups
      groupsListed := true
      members := p.members.filter fun id => groups.any (·.id == id) },
    .draw .groups :: groups.map fun g => .send (.listMembers g.id))

/-- Model of `update` on `EntitiesListed` for users. -/
def usersListing (p : Panel) (users : List User) : Reaction :=
  ({ p with users, usersListed := true }, [.draw .users])

/-- Model of `update` on `MembersListed`: takes over the members of a group that is known. -/
def membersListed (p : Panel) (groupId : String) (users : List User) : Reaction :=
  if (p.group? groupId).isSome then
    ({ p with members := p.members.insert groupId users }, [.drawMembers groupId])
  else (p, [])

/-! ## Creation and deletion -/

/-- Model of `guarded_send`: latches a control and sends its request, unless the control is latched
already. -/
def latchedSend (p : Panel) (c : Control) (r : Request) : Reaction :=
  match p.latches.arm c r.verb with
  | (.rejected, _) => (p, [])
  | (.armed, latches) => ({ p with latches }, [.draw (.control c true), .send r])

/-- Model of `update` on `RequestCreateGroup` and `RequestCreateUser`. The placeholder is drawn
before the control is looked at. -/
def requestCreate (p : Panel) (k : EntityKind) : Reaction :=
  let (request, words) := Placeholder.create k p.words
  let control := match k with
    | .group => Control.addGroup
    | .user => Control.addUser
  latchedSend { p with words } control request

/-- Model of `update` on `RequestDelete`. -/
def requestDelete (p : Panel) (e : Entity) : Reaction :=
  latchedSend p (.delete e.ref) (.delete e)

/-- The control whose request a creation may answer. Creations are news to everybody; a user of the
panel's own making is told by its tag. -/
def creator? (e : Entity) (callback : Option String) : Option Control :=
  match e with
  | .group _ => some .addGroup
  | .user _ => if callback = some Placeholder.userTag then some .addUser else none

def createdText : Entity → String
  | .group g => "Group '" ++ g.name ++ "' created"
  | .user u => "User '" ++ u.displayName ++ "' created"

/-- Appends an entity to its list, unless its id is there already. -/
def adopt (p : Panel) : Entity → Reaction
  | .group g =>
    (if (p.group? g.id).isNone then { p with groups := p.groups ++ [g] } else p, [.draw .groups])
  | .user u =>
    (if (p.user? u.id).isNone then { p with users := p.users ++ [u] } else p, [.draw .users])

/-- Model of `update` on `EntityCreated`. -/
def entityCreated (p : Panel) (e : Entity) (callback : Option String) : Reaction :=
  let (released, latches) := match creator? e callback with
    | some c => p.latches.releaseControl c
    | none => (none, p.latches)
  let (p, effects) := adopt { p with latches } e
  (p, (match released with
    | some c => [.free c, .notify .success (createdText e)]
    | none => []) ++ effects)

/-- The ids of the groups with a member that passes, ascending. -/
def groupsWith (p : Panel) (passes : User → Bool) : List String :=
  (p.members.entries.filter fun e => e.2.any passes).map (·.1)

theorem mem_groupsWith {p : Panel} {passes : User → Bool} {groupId : String} :
    groupId ∈ p.groupsWith passes ↔ ∃ u ∈ p.membersOf groupId, passes u = true := by
  rw [groupsWith, List.mem_map, membersOf]
  constructor
  · rintro ⟨e, he, rfl⟩
    obtain ⟨hentry, hany⟩ := List.mem_filter.1 he
    rw [Table.mem_entries.1 hentry]
    exact List.any_eq_true.1 hany
  · rintro ⟨u, hu, hpasses⟩
    cases hfind : p.members.find? groupId with
    | none => simp [hfind] at hu
    | some users =>
      rw [hfind] at hu
      refine ⟨(groupId, users), List.mem_filter.2 ⟨Table.mem_entries.2 hfind, ?_⟩, rfl⟩
      exact List.any_eq_true.2 ⟨u, hu, hpasses⟩

theorem ascending_groupsWith (p : Panel) (passes : User → Bool) :
    (p.groupsWith passes).Pairwise (· < ·) :=
  List.pairwise_map.2 (p.members.ascending.filter _)

/-- Model of `apply_deletion`: forgets everything that has an id: groups, users, members, and the
panel open for it. -/
def forget (p : Panel) (id : String) : Reaction :=
  let groupGone := p.groups.any (·.id == id)
  let userGone := p.users.any (·.id == id)
  let p : Panel := { p with
    groups := p.groups.filter (·.id != id)
    users := p.users.filter (·.id != id)
    members := if groupGone then p.members.erase id else p.members }
  let touched := p.groupsWith (·.id == id)
  let editorGone := p.editor.any (·.target.entity.id == id)
  ({ p with
      members := p.members.map fun users => users.filter (·.id != id)
      editor := if editorGone then none else p.editor },
    (if groupGone then [.draw .groups] else []) ++
      (if userGone then [.draw .users] else []) ++
      touched.map .drawMembers ++
      if editorGone then [.draw .properties] else [])

/-- Model of `update` on `EntityDeleted`. -/
def entityDeleted (p : Panel) (id : String) : Reaction :=
  let (released, latches) := p.latches.releaseDeletion id
  let (p, effects) := forget { p with latches } id
  (p, released.toList.map .free ++ effects)

/-! ## Membership -/

/-- Model of `update` on `MemberAdded`: adds a user to a group that is known. Of a user who is not
known the whole member list is asked for. -/
def memberAdded (p : Panel) (userId groupId : String) : Reaction :=
  if (p.group? groupId).isNone then (p, [])
  else
    match p.user? userId with
    | none => (p, [.send (.listMembers groupId)])
    | some u =>
      let users := p.membersOf groupId
      let users := if users.any (·.id == u.id) then users else users ++ [u]
      ({ p with members := p.members.insert groupId users }, [.drawMembers groupId])

/-- Model of `update` on `MemberRemoved`. -/
def memberRemoved (p : Panel) (userId groupId : String) : Reaction :=
  match p.members.find? groupId with
  | none => (p, [])
  | some users =>
    ({ p with members := p.members.insert groupId (users.filter (·.id != userId)) },
      [.drawMembers groupId])

/-! ## Properties -/

/-- Model of `update` on `EditProperties`: opens the property panel for a target, or closes it if it
is open for that very target. -/
def editProperties (p : Panel) (target : Target) : Reaction :=
  if p.editor.any (·.target == target) then ({ p with editor := none }, [.draw .properties])
  else
    ({ p with editor := some { target } },
      [.send (.getProperties target.entity.id), .draw .properties])

/-- Changes the properties that are shown, if the panel is open for an id. -/
def showProperties (p : Panel) (id : String) (change : Option Properties → Properties) :
    Reaction :=
  match p.editor with
  | none => (p, [])
  | some e =>
    if e.target.entity.id = id then
      ({ p with editor := some { e with properties := some (change e.properties) } },
        [.draw .properties])
    else (p, [])

/-- Model of `update` on `PropertiesLoaded`. -/
def propertiesLoaded (p : Panel) (id : String) (properties : Properties) : Reaction :=
  p.showProperties id fun _ => properties

/-- The names that an update brings, as far as `as_str` finds texts. -/
structure Patch where
  name : Option String
  realName : Option String
deriving DecidableEq, Repr

namespace Patch

def ofProperties (properties : Properties) : Patch where
  name := (properties.find? "name").bind Json.Value.string?
  realName := (properties.find? "realName").bind Json.Value.string?

def group (patch : Patch) (g : Group) : Group := { g with name := patch.name.getD g.name }

def user (patch : Patch) (u : User) : User :=
  { u with name := patch.name.getD u.name, realName := patch.realName.or u.realName }

end Patch

/-- Changes the first element that passes. -/
def modifyFirst {α : Type} (p : α → Bool) (f : α → α) : List α → List α
  | [] => []
  | a :: rest => if p a then f a :: rest else a :: modifyFirst p f rest

/-- Model of `update` on `EntityUpdated`: renames the entity with an id wherever it is cached, and
overlays the properties that are shown for it. -/
def entityUpdated (p : Panel) (id : String) (properties : Properties) : Reaction :=
  let patch := Patch.ofProperties properties
  let groupTouched := p.groups.any (·.id == id)
  let userTouched := p.users.any (·.id == id)
  let touched := p.groupsWith (·.id == id)
  let p : Panel := { p with
    groups := modifyFirst (·.id == id) patch.group p.groups
    users := modifyFirst (·.id == id) patch.user p.users
    members := p.members.map (modifyFirst (·.id == id) patch.user) }
  let (p, shown) := p.showProperties id fun old => (old.getD ∅).insertAll properties.entries
  (p, (if groupTouched then [.draw .groups] else []) ++
    (if userTouched then [.draw .users] else []) ++
    touched.map .drawMembers ++ shown)

/-! ## Failure -/

/-- Model of `update` on `CommandFailed`: frees the oldest control that waits for a request of this
kind, and reports the failure. -/
def commandFailed (p : Panel) (v : Verb) (text : String) : Reaction :=
  let (released, latches) := p.latches.releaseVerb v
  ({ p with latches },
    released.toList.map .free ++
      [.notify .error (v.name ++ " failed: " ++ text)])

/-! ## All messages -/

/-- Model of `update`, as `dispatch` (`AdminState`) runs it: how the panel takes a message. -/
def react (p : Panel) : Message → Reaction
  | .connectionOpened => p.connectionOpened
  | .connectionLost => p.connectionLost
  | .refreshGroups => p.refreshGroups
  | .refreshUsers => p.refreshUsers
  | .refreshGroup groupId => p.refreshGroup groupId
  | .entitiesListed .group entities => p.groupsListing (entities.filterMap Entity.group?)
  | .entitiesListed .user entities => p.usersListing (entities.filterMap Entity.user?)
  | .membersListed groupId users => p.membersListed groupId users
  | .requestCreateGroup => p.requestCreate .group
  | .requestCreateUser => p.requestCreate .user
  | .requestDelete entity => p.requestDelete entity
  | .entityCreated entity callback => p.entityCreated entity callback
  | .entityDeleted id => p.entityDeleted id
  | .assignUser userId groupId => (p, [.send (.addToGroup userId groupId)])
  | .removeUser userId groupId => (p, [.send (.removeFromGroup userId groupId)])
  | .memberAdded userId groupId => p.memberAdded userId groupId
  | .memberRemoved userId groupId => p.memberRemoved userId groupId
  | .editProperties target => p.editProperties target
  | .propertiesLoaded id properties => p.propertiesLoaded id properties
  | .updateProperty id key value => (p, [.send (.updateProperty id key value)])
  | .entityUpdated id properties => p.entityUpdated id properties
  | .commandFailed verb _ text => p.commandFailed verb text

/-- Takes messages one after the other: the panel in the end, and all effects in order. -/
def reactAll (p : Panel) : List Message → Reaction
  | [] => (p, [])
  | m :: rest =>
    let (q, effects) := p.react m
    let (q, later) := q.reactAll rest
    (q, effects ++ later)

end Panel

end RosterPanel
