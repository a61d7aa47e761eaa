import RosterPanel.Latch
import RosterPanel.Request

/-!
# Messages and effects

A message is something that happens to the panel: a gesture, an answer of the backend, a change of
the connection. An effect is something that the panel then wants done.
-/

namespace RosterPanel

/-- Model of `Message`: what can happen to the panel. -/
inductive Message
  | connectionOpened
  | connectionLost
  | refreshGroups
  | refreshUsers
  | refreshGroup (groupId : String)
  | entitiesListed (kind : EntityKind) (entities : List Entity)
  | membersListed (groupId : String) (users : List User)
  | requestCreateGroup
  | requestCreateUser
  | requestDelete (entity : Entity)
  | entityCreated (entity : Entity) (callback : Option String)
  | entityDeleted (id : String)
  | assignUser (userId groupId : String)
  | removeUser (userId groupId : String)
  | memberAdded (userId groupId : String)
  | memberRemoved (userId groupId : String)
  | editProperties (target : Target)
  | propertiesLoaded (id : String) (properties : Properties)
  | updateProperty (id key value : String)
  | entityUpdated (id : String) (properties : Properties)
  | commandFailed (verb : Verb) (code : Nat) (text : String)

/-- Model of `ToastKind`. -/
inductive NoticeKind
  | success
  | error
deriving DecidableEq, Repr

/-- The render commands among `Command`: a part of the page that can be drawn anew. -/
inductive Drawing
  /-- The list of groups with their members. -/
  | groups
  /-- The list of users. -/
  | users
  /-- The members of one group. -/
  | members (groupId : String)
  /-- The property panel, which is taken away when it is closed. -/
  | properties
  /-- A control, as latched or free. -/
  | control (control : Control) (disabled : Bool)
deriving DecidableEq, Repr

/-- Model of `Command`: what the panel wants done. -/
inductive Effect
  /-- Handle another message. -/
  | chain (message : Message)
  /-- Send a request. -/
  | send (request : Request)
  /-- Draw a part of the page anew. -/
  | draw (part : Drawing)
  /-- Show a notice. -/
  | notify (kind : NoticeKind) (text : String)

namespace Effect

/-- Shows a control as free. -/
abbrev free (c : Control) : Effect := .draw (.control c false)

abbrev drawMembers (groupId : String) : Effect := .draw (.members groupId)

end Effect

end RosterPanel
