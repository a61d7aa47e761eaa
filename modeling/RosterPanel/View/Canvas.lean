import RosterPanel.View.Sketch

/-!
# Drawing

A canvas is a document together with what the panel remembers of it: the two containers, the slots
of what is drawn into them, and the property panel. Drawing a part takes off what was there and puts
the sketches for the panel's present state in its place.
-/

namespace RosterPanel

/-- Model of `AdminView`: what the panel remembers of the page. -/
structure View where
  /-- The container of the groups. -/
  groups : Nat
  /-- The container of the users. -/
  users : Nat
  slots : SlotMap Nat := ∅
  /-- The property panel, if it is mounted. -/
  editor : Option Nat := none

structure Canvas where
  document : Page.Document Handler
  view : View

namespace Canvas

/-- Remembers the elements of a numbered sketch under their slots. -/
def register (slots : SlotMap Nat) (node : Page.Node (Option Slot × Nat) Handler) : SlotMap Nat :=
  node.elements.foldl
    (fun slots node =>
      match node.element?.map (·.mark) with
      | some (some slot, n) => (slots.insert slot n).2
      | _ => slots)
    slots

/-- Puts a sketch behind the children of an element and remembers it. Gives the number of its
root. -/
def place (c : Canvas) (parent : Nat) (sketch : Sketch) : Nat × Canvas :=
  let (node, document) := c.document.enter sketch
  (c.document.fresh,
    { document := document.append parent (node.mapMark (·.2))
      view := { c.view with slots := register c.view.slots node } })

/-- Model of `clear`: empties an element. -/
def clear (c : Canvas) (n : Nat) : Canvas := { c with document := c.document.clear n }

/-- Forgets the slots that pass. -/
def forget (c : Canvas) (p : Slot → Bool) : Canvas :=
  { c with view := { c.view with slots := (c.view.slots.removeWhere p).2 } }

def slot? (c : Canvas) (s : Slot) : Option Nat := c.view.slots.get? s

/-! ## Blocks -/

/-- Model of `append_group_element`. -/
def addGroup (c : Canvas) (latched : Control → Bool) (g : Group) : Canvas :=
  (c.place c.view.groups (Sketch.groupBlock latched g)).2

/-- Model of `append_user_element` for a member: adds a block to that of the group; none when that
is not drawn. -/
def addMember? (c : Canvas) (groupId : String) (u : User) : Option (Nat × Canvas) :=
  (c.slot? (.group groupId)).map fun parent => c.place parent (Sketch.memberBlock groupId u)

def addMember (c : Canvas) (groupId : String) (u : User) : Canvas :=
  match c.addMember? groupId u with
  | some (_, c) => c
  | none => c

/-- Model of `append_user_element` for the list of users. -/
def addUser (c : Canvas) (latched : Control → Bool) (u : User) : Nat × Canvas :=
  c.place c.view.users (Sketch.userBlock latched u)

/-! ## Parts -/

/-- Takes the property panel off the page. -/
def dropProperties (c : Canvas) : Canvas :=
  match c.view.editor with
  | none => c
  | some n => { document := c.document.detach n, view := { c.view with editor := none } }

/-- Model of `render_properties`: draws the property panel anew under its block. It is not shown
while its block is not. -/
def drawProperties (p : Panel) (c : Canvas) : Canvas :=
  let c := c.dropProperties
  match p.editor with
  | none => c
  | some e =>
    match c.slot? (Slot.ofTarget e.target) with
    | none => c
    | some anchor =>
      let (n, c) := c.place anchor (Sketch.propertyPanel e)
      { c with view := { c.view with editor := some n } }

/-- Draws the block of a group with its members. -/
def addGroupWithMembers (p : Panel) (c : Canvas) (g : Group) : Canvas :=
  (p.membersOf g.id).foldl (fun c u => c.addMember g.id u) (c.addGroup p.latches.isLatched g)

/-- Model of `render_groups`: draws all groups anew, and behind them a button to add one if there
are any. -/
def drawGroups (p : Panel) (c : Canvas) : Canvas :=
  let c := (c.clear c.view.groups).forget Slot.inGroups
  let c := p.groups.foldl (addGroupWithMembers p) c
  let c :=
    if p.groups.isEmpty then c
    else (c.place c.view.groups (Sketch.addGroupButton p.latches.isLatched)).2
  c.drawProperties p

/-- Model of `render_users`: draws all users anew, and behind them a button to add one if there are
any. -/
def drawUsers (p : Panel) (c : Canvas) : Canvas :=
  let c := (c.clear c.view.users).forget Slot.inUsers
  let c := p.users.foldl (fun c u => (c.addUser p.latches.isLatched u).2) c
  let c :=
    if p.users.isEmpty then c
    else (c.place c.view.users (Sketch.addUserButton p.latches.isLatched)).2
  c.drawProperties p

/-- Model of `render_members`: draws the members of a group anew, if the group is drawn. -/
def drawMembers (p : Panel) (groupId : String) (c : Canvas) : Canvas :=
  if (c.slot? (.group groupId)).isNone then c
  else
    let (removed, slots) := c.view.slots.removeMembersOf groupId
    let c : Canvas :=
      { document := removed.foldl Page.Document.detach c.document
        view := { c.view with slots } }
    let c := (p.membersOf groupId).foldl (fun c u => c.addMember groupId u) c
    c.drawProperties p

/-- Model of `set_control_disabled`: shows a control as latched or free, if it is drawn. -/
def drawControl (control : Control) (disabled : Bool) (c : Canvas) : Canvas :=
  match c.slot? (.control control) with
  | none => c
  | some n => { c with document := c.document.adjustElement n (·.setDisabled disabled) }

/-- The render commands of `execute_command`: draws a part of the page anew from what the panel
knows. -/
def draw (p : Panel) (part : Drawing) (c : Canvas) : Canvas :=
  match part with
  | .groups => c.drawGroups p
  | .users => c.drawUsers p
  | .members groupId => c.drawMembers p groupId
  | .properties => c.drawProperties p
  | .control control disabled => c.drawControl control disabled

end Canvas

end RosterPanel
