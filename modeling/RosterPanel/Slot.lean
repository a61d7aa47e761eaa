import RosterPanel.Latch

/-!
# Slots

A slot names a thing on the page by what it shows: a group's block, a user's block, a member's
block inside a group, a control. A slot map remembers which handle is in which slot, so that
blocks are found again without searching the page.
-/

namespace RosterPanel

/-- Model of `ElementKey`. -/
inductive Slot
  | group (id : String)
  | user (id : String)
  /-- The block of a user inside the block of a group. -/
  | member (groupId userId : String)
  | control (control : Control)
deriving DecidableEq, Repr

namespace Slot

/-- Model of `in_groups_container`: group blocks, the members in them, and the controls for
groups. -/
def inGroups : Slot → Bool
  | .group _ | .member _ _ | .control .addGroup => true
  | .control (.delete r) => r.kind == .group
  | _ => false

/-- Model of `in_users_container`: user blocks, and the controls for users. -/
def inUsers : Slot → Bool
  | .user _ | .control .addUser => true
  | .control (.delete r) => r.kind == .user
  | _ => false

/-- Whether a slot is that of a member of a group. -/
def isMemberOf (groupId : String) : Slot → Bool
  | .member g _ => g == groupId
  | _ => false

/-- Model of `anchor_key`: the block under which the property panel for a target is mounted. -/
def ofTarget (t : Target) : Slot :=
  match t.groupId, t.entity.kind with
  | some groupId, .user => .member groupId t.entity.id
  | none, .user => .user t.entity.id
  | _, .group => .group t.entity.id

end Slot

/-- Model of `ElementRegistry`: handles by slot. -/
structure SlotMap (Handle : Type) where
  entries : List (Slot × Handle) := []

namespace SlotMap

variable {Handle : Type}

instance : EmptyCollection (SlotMap Handle) := ⟨{}⟩

/-- Model of `get` (`ElementRegistry`). -/
def get? (m : SlotMap Handle) (s : Slot) : Option Handle := m.entries.lookup s

/-- Model of `contains` (`ElementRegistry`). -/
def contains (m : SlotMap Handle) (s : Slot) : Bool := (m.get? s).isSome

/-- Model of `len` (`ElementRegistry`). -/
def size (m : SlotMap Handle) : Nat := m.entries.length

/-- Model of `is_empty` (`ElementRegistry`). -/
def isEmpty (m : SlotMap Handle) : Bool := m.entries.isEmpty

/-- Model of `remove_where`: removes the slots that pass, and gives back what was in them. -/
def removeWhere (m : SlotMap Handle) (p : Slot → Bool) : List Handle × SlotMap Handle :=
  let (removed, kept) := m.entries.partition fun e => p e.1
  (removed.map (·.2), ⟨kept⟩)

/-- Model of `insert` (`ElementRegistry`): puts a handle into a slot, and gives back the one that
was there. -/
def insert (m : SlotMap Handle) (s : Slot) (h : Handle) : Option Handle × SlotMap Handle :=
  (m.get? s, ⟨(s, h) :: (m.removeWhere (· == s)).2.entries⟩)

/-- Model of `remove_members_of`: removes the members of a group. -/
def removeMembersOf (m : SlotMap Handle) (groupId : String) : List Handle × SlotMap Handle :=
  m.removeWhere (Slot.isMemberOf groupId)

end SlotMap

end RosterPanel
