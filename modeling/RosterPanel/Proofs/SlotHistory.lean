import Mathlib.Data.Set.Card
import RosterPanel.Proofs.LastWord
import RosterPanel.Proofs.Slots

/-!
# What becomes of handles

Whatever is done to a slot map, a slot holds the handle that was put into it last, unless it has
been cleared since, and each handle that was put in has been given back once or is still there.
Results:

* `SlotLedger.run`: a run of operations, with the handles that it gives back.
* `SlotLedger.get?_run`: what a slot holds in the end is what was said of it last.
* `SlotMap.perm_removeWhere`, `SlotMap.Keyed.perm_insert`, `SlotLedger.perm_run`: what one operation
  and a run of them do with the handles.
* `SlotMap.Keyed.size_eq`: the size is the number of slots in use.
* `SlotMap.drained`: the slots of the one list and those of the other are all.
* `SlotLedger.kept_run`: all of it, for every run of `insert`, `remove_where` and
  `remove_members_of`.
-/

namespace RosterPanel

open scoped List

variable {Handle : Type}

/-! ## Operations -/

/-- What can be done to a slot map. -/
inductive SlotOp (Handle : Type)
  | insert (slot : Slot) (handle : Handle)
  | removeWhere (p : Slot → Bool)
  | removeMembersOf (groupId : String)

namespace SlotOp

/-- The handle that an operation brings, if it brings one. -/
def handle? : SlotOp Handle → Option Handle
  | .insert _ h => some h
  | _ => none

/-- What an operation says of a slot, if it says anything: which handle is in it, or that it is
empty. -/
def says? (x : Slot) : SlotOp Handle → Option (Option Handle)
  | .insert y h => if y = x then some (some h) else none
  | .removeWhere p => if p x then some none else none
  | .removeMembersOf groupId => if x.isMemberOf groupId then some none else none

end SlotOp

/-- A slot map and the handles that it has given back. -/
structure SlotLedger (Handle : Type) where
  slots : SlotMap Handle := ∅
  /-- Those that gave way to other handles in their slots. -/
  replaced : List Handle := []
  /-- Those whose slots were cleared. -/
  removed : List Handle := []

namespace SlotLedger

/-- An operation, with what it gives back. -/
def enter (l : SlotLedger Handle) : SlotOp Handle → SlotLedger Handle
  | .insert x h =>
    let (old, slots) := l.slots.insert x h
    { l with slots, replaced := l.replaced ++ old.toList }
  | .removeWhere p =>
    let (gone, slots) := l.slots.removeWhere p
    { l with slots, removed := l.removed ++ gone }
  | .removeMembersOf groupId =>
    let (gone, slots) := l.slots.removeMembersOf groupId
    { l with slots, removed := l.removed ++ gone }

/-- Operations in a row, from an empty slot map. -/
def run (ops : List (SlotOp Handle)) : SlotLedger Handle := ops.foldl enter {}

theorem run_concat (ops : List (SlotOp Handle)) (op : SlotOp Handle) :
    run (ops ++ [op]) = (run ops).enter op := by
  rw [run, List.foldl_append]
  rfl

/-! ## What a slot holds -/

theorem get?_enter (l : SlotLedger Handle) (op : SlotOp Handle) (x : Slot) :
    (l.enter op).slots.get? x = (op.says? x).getD (l.slots.get? x) := by
  have hremoval : ∀ p, (l.slots.removeWhere p).2.get? x =
      (if p x then some none else none).getD (l.slots.get? x) := by
    intro p
    rw [SlotMap.get?_removeWhere]
    split <;> rfl
  cases op with
  | insert y h =>
    show (l.slots.insert y h).2.get? x = (if y = x then some (some h) else none).getD _
    rw [SlotMap.get?_insert]
    by_cases hxy : x = y
    · rw [if_pos hxy, if_pos hxy.symm, Option.getD_some]
    · rw [if_neg hxy, if_neg fun hyx => hxy hyx.symm, Option.getD_none]
  | removeWhere p => exact hremoval p
  | removeMembersOf groupId => exact hremoval (Slot.isMemberOf groupId)

/-- After any operations, `get` of a slot gives what was said of it last. -/
theorem get?_run (ops : List (SlotOp Handle)) (x : Slot) :
    (run ops).slots.get? x = (lastWord (SlotOp.says? x) ops).join := by
  induction ops using List.reverseRecOn with
  | nil => rfl
  | append_singleton ops op ih =>
    rw [run_concat, get?_enter, lastWord_concat, ih]
    cases op.says? x <;> rfl

theorem keyed_run (ops : List (SlotOp Handle)) : (run ops).slots.Keyed := by
  induction ops using List.reverseRecOn with
  | nil => exact SlotMap.keyed_empty
  | append_singleton ops op ih =>
    rw [run_concat]
    cases op with
    | insert x h => exact ih.insert x h
    | removeWhere p => exact ih.removeWhere p
    | removeMembersOf groupId => exact ih.removeWhere _

end SlotLedger

/-! ## Handles -/

namespace SlotMap

variable {m : SlotMap Handle}

/-- All handles that are in slots. -/
def handles (m : SlotMap Handle) : List Handle := m.entries.map (·.2)

/-- A removal gives back the handles that it does not keep. -/
theorem perm_removeWhere (m : SlotMap Handle) (p : Slot → Bool) :
    ((m.removeWhere p).1 ++ (m.removeWhere p).2.handles).Perm m.handles := by
  rw [handles, removed_removeWhere, entries_removeWhere, ← List.map_append]
  exact (List.filter_append_perm (fun e => p e.1) m.entries).map _

/-- In a slot there is one handle at most, so that removing the slot is removing what it holds. -/
theorem Keyed.removed_eq (h : m.Keyed) (x : Slot) :
    (m.removeWhere (· == x)).1 = (m.get? x).toList := by
  rw [removed_removeWhere]
  obtain ⟨entries⟩ := m
  unfold Keyed at h
  unfold get?
  dsimp only at h ⊢
  induction entries with
  | nil => rfl
  | cons head rest ih =>
    obtain ⟨y, k⟩ := head
    rw [List.map_cons, List.nodup_cons] at h
    by_cases hxy : x = y
    · subst hxy
      have hnone : rest.filter (fun e => e.1 == x) = [] :=
        List.filter_eq_nil_iff.2 fun e he heq => h.1 (List.mem_map.2 ⟨e, he, eq_of_beq heq⟩)
      rw [List.filter_cons_of_pos (by simp), hnone, List.lookup_cons_self]
      rfl
    · rw [List.filter_cons_of_neg (by simpa using Ne.symm hxy), ih h.2, List.lookup_cons,
        beq_eq_false_iff_ne.2 hxy]

/-- An insertion gives back the handle that gives way. -/
theorem Keyed.perm_insert (hm : m.Keyed) (x : Slot) (h : Handle) :
    ((m.insert x h).1.toList ++ (m.insert x h).2.handles).Perm (h :: m.handles) := by
  show ((m.get? x).toList ++ h :: (m.removeWhere (· == x)).2.handles).Perm _
  rw [← hm.removed_eq x]
  exact List.perm_middle.trans ((m.perm_removeWhere _).cons h)

/-- The size is the number of slots in use. -/
theorem Keyed.size_eq (h : m.Keyed) : m.size = {x | m.contains x = true}.ncard := by
  have hslots : {x | m.contains x = true} = (m.entries.map (·.1)).toFinset := by
    ext x
    rw [Set.mem_ofPred_eq, contains, Option.isSome_iff_exists, List.coe_toFinset, Set.mem_ofPred_eq,
      List.mem_map]
    constructor
    · rintro ⟨n, hn⟩
      exact ⟨_, mem_of_get? hn, rfl⟩
    · rintro ⟨⟨y, n⟩, hmem, rfl⟩
      exact ⟨n, h.get?_of_mem hmem⟩
  rw [hslots, Set.ncard_coe_finset, List.toFinset_card_of_nodup h, List.length_map, size]

/-- A removal gives back the handles of the slots that pass. -/
theorem Keyed.mem_removed (h : m.Keyed) (p : Slot → Bool) (n : Handle) :
    n ∈ (m.removeWhere p).1 ↔ ∃ x, p x = true ∧ m.get? x = some n := by
  rw [removed_removeWhere, List.mem_map]
  constructor
  · rintro ⟨⟨x, n⟩, hmem, rfl⟩
    obtain ⟨hmem, hx⟩ := List.mem_filter.1 hmem
    exact ⟨x, hx, h.get?_of_mem hmem⟩
  · rintro ⟨x, hx, hn⟩
    exact ⟨(x, n), List.mem_filter.2 ⟨mem_of_get? hn, hx⟩, rfl⟩

end SlotMap

namespace SlotLedger

/-- All handles inserted are those replaced, removed and left, as often: none is lost, and none is
given back twice. -/
theorem perm_run (ops : List (SlotOp Handle)) :
    ((run ops).replaced ++ (run ops).removed ++ (run ops).slots.handles).Perm
      (ops.filterMap SlotOp.handle?) := by
  induction ops using List.reverseRecOn with
  | nil => exact List.Perm.nil
  | append_singleton ops op ih =>
    have hkeyed := keyed_run ops
    rw [run_concat, List.filterMap_append]
    generalize run ops = l at ih hkeyed ⊢
    have hremoval : ∀ p, (l.replaced ++ (l.removed ++ (l.slots.removeWhere p).1) ++
        (l.slots.removeWhere p).2.handles).Perm (ops.filterMap SlotOp.handle? ++ []) := by
      intro p
      rw [← List.append_assoc, List.append_assoc _ (l.slots.removeWhere p).1, List.append_nil]
      exact ((l.slots.perm_removeWhere p).append_left _).trans ih
    cases op with
    | insert x h =>
      have hinsert := hkeyed.perm_insert x h
      show (l.replaced ++ (l.slots.insert x h).1.toList ++ l.removed ++
        (l.slots.insert x h).2.handles).Perm (_ ++ [h])
      calc
        _ ~ l.replaced ++ l.removed ++
            ((l.slots.insert x h).1.toList ++ (l.slots.insert x h).2.handles) := by
          rw [← List.append_assoc]
          refine List.Perm.append_right _ ?_
          rw [List.append_assoc, List.append_assoc]
          exact List.perm_append_comm.append_left _
        _ ~ l.replaced ++ l.removed ++ (h :: l.slots.handles) := hinsert.append_left _
        _ ~ h :: (l.replaced ++ l.removed ++ l.slots.handles) := List.perm_middle
        _ ~ h :: ops.filterMap SlotOp.handle? := ih.cons h
        _ ~ ops.filterMap SlotOp.handle? ++ [h] := (List.perm_append_singleton _ _).symm
    | removeWhere p => exact hremoval p
    | removeMembersOf groupId => exact hremoval _

end SlotLedger

/-! ## The two lists -/

/-- Each slot belongs to one of the lists. -/
theorem Slot.inGroups_eq_not_inUsers (x : Slot) : x.inGroups = !x.inUsers := by
  cases x with
  | group _ | user _ | member _ _ => rfl
  | control c =>
    cases c with
    | addGroup | addUser => rfl
    | delete r =>
      obtain ⟨_, kind⟩ := r
      cases kind <;> rfl

namespace SlotMap

/-- Two removals leave nothing, and the second one finds all that it would have found without the
first. -/
structure Drained (m : SlotMap Handle) (p q : Slot → Bool) : Prop where
  spared : ∀ x, q x = true → (m.removeWhere p).2.get? x = m.get? x
  second : ((m.removeWhere p).2.removeWhere q).1.Perm (m.removeWhere q).1
  empty : ((m.removeWhere p).2.removeWhere q).2 = ∅

/-- Slots that are parted in two are removed part by part. -/
theorem drained (m : SlotMap Handle) {p q : Slot → Bool} (h : ∀ x, p x = !q x) :
    m.Drained p q where
  spared x hx := by
    rw [get?_removeWhere, h x, hx]
    rfl
  second := by
    rw [removed_removeWhere, removed_removeWhere, entries_removeWhere, List.filter_filter]
    refine List.Perm.of_eq (congrArg _ (List.filter_congr fun e _ => ?_))
    rw [h e.1, Bool.not_not, Bool.and_self]
  empty := by
    have hnone : ((m.removeWhere p).2.removeWhere q).2.entries = [] := by
      rw [entries_removeWhere, entries_removeWhere, List.filter_filter, List.filter_eq_nil_iff]
      intro e _
      rw [h e.1, Bool.not_not, Bool.not_and_self]
      exact Bool.false_ne_true
    exact congrArg SlotMap.mk hnone

end SlotMap

/-! ## Runs -/

namespace SlotLedger

/-- What a slot map keeps to, after some operations. -/
structure Kept (ops : List (SlotOp Handle)) (l : SlotLedger Handle) : Prop where
  /-- A slot holds the handle that was put into it last, unless it has been cleared since. -/
  holds : ∀ x, l.slots.get? x = (lastWord (SlotOp.says? x) ops).join
  /-- Each handle that was put in has given way, has been removed, or is there, as often as it was
  put in. -/
  conserved : (ops.filterMap SlotOp.handle?).Perm (l.replaced ++ l.removed ++ l.slots.handles)
  size : l.slots.size = {x | l.slots.contains x = true}.ncard
  /-- A removal leaves the slots that do not pass as they are, and no others. -/
  left : ∀ p x, (l.slots.removeWhere p).2.get? x = if p x then none else l.slots.get? x
  gone : ∀ p n, n ∈ (l.slots.removeWhere p).1 ↔ ∃ x, p x = true ∧ l.slots.get? x = some n
  parted : ∀ x : Slot, x.inGroups = !x.inUsers
  /-- The slots of the one list and then those of the other are all there are. -/
  groupsFirst : l.slots.Drained Slot.inGroups Slot.inUsers
  usersFirst : l.slots.Drained Slot.inUsers Slot.inGroups

/-- For any operations `ops` on a new `ElementRegistry`: `get` of a key gives the handle of the last
`insert` that no removal came after; all handles inserted are those replaced, those removed and
those left, as often; `len` counts the keys; `remove_where` takes out just what passes; and
`in_groups_container` and `in_users_container` part the keys. -/
theorem kept_run (ops : List (SlotOp Handle)) : Kept ops (run ops) where
  holds := get?_run ops
  conserved := (perm_run ops).symm
  size := (keyed_run ops).size_eq
  left := (run ops).slots.get?_removeWhere
  gone := (keyed_run ops).mem_removed
  parted := Slot.inGroups_eq_not_inUsers
  groupsFirst := (run ops).slots.drained Slot.inGroups_eq_not_inUsers
  usersFirst := (run ops).slots.drained fun x => by rw [x.inGroups_eq_not_inUsers, Bool.not_not]

end SlotLedger

end RosterPanel
