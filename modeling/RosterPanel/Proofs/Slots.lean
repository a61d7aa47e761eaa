import RosterPanel.Proofs.Areas

/-!
# Slot maps

What a slot map finds after each operation, and after the elements of a numbered sketch have been
remembered in it. Results:

* `SlotMap.get?_insert`, `SlotMap.get?_removeWhere`: what the operations do to what is found.
* `SlotMap.Keyed`: that no slot has two entries, so that what is removed was found.
* `Canvas.get?_register`: what is found once a numbered sketch is remembered.
-/

namespace RosterPanel

open Page (Element Node)

namespace SlotMap

variable {Handle : Type} {m : SlotMap Handle}

/-- No slot has two entries. -/
def Keyed (m : SlotMap Handle) : Prop := (m.entries.map (·.1)).Nodup

theorem keyed_empty : (∅ : SlotMap Handle).Keyed := List.nodup_nil

theorem entries_removeWhere (m : SlotMap Handle) (p : Slot → Bool) :
    (m.removeWhere p).2.entries = m.entries.filter fun e => !p e.1 := by
  unfold removeWhere
  rw [List.partition_eq_filter_filter]
  rfl

theorem removed_removeWhere (m : SlotMap Handle) (p : Slot → Bool) :
    (m.removeWhere p).1 = (m.entries.filter fun e => p e.1).map (·.2) := by
  unfold removeWhere
  rw [List.partition_eq_filter_filter]

theorem get?_removeWhere (m : SlotMap Handle) (p : Slot → Bool) (x : Slot) :
    (m.removeWhere p).2.get? x = if p x then none else m.get? x := by
  rw [get?, entries_removeWhere, lookup_filter (fun y => !p y), get?]
  cases p x <;> rfl

theorem get?_insert (m : SlotMap Handle) (y : Slot) (h : Handle) (x : Slot) :
    (m.insert y h).2.get? x = if x = y then some h else m.get? x := by
  show List.lookup x ((y, h) :: (m.removeWhere (· == y)).2.entries) = _
  by_cases hxy : x = y
  · subst hxy
    simp
  · rw [List.lookup_cons, if_neg hxy, beq_eq_false_iff_ne.2 hxy]
    show (m.removeWhere (· == y)).2.get? x = m.get? x
    rw [get?_removeWhere, if_neg (by simp [hxy])]

theorem Keyed.removeWhere (h : m.Keyed) (p : Slot → Bool) : (m.removeWhere p).2.Keyed := by
  unfold Keyed
  rw [entries_removeWhere]
  exact h.sublist (List.filter_sublist.map _)

theorem Keyed.insert (h : m.Keyed) (x : Slot) (n : Handle) : (m.insert x n).2.Keyed := by
  show (x :: (m.removeWhere (· == x)).2.entries.map (·.1)).Nodup
  refine List.nodup_cons.2 ⟨fun hx => ?_, h.removeWhere _⟩
  obtain ⟨e, he, rfl⟩ := List.mem_map.1 hx
  rw [entries_removeWhere] at he
  simpa using (List.mem_filter.1 he).2

theorem mem_of_get? {x : Slot} {n : Handle} (h : m.get? x = some n) : (x, n) ∈ m.entries := by
  obtain ⟨entries⟩ := m
  unfold get? at h
  dsimp only at h ⊢
  induction entries with
  | nil => cases h
  | cons head rest ih =>
    obtain ⟨y, k⟩ := head
    by_cases hxy : x = y
    · subst hxy
      rw [List.lookup_cons_self, Option.some.injEq] at h
      exact h ▸ List.mem_cons_self
    · rw [List.lookup_cons, beq_eq_false_iff_ne.2 hxy] at h
      exact List.mem_cons_of_mem _ (ih h)

/-- Without double entries, what is entered is found. -/
theorem Keyed.get?_of_mem (h : m.Keyed) {x : Slot} {n : Handle} (hmem : (x, n) ∈ m.entries) :
    m.get? x = some n := by
  obtain ⟨entries⟩ := m
  unfold Keyed at h
  unfold get?
  dsimp only at h hmem ⊢
  induction entries with
  | nil => cases hmem
  | cons head rest ih =>
    obtain ⟨y, k⟩ := head
    rw [List.map_cons, List.nodup_cons] at h
    rcases List.mem_cons.1 hmem with heq | hrest
    · cases heq
      simp
    · have hne : x ≠ y := fun heq => h.1 (List.mem_map.2 ⟨(x, n), hrest, heq⟩)
      rw [List.lookup_cons, beq_eq_false_iff_ne.2 hne]
      exact ih h.2 hrest

/-- The id of the member of a group that a slot is for. -/
def memberIn? (groupId : String) : Slot → Option String
  | .member g id => if g = groupId then some id else none
  | _ => none

theorem memberIn?_eq_some {groupId id : String} {x : Slot} :
    memberIn? groupId x = some id ↔ x = .member groupId id := by
  cases x with
  | member g id' =>
    unfold memberIn?
    by_cases hg : g = groupId
    · simp [hg]
    · simp [hg]
  | group _ | user _ | control _ => simp [memberIn?]

theorem memberIn?_isSome (groupId : String) (x : Slot) :
    (memberIn? groupId x).isSome = x.isMemberOf groupId := by
  cases x with
  | member g id =>
    unfold memberIn?
    by_cases hg : g = groupId
    · simp [hg, Slot.isMemberOf]
    · simp [hg, Slot.isMemberOf]
  | group _ | user _ | control _ => rfl

/-- The members of a group that are removed, with what was remembered of them. -/
theorem exists_removedMembers (m : SlotMap Handle) (groupId : String) :
    ∃ members : List (String × Handle), (m.removeMembersOf groupId).1 = members.map (·.2) ∧
      ∀ id n, (id, n) ∈ members ↔ (.member groupId id, n) ∈ m.entries := by
  refine ⟨m.entries.filterMap fun e => (memberIn? groupId e.1).map fun id => (id, e.2), ?_,
    fun id n => ?_⟩
  · rw [removeMembersOf, removed_removeWhere]
    induction m.entries with
    | nil => rfl
    | cons head rest ih =>
      have hmember := memberIn?_isSome groupId head.1
      cases hid : memberIn? groupId head.1 with
      | none =>
        rw [hid, Option.isSome_none] at hmember
        rw [List.filter_cons_of_neg (by simp [← hmember]), List.filterMap_cons_none (by simp [hid])]
        exact ih
      | some id =>
        rw [hid, Option.isSome_some] at hmember
        rw [List.filter_cons_of_pos (by simp [← hmember]),
          List.filterMap_cons_some (by rw [hid, Option.map_some]), List.map_cons, List.map_cons, ih]
  · rw [List.mem_filterMap]
    constructor
    · rintro ⟨e, hmem, heq⟩
      obtain ⟨id', hid, heq⟩ := Option.map_eq_some_iff.1 heq
      cases heq
      rw [← memberIn?_eq_some.1 hid]
      exact hmem
    · intro hmem
      refine ⟨_, hmem, ?_⟩
      rw [memberIn?_eq_some.2 rfl]
      rfl

end SlotMap

namespace Canvas

/-! ## Remembering a sketch -/

/-- Remembers one element. -/
def note (slots : SlotMap Nat) (mark : Option Slot × Nat) : SlotMap Nat :=
  match mark with
  | (some x, n) => (slots.insert x n).2
  | (none, _) => slots

theorem register_eq (slots : SlotMap Nat) (node : Node (Option Slot × Nat) Handler) :
    register slots node = node.marks.foldl note slots := by
  unfold register Node.marks Node.selves
  generalize node.elements = l
  induction l generalizing slots with
  | nil => rfl
  | cons inner rest ih =>
    rw [List.foldl_cons, ih]
    cases inner with
    | text content => rfl
    | element self children =>
      obtain ⟨⟨_ | x, n⟩, _, _, _, _⟩ := self <;> rfl

theorem keyed_foldl_note {slots : SlotMap Nat} (h : slots.Keyed)
    (marks : List (Option Slot × Nat)) : (marks.foldl note slots).Keyed := by
  induction marks generalizing slots with
  | nil => exact h
  | cons mark rest ih =>
    obtain ⟨_ | x, n⟩ := mark
    · exact ih h
    · exact ih (h.insert x n)

/-- What is found when elements have been remembered one after the other. -/
theorem get?_foldl_note {marks : List (Option Slot × Nat)}
    (hnodup : (marks.filterMap (·.1)).Nodup) (slots : SlotMap Nat) (x : Slot) (n : Nat) :
    (marks.foldl note slots).get? x = some n ↔
      (some x, n) ∈ marks ∨ (x ∉ marks.filterMap (·.1) ∧ slots.get? x = some n) := by
  induction marks generalizing slots with
  | nil => simp
  | cons mark rest ih =>
    obtain ⟨_ | y, m⟩ := mark
    · rw [List.filterMap_cons_none rfl] at hnodup ⊢
      rw [List.foldl_cons, ih hnodup]
      simp [note]
    · have hfirst : ((some y, m) :: rest).filterMap (·.1) = y :: rest.filterMap (·.1) := rfl
      rw [hfirst, List.nodup_cons] at hnodup
      rw [hfirst, List.foldl_cons, ih hnodup.2]
      show _ ∨ (_ ∧ (slots.insert y m).2.get? x = some n) ↔ _
      rw [SlotMap.get?_insert]
      by_cases hxy : x = y
      · subst hxy
        have hrest : (some x, n) ∉ rest := fun hmem =>
          hnodup.1 (List.mem_filterMap.2 ⟨_, hmem, rfl⟩)
        simp [hrest, hnodup.1, eq_comm]
      · simp [hxy]

/-- The slots of a numbered sketch are those of the sketch. -/
theorem slots_number (sketch : Sketch) (next : Nat) :
    (sketch.number next).1.marks.filterMap (·.1) = Sketch.slots [sketch] := by
  have hmarks : (sketch.number next).1.marks.map (·.1) = sketch.marks := by
    rw [← Node.marks_mapMark, Node.mapMark_number]
  rw [Sketch.slots, List.flatMap_singleton, ← hmarks, List.filterMap_map]
  rfl

/-- What is found once a numbered sketch is remembered. -/
theorem get?_register {sketch : Sketch} (hnodup : (Sketch.slots [sketch]).Nodup)
    (slots : SlotMap Nat) (next : Nat) (x : Slot) (n : Nat) :
    (register slots (sketch.number next).1).get? x = some n ↔
      (some x, n) ∈ (sketch.number next).1.marks ∨
        (x ∉ Sketch.slots [sketch] ∧ slots.get? x = some n) := by
  rw [← slots_number sketch next] at hnodup ⊢
  rw [register_eq]
  exact get?_foldl_note hnodup slots x n

end Canvas

end RosterPanel
