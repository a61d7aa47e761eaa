import RosterPanel.Proofs.Drawing

/-!
# Drawing parts of the page anew

What each part is once it has been drawn anew from what a panel knows, and that the other parts
stay as they are. Results:

* `Shows.drawGroups`, `Shows.drawUsers`, `Shows.drawMembers`: the parts that are drawn from lists.
* `Shown.after`, `Shows.draw`: what is shown after drawing any part.
-/

namespace RosterPanel

open Page (Document Element Node)
open Page.Node (Like LikeAll)
open Page.Document (hasMark)

/-- The sketches for both containers. -/
def both (m w : List Sketch) : Sketches
  | .group => m
  | .user => w

theorem update_both_group (m w m' : List Sketch) :
    Function.update (both m w) .group m' = both m' w := by
  funext k
  cases k <;> rfl

theorem update_both_user (m w w' : List Sketch) :
    Function.update (both m w) .user w' = both m w' := by
  funext k
  cases k <;> rfl

namespace Shown

variable (σ : Shown)

theorem area_eq_both : σ.area = both (σ.area .group) (σ.area .user) := by
  funext k
  cases k <;> rfl

/-- What is shown when the members of a group are others. -/
def withMembers (groupId : String) (users : List User) : Shown :=
  { σ with members := Function.update σ.members groupId users }

/-! ## Slots of blocks -/

theorem mem_slots_blocks {σ : Shown} {groups : List Group} {x : Slot} :
    x ∈ Sketch.slots (groups.map σ.block) ↔ ∃ g ∈ groups, x = .group g.id ∨
      x = .control (.delete ⟨g.id, .group⟩) ∨ ∃ u ∈ σ.members g.id, x = .member g.id u.id := by
  rw [Sketch.slots_flatMap, List.mem_flatMap]
  simp only [slots_block, List.mem_cons, List.mem_map, eq_comm (a := x)]

theorem mem_slots_userBlocks {users : List User} {x : Slot} :
    x ∈ Sketch.slots (users.map (Sketch.userBlock unlatched)) ↔ ∃ u ∈ users,
      x = .user u.id ∨ x = .control (.delete ⟨u.id, .user⟩) := by
  rw [Sketch.slots_flatMap, List.mem_flatMap]
  simp

theorem eq_addGroup_of_mem {σ : Shown} {x : Slot}
    (hx : x ∈ Sketch.slots (if σ.groups.isEmpty then [] else [Sketch.addGroupButton unlatched])) :
    x = .control .addGroup := by
  split at hx
  · cases hx
  · simpa using hx

theorem eq_addUser_of_mem {σ : Shown} {x : Slot}
    (hx : x ∈ Sketch.slots (if σ.users.isEmpty then [] else [Sketch.addUserButton unlatched])) :
    x = .control .addUser := by
  split at hx
  · cases hx
  · simpa using hx

/-- The slots in a container are those that belong there. -/
theorem within_area (k : EntityKind) : ∀ x ∈ Sketch.slots (σ.area k), Slot.within k x = true := by
  intro x hx
  cases k with
  | group =>
    rw [area, Sketch.slots_append, List.mem_append, mem_slots_blocks] at hx
    rcases hx with ⟨g, -, rfl | rfl | ⟨u, -, rfl⟩⟩ | hx
    · rfl
    · rfl
    · rfl
    · rw [eq_addGroup_of_mem hx]
      rfl
  | user =>
    rw [area, Sketch.slots_append, List.mem_append, mem_slots_userBlocks] at hx
    rcases hx with ⟨u, -, rfl | rfl⟩ | hx
    · rfl
    · rfl
    · rw [eq_addUser_of_mem hx]
      rfl

/-- The slots of the block of a group are new among the blocks of other groups. -/
theorem slots_groupBlock_new {σ : Shown} {groups : List Group} {g : Group}
    (hnew : g.id ∉ groups.map (·.id)) :
    ∀ x ∈ Sketch.slots [Sketch.groupBlock unlatched g],
      Slot.within .group x = true ∧ x ∉ Sketch.slots (groups.map σ.block) := by
  intro x hx
  rw [Sketch.slots_groupBlock, List.mem_cons, List.mem_singleton] at hx
  refine ⟨by rcases hx with rfl | rfl <;> rfl, fun hmem => ?_⟩
  obtain ⟨g', hg', hcases⟩ := mem_slots_blocks.1 hmem
  refine hnew (List.mem_map.2 ⟨g', hg', ?_⟩)
  rcases hx with rfl | rfl
  · rcases hcases with h | h | ⟨u, -, h⟩
    · exact (Slot.group.inj h).symm
    · cases h
    · cases h
  · rcases hcases with h | h | ⟨u, -, h⟩
    · cases h
    · simpa using h.symm
    · cases h

/-- The slots of the block of a user are new among the blocks of other users. -/
theorem slots_userBlock_new {users : List User} {u : User} (hnew : u.id ∉ users.map (·.id)) :
    ∀ x ∈ Sketch.slots [Sketch.userBlock unlatched u], Slot.within .user x = true ∧
      x ∉ Sketch.slots (users.map (Sketch.userBlock unlatched)) := by
  intro x hx
  rw [Sketch.slots_userBlock, List.mem_cons, List.mem_singleton] at hx
  refine ⟨by rcases hx with rfl | rfl <;> rfl, fun hmem => ?_⟩
  obtain ⟨u', hu', hcases⟩ := mem_slots_userBlocks.1 hmem
  refine hnew (List.mem_map.2 ⟨u', hu', ?_⟩)
  rcases hx with rfl | rfl
  · rcases hcases with h | h
    · exact (Slot.user.inj h).symm
    · cases h
  · rcases hcases with h | h
    · cases h
    · simpa using h.symm

/-- Adding the block of a member to the block of its group, wherever that is. -/
theorem block_addMember (groupId : String) (users : List User) (u : User) (g : Group) :
    Node.adjust (fun s => s.mark == some (.group groupId))
        (fun s ds => .element s (ds ++ [Sketch.memberBlock groupId u]))
        ((σ.withMembers groupId users).block g) =
      (σ.withMembers groupId (users ++ [u])).block g := by
  by_cases hg : g.id = groupId
  · subst hg
    simp [block, withMembers, Sketch.groupBlock, Node.adjust]
  · have hslot : (.group groupId : Slot) ∉
        Sketch.slots [(σ.withMembers groupId users).block g] := by
      simp [Ne.symm hg]
    have hsame := Sketch.adjust_slot_eq_self hslot
      fun s ds => .element s (ds ++ [Sketch.memberBlock groupId u])
    rw [List.map_singleton, List.singleton_inj] at hsame
    rw [hsame]
    simp [block, withMembers, hg]

/-- The blocks of groups of which none is the group whose members are others. -/
theorem map_block_withMembers {groups : List Group} {groupId : String}
    (h : groupId ∉ groups.map (·.id)) (users : List User) :
    groups.map (σ.withMembers groupId users).block = groups.map σ.block := by
  refine List.map_congr_left fun g hg => ?_
  have hne : g.id ≠ groupId := fun heq => h (heq ▸ List.mem_map_of_mem hg)
  simp [block, withMembers, hne]

end Shown

variable {away : List Nat} {latched : Control → Bool} {typed : List Nat} {l : Sketches}
  {c : Canvas} {editor : Option Editor} {m w : List Sketch}

/-! ## Steps -/

theorem notMem_both_of_group {x : Slot} (hx : Slot.within .group x = true)
    (hm : x ∉ Sketch.slots m) (hw : ∀ y ∈ Sketch.slots w, Slot.within .user y = true)
    (k : EntityKind) : x ∉ Sketch.slots (both m w k) := by
  cases k with
  | group => exact hm
  | user => exact fun hmem => by cases Slot.within_unique hx (hw x hmem)

theorem notMem_both_of_user {x : Slot} (hx : Slot.within .user x = true)
    (hw : x ∉ Sketch.slots w) (hm : ∀ y ∈ Sketch.slots m, Slot.within .group y = true)
    (k : EntityKind) : x ∉ Sketch.slots (both m w k) := by
  cases k with
  | group => exact fun hmem => by cases Slot.within_unique hx (hm x hmem)
  | user => exact hw

namespace Bears

/-- A block or a button is put among the groups. -/
theorem place_group (h : Bears away latched typed (both m w) c) {s : Sketch}
    (hneat : ∀ e ∈ s.selves, Sketch.Neat e) (hnodup : (Sketch.slots [s]).Nodup)
    (hnew : ∀ x ∈ Sketch.slots [s], Slot.within .group x = true ∧ x ∉ Sketch.slots m)
    (hw : ∀ y ∈ Sketch.slots w, Slot.within .user y = true) :
    Bears away latched typed (both (m ++ [s]) w)
      (c.place c.view.groups (Node.mapSelf (Sketch.dress latched) s)).2 := by
  obtain ⟨B, content, h⟩ := h
  have hplaced := h.place_container hneat hnodup
    (fun x hx k => notMem_both_of_group (hnew x hx).1 (hnew x hx).2 hw k) .group
  rw [update_both_group] at hplaced
  exact ⟨B, _, hplaced⟩

/-- A block or a button is put among the users. -/
theorem place_user (h : Bears away latched typed (both m w) c) {s : Sketch}
    (hneat : ∀ e ∈ s.selves, Sketch.Neat e) (hnodup : (Sketch.slots [s]).Nodup)
    (hnew : ∀ x ∈ Sketch.slots [s], Slot.within .user x = true ∧ x ∉ Sketch.slots w)
    (hm : ∀ y ∈ Sketch.slots m, Slot.within .group y = true) :
    Bears away latched typed (both m (w ++ [s]))
      (c.place c.view.users (Node.mapSelf (Sketch.dress latched) s)).2 := by
  obtain ⟨B, content, h⟩ := h
  have hplaced := h.place_container hneat hnodup
    (fun x hx k => notMem_both_of_user (hnew x hx).1 (hnew x hx).2 hm k) .user
  rw [update_both_user] at hplaced
  exact ⟨B, _, hplaced⟩

/-- The block of a member is put into the block of its group. -/
theorem addMember (h : Bears away latched typed (both m w) c) {groupId : String} {u : User}
    (hgroup : .group groupId ∈ Sketch.slots m) (hnew : .member groupId u.id ∉ Sketch.slots m)
    (hw : ∀ y ∈ Sketch.slots w, Slot.within .user y = true) :
    Bears away latched typed
      (both (m.map (Node.adjust (fun s => s.mark == some (.group groupId))
        fun s ds => .element s (ds ++ [Sketch.memberBlock groupId u]))) w)
      (c.addMember groupId u) := by
  obtain ⟨B, content, h⟩ := h
  obtain ⟨n, hn⟩ := h.get?_of_mem_slots (k := .group) hgroup
  have hplaced := h.place_inside (s := Sketch.memberBlock groupId u)
    (Sketch.neat_memberBlock groupId u) (by simp)
    (fun x hx k => by
      rw [Sketch.slots_memberBlock, List.mem_singleton] at hx
      exact hx ▸ notMem_both_of_group rfl hnew hw k) hn
  rw [Sketch.dress_memberBlock] at hplaced
  have hcanvas : c.addMember groupId u = (c.place n (Sketch.memberBlock groupId u)).2 := by
    have hslot : c.slot? (.group groupId) = some n := hn
    simp [Canvas.addMember, Canvas.addMember?, hslot]
  have husers : (.group groupId : Slot) ∉ Sketch.slots w := fun hmem => by
    cases hw _ hmem
  have hsketches : both (m.map (Node.adjust (fun s => s.mark == some (.group groupId))
      fun s ds => .element s (ds ++ [Sketch.memberBlock groupId u]))) w =
        fun k => (both m w k).map (Node.adjust (fun s => s.mark == some (.group groupId))
          fun s ds => .element s (ds ++ [Sketch.memberBlock groupId u])) := by
    funext k
    cases k with
    | group => rfl
    | user => exact (Sketch.adjust_slot_eq_self husers _).symm
  rw [hcanvas, hsketches]
  exact ⟨B, _, hplaced⟩

/-- The blocks of members are put into the block of their group, behind those that are there. -/
theorem addMembers {σ : Shown} {groupId : String} {t : List Sketch} (users more : List User)
    (hgroup : ∃ g ∈ σ.groups, g.id = groupId) (hmembers : ((users ++ more).map (·.id)).Nodup)
    (ht : ∀ x ∈ Sketch.slots t, x = .control .addGroup)
    (hw : ∀ y ∈ Sketch.slots w, Slot.within .user y = true)
    (h : Bears away latched typed
      (both (σ.groups.map (σ.withMembers groupId users).block ++ t) w) c) :
    Bears away latched typed
      (both (σ.groups.map (σ.withMembers groupId (users ++ more)).block ++ t) w)
      (more.foldl (fun c u => c.addMember groupId u) c) := by
  induction more generalizing users c with
  | nil => rwa [List.append_nil]
  | cons u rest ih =>
    obtain ⟨g, hg, hid⟩ := hgroup
    have hnew : .member groupId u.id ∉
        Sketch.slots (σ.groups.map (σ.withMembers groupId users).block ++ t) := by
      intro hmem
      rw [Sketch.slots_append, List.mem_append, Shown.mem_slots_blocks] at hmem
      rcases hmem with ⟨g', -, hx | hx | ⟨u', hu', hx⟩⟩ | hmem
      · cases hx
      · cases hx
      · rw [Slot.member.injEq] at hx
        obtain ⟨hg', hu⟩ := hx
        have hu' : u' ∈ users := by simpa [Shown.withMembers, ← hg'] using hu'
        rw [List.map_append, List.nodup_append] at hmembers
        exact hmembers.2.2 u'.id (List.mem_map_of_mem hu') u.id (by simp) hu.symm
      · cases ht _ hmem
    have hslot : .group groupId ∈
        Sketch.slots (σ.groups.map (σ.withMembers groupId users).block ++ t) := by
      rw [Sketch.slots_append]
      exact List.mem_append_left _ (Shown.mem_slots_blocks.2 ⟨g, hg, Or.inl (hid ▸ rfl)⟩)
    have hadded := h.addMember hslot hnew hw
    have ht' : (.group groupId : Slot) ∉ Sketch.slots t := fun hmem => by
      cases ht _ hmem
    have hblocks : (σ.groups.map (σ.withMembers groupId users).block).map
        (Node.adjust (fun s => s.mark == some (.group groupId))
          fun s ds => .element s (ds ++ [Sketch.memberBlock groupId u])) =
            σ.groups.map (σ.withMembers groupId (users ++ [u])).block := by
      rw [List.map_map]
      exact List.map_congr_left fun g _ => σ.block_addMember groupId users u g
    rw [List.map_append, Sketch.adjust_slot_eq_self ht', hblocks] at hadded
    have hrest := ih (users ++ [u]) (by simpa using hmembers) hadded
    rw [List.append_assoc] at hrest
    exact hrest

/-- The block of a group with the blocks of its members is put behind those of other groups. -/
theorem addGroupWithMembers {σ : Shown} {groups : List Group} {g : Group} {p : Panel}
    (h : Bears away p.latches.isLatched typed (both (groups.map σ.block) w) c)
    (hmembers : σ.members = p.membersOf) (hnodup : ((p.membersOf g.id).map (·.id)).Nodup)
    (hnew : g.id ∉ groups.map (·.id)) (hw : ∀ y ∈ Sketch.slots w, Slot.within .user y = true) :
    Bears away p.latches.isLatched typed (both ((groups ++ [g]).map σ.block) w)
      (c.addGroupWithMembers p g) := by
  have hplaced := h.place_group (Sketch.neat_groupBlock g) (by simp)
    (Shown.slots_groupBlock_new hnew) hw
  rw [Sketch.dress_groupBlock] at hplaced
  -- So far the group has no members on the page.
  have hempty : groups.map σ.block ++ [Sketch.groupBlock unlatched g] =
      (groups ++ [g]).map (σ.withMembers g.id []).block ++ [] := by
    rw [List.map_append, σ.map_block_withMembers hnew]
    simp [Shown.block, Shown.withMembers]
  rw [hempty] at hplaced
  have hadded := addMembers (σ := { σ with groups := groups ++ [g] }) [] (p.membersOf g.id)
    ⟨g, by simp, rfl⟩ hnodup (fun x hx => by cases hx) hw hplaced
  have hall : ∀ g', (Shown.withMembers { σ with groups := groups ++ [g] } g.id
      ([] ++ p.membersOf g.id)).block g' = σ.block g' := by
    intro g'
    simp [Shown.block, Shown.withMembers, ← hmembers]
  rw [List.append_nil, List.map_congr_left fun g' _ => hall g'] at hadded
  exact hadded

/-- The blocks of groups with those of their members are put behind the blocks that are there. -/
theorem addGroups {σ : Shown} {p : Panel} (groups more : List Group)
    (h : Bears away p.latches.isLatched typed (both (groups.map σ.block) w) c)
    (hmembers : σ.members = p.membersOf) (hdistinct : ∀ g, ((p.membersOf g).map (·.id)).Nodup)
    (hnodup : ((groups ++ more).map (·.id)).Nodup)
    (hw : ∀ y ∈ Sketch.slots w, Slot.within .user y = true) :
    Bears away p.latches.isLatched typed (both ((groups ++ more).map σ.block) w)
      (more.foldl (Canvas.addGroupWithMembers p) c) := by
  induction more generalizing groups c with
  | nil => rwa [List.append_nil]
  | cons g rest ih =>
    have hnew : g.id ∉ groups.map (·.id) := by
      intro hmem
      rw [List.map_append, List.nodup_append] at hnodup
      exact hnodup.2.2 g.id hmem g.id (by simp) rfl
    have hadded := h.addGroupWithMembers hmembers (hdistinct g.id) hnew hw
    have hrest := ih (groups ++ [g]) hadded (by simpa using hnodup)
    rw [List.append_assoc] at hrest
    exact hrest

/-- The blocks of users are put behind the blocks that are there. -/
theorem addUsers (users more : List User)
    (h : Bears away latched typed (both m (users.map (Sketch.userBlock unlatched))) c)
    (hnodup : ((users ++ more).map (·.id)).Nodup)
    (hm : ∀ y ∈ Sketch.slots m, Slot.within .group y = true) :
    Bears away latched typed (both m ((users ++ more).map (Sketch.userBlock unlatched)))
      (more.foldl (fun c u => (c.addUser latched u).2) c) := by
  induction more generalizing users c with
  | nil => rwa [List.append_nil]
  | cons u rest ih =>
    have hnew : u.id ∉ users.map (·.id) := by
      intro hmem
      rw [List.map_append, List.nodup_append] at hnodup
      exact hnodup.2.2 u.id hmem u.id (by simp) rfl
    have hadded := h.place_user (Sketch.neat_userBlock u) (by simp)
      (Shown.slots_userBlock_new hnew) hm
    rw [Sketch.dress_userBlock] at hadded
    have hrest := ih (users ++ [u]) (by rw [List.map_append, List.map_singleton]; exact hadded)
      (by simpa using hnodup)
    rw [List.append_assoc] at hrest
    exact hrest

/-- A container is emptied. -/
theorem clear {σ : Shown} (h : Bears away latched typed σ.area c) (k : EntityKind) :
    Bears away latched typed (Function.update σ.area k [])
      ((c.clear (c.view.container k)).forget (Slot.within k)) := by
  obtain ⟨B, content, h⟩ := h
  exact ⟨B, _, h.clear σ.within_area k⟩

end Bears

namespace Shows

/-! ## Groups and users -/

theorem drawGroups {σ : Shown} {p : Panel}
    (h : Shows away p.latches.isLatched typed σ.area editor c)
    (hgroups : (p.groups.map (·.id)).Nodup)
    (hmembers : ∀ g, ((p.membersOf g).map (·.id)).Nodup) :
    Shows away p.latches.isLatched typed
      ({ σ with groups := p.groups, members := p.membersOf } : Shown).area p.editor
      (c.drawGroups p) := by
  let τ : Shown := { σ with groups := p.groups, members := p.membersOf }
  have hw : ∀ y ∈ Sketch.slots (σ.area .user), Slot.within .user y = true := σ.within_area .user
  have hcleared := h.bears.clear .group
  rw [σ.area_eq_both, update_both_group] at hcleared
  have hdrawn := Bears.addGroups (σ := τ) [] p.groups hcleared rfl hmembers hgroups hw
  rw [List.nil_append] at hdrawn
  unfold Canvas.drawGroups
  refine Bears.drawProperties ?_ p
  rw [Shown.area_eq_both, Shown.area]
  cases hempty : p.groups.isEmpty with
  | true =>
    simp only [if_true, List.append_nil]
    exact hdrawn
  | false =>
    simp only [Bool.false_eq_true, if_false]
    have hbutton := hdrawn.place_group Sketch.neat_addGroupButton (by simp) (fun x hx => ?_) hw
    · rw [Sketch.dress_addGroupButton] at hbutton
      exact hbutton
    · rw [Sketch.slots_addGroupButton, List.mem_singleton] at hx
      subst hx
      refine ⟨rfl, fun hmem => ?_⟩
      obtain ⟨g, -, h | h | ⟨u, -, h⟩⟩ := Shown.mem_slots_blocks.1 hmem <;> cases h

theorem drawUsers {σ : Shown} {p : Panel}
    (h : Shows away p.latches.isLatched typed σ.area editor c)
    (husers : (p.users.map (·.id)).Nodup) :
    Shows away p.latches.isLatched typed ({ σ with users := p.users } : Shown).area p.editor
      (c.drawUsers p) := by
  have hm : ∀ y ∈ Sketch.slots (σ.area .group), Slot.within .group y = true := σ.within_area .group
  have hcleared := h.bears.clear .user
  rw [σ.area_eq_both, update_both_user] at hcleared
  have hdrawn := Bears.addUsers [] p.users hcleared husers hm
  rw [List.nil_append] at hdrawn
  unfold Canvas.drawUsers
  refine Bears.drawProperties ?_ p
  rw [Shown.area_eq_both]
  show Bears _ _ _ (both (σ.area .group) (p.users.map (Sketch.userBlock unlatched) ++ _)) _
  cases hempty : p.users.isEmpty with
  | true =>
    simp only [if_true, List.append_nil]
    exact hdrawn
  | false =>
    simp only [Bool.false_eq_true, if_false]
    have hbutton := hdrawn.place_user Sketch.neat_addUserButton (by simp) (fun x hx => ?_) hm
    · rw [Sketch.dress_addUserButton] at hbutton
      exact hbutton
    · rw [Sketch.slots_addUserButton, List.mem_singleton] at hx
      subst hx
      refine ⟨rfl, fun hmem => ?_⟩
      obtain ⟨u, -, h | h⟩ := Shown.mem_slots_userBlocks.1 hmem <;> cases h

end Shows

/-! ## Members -/

namespace Shown

variable (σ : Shown)

/-- Without its members, a group has all other slots still. -/
theorem mem_slots_withoutMembers {groupId : String} {k : EntityKind} {x : Slot} :
    x ∈ Sketch.slots ((σ.withMembers groupId []).area k) ↔
      x ∈ Sketch.slots (σ.area k) ∧ x.isMemberOf groupId = false := by
  cases k with
  | user =>
    refine (and_iff_left_of_imp fun hx => ?_).symm
    have hwithin := σ.within_area .user x hx
    cases x with
    | member g id => cases hwithin
    | _ => rfl
  | group =>
    simp only [area, Sketch.slots_append, List.mem_append, mem_slots_blocks, withMembers]
    have hbutton : x ∈ Sketch.slots (if σ.groups.isEmpty then []
        else [Sketch.addGroupButton unlatched]) → x.isMemberOf groupId = false := by
      intro hx
      rw [eq_addGroup_of_mem hx]
      rfl
    constructor
    · rintro (⟨g, hg, rfl | rfl | ⟨u, hu, rfl⟩⟩ | hx)
      · exact ⟨Or.inl ⟨g, hg, Or.inl rfl⟩, rfl⟩
      · exact ⟨Or.inl ⟨g, hg, Or.inr (Or.inl rfl)⟩, rfl⟩
      · by_cases hid : g.id = groupId
        · rw [hid, Function.update_self] at hu
          cases hu
        · rw [Function.update_of_ne hid] at hu
          exact ⟨Or.inl ⟨g, hg, Or.inr (Or.inr ⟨u, hu, rfl⟩)⟩, beq_eq_false_iff_ne.2 hid⟩
      · exact ⟨Or.inr hx, hbutton hx⟩
    · rintro ⟨⟨g, hg, rfl | rfl | ⟨u, hu, rfl⟩⟩ | hx, hmember⟩
      · exact Or.inl ⟨g, hg, Or.inl rfl⟩
      · exact Or.inl ⟨g, hg, Or.inr (Or.inl rfl)⟩
      · have hid : g.id ≠ groupId := beq_eq_false_iff_ne.1 hmember
        refine Or.inl ⟨g, hg, Or.inr (Or.inr ⟨u, ?_, rfl⟩)⟩
        rwa [Function.update_of_ne hid]
      · exact Or.inr hx

theorem prune_slot_eq_self {x : Slot} {l : List Sketch} (hx : x ∉ Sketch.slots l) :
    Node.pruneAmong (fun s => s.mark == some x) l = l :=
  Node.pruneAmong_eq_self fun s hs =>
    beq_eq_false_iff_ne.2 fun h => hx (Sketch.mem_slots.2 ⟨s, hs, h⟩)

theorem prune_memberBlocks (groupId id : String) (users : List User) :
    Node.pruneAmong (fun s => s.mark == some (.member groupId id))
        (users.map (Sketch.memberBlock groupId)) =
      (users.filter (·.id != id)).map (Sketch.memberBlock groupId) := by
  induction users with
  | nil => rfl
  | cons u rest ih =>
    obtain ⟨self, children, hblock, hmark⟩ : ∃ self children,
        Sketch.memberBlock groupId u = .element self children ∧
          self.mark = some (.member groupId u.id) := ⟨_, _, rfl, rfl⟩
    have hslots := Sketch.slots_memberBlock groupId u
    rw [hblock, Sketch.slots_element, hmark] at hslots
    have hchildren : Sketch.slots children = [] := by simpa using hslots
    have hsame : Node.prune (fun s => s.mark == some (.member groupId id))
        (.element self children) = .element self children := by
      rw [Node.prune, prune_slot_eq_self (by simp [hchildren])]
    rw [List.map_cons, Node.pruneAmong, ih, hblock, hsame]
    by_cases hid : u.id = id
    · simp [Node.test, hmark, hid]
    · simp [Node.test, hmark, hid, hblock]

/-- Taking the block of a member out of the block of its group, wherever that is. -/
theorem prune_block (groupId id : String) (users : List User) (g : Group) :
    Node.prune (fun s => s.mark == some (.member groupId id))
        ((σ.withMembers groupId users).block g) =
      (σ.withMembers groupId (users.filter (·.id != id))).block g := by
  obtain ⟨self, children, hblock, hmark⟩ : ∃ self children,
      Sketch.groupBlock unlatched g = .element self children ∧
        self.mark = some (.group g.id) := ⟨_, _, rfl, rfl⟩
  have hslots := Sketch.slots_groupBlock unlatched g
  rw [hblock, Sketch.slots_element, hmark] at hslots
  have hchildren : Sketch.slots children = [.control (.delete ⟨g.id, .group⟩)] := by
    simpa using hslots
  rw [block, block, hblock, Sketch.under_element, Sketch.under_element, Node.prune,
    Node.pruneAmong_append, prune_slot_eq_self (by simp [hchildren])]
  congr 2
  by_cases hg : g.id = groupId
  · subst hg
    simpa [withMembers] using prune_memberBlocks g.id id users
  · simp only [withMembers, Function.update_of_ne hg]
    refine prune_slot_eq_self fun hmem => ?_
    rw [Sketch.slots_flatMap] at hmem
    have hmem : ∃ u ∈ σ.members g.id, groupId = g.id ∧ id = u.id := by simpa using hmem
    obtain ⟨-, -, heq, -⟩ := hmem
    exact hg heq.symm

theorem prune_blocks (groupId id : String) (users : List User) {t : List Sketch}
    (ht : ∀ x ∈ Sketch.slots t, x = .control .addGroup) :
    Node.pruneAmong (fun s => s.mark == some (.member groupId id))
        (σ.groups.map (σ.withMembers groupId users).block ++ t) =
      σ.groups.map (σ.withMembers groupId (users.filter (·.id != id))).block ++ t := by
  have ht' : (.member groupId id : Slot) ∉ Sketch.slots t := fun hmem => by
    cases ht _ hmem
  have hroot : ∀ g ∈ σ.groups, !Node.test (fun s => s.mark == some (.member groupId id))
      ((σ.withMembers groupId users).block g) = true := fun _ _ => rfl
  rw [Node.pruneAmong_append, prune_slot_eq_self ht', Node.pruneAmong_eq]
  congr 1
  rw [List.filter_eq_self.2 (by simpa using hroot), List.map_map]
  exact List.map_congr_left fun g _ => σ.prune_block groupId id users g

end Shown

namespace Bearing

variable {B : Backdrop} {content : Contents}

theorem bare_prune (v : View) (n : Nat) (l : List (Node Nat Handler)) :
    v.bare (Node.pruneAmong (hasMark n) l) = Node.pruneAmong (hasMark n) (v.bare l) := by
  unfold View.bare
  split
  · rfl
  · exact Node.pruneAmong_comm _ _ _

/-- Taking the blocks of members off the page, one after the other. -/
theorem detachMembers {σ : Shown} {groupId : String} {t : List Sketch}
    (ht : ∀ x ∈ Sketch.slots t, x = .control .addGroup)
    (hw : ∀ y ∈ Sketch.slots w, Slot.within .user y = true) {slots : SlotMap Nat} {v : View}
    (members : List (String × Nat))
    (hmembers : ∀ e ∈ members, slots.get? (.member groupId e.1) = some e.2 ∧ B.Spares e.2)
    {users : List User} {d : Document Handler}
    (hscene : Scene away { document := d, view := v } B content)
    (hlike : ∀ k, LikeAll (Stands slots latched typed) (v.bare (content k))
      (both (σ.groups.map (σ.withMembers groupId users).block ++ t) w k)) :
    ∃ B' content', Scene away
        { document := (members.map (·.2)).foldl Document.detach d, view := v } B' content' ∧
      (∀ n, B.Spares n → B'.Spares n) ∧
      ∀ k, LikeAll (Stands slots latched typed) (v.bare (content' k))
        (both (σ.groups.map (σ.withMembers groupId (users.filter fun u =>
          members.all fun e => u.id != e.1)).block ++ t) w k) := by
  induction members generalizing users d B content with
  | nil =>
    refine ⟨B, content, hscene, fun _ h => h, ?_⟩
    have hsame : (users.filter fun _ => true) = users := List.filter_eq_self.2 fun _ _ => rfl
    simpa only [List.all_nil, hsame] using hlike
  | cons e rest ih =>
    rw [List.forall_mem_cons] at hmembers
    obtain ⟨⟨hfound, hspares⟩, hrest⟩ := hmembers
    have husers : (.member groupId e.1 : Slot) ∉ Sketch.slots w := fun hmem => by
      cases hw _ hmem
    have hpruned : ∀ k, LikeAll (Stands slots latched typed)
        (v.bare (Node.pruneAmong (hasMark e.2) (content k)))
        (both (σ.groups.map (σ.withMembers groupId (users.filter (·.id != e.1))).block ++ t) w
          k) := by
      intro k
      rw [bare_prune]
      have hlike := (hlike k).pruneAmong fun x s hstands => hstands.hasMark_eq hfound
      cases k with
      | group => exact σ.prune_blocks groupId e.1 users ht ▸ hlike
      | user => exact Shown.prune_slot_eq_self husers ▸ hlike
    obtain ⟨B', content', hscene', hspares', hlike'⟩ :=
      ih (B := B.prune (hasMark e.2)) hrest (hscene.detach hspares) hpruned
    refine ⟨B', content', hscene', hspares', ?_⟩
    have hfilter : (users.filter fun u => (e :: rest).all fun e => u.id != e.1) =
        (users.filter (·.id != e.1)).filter fun u => rest.all fun e => u.id != e.1 := by
      rw [List.filter_filter]
      exact List.filter_congr fun u _ => by rw [List.all_cons, Bool.and_comm]
    rw [hfilter]
    exact hlike'

/-- All members of a group that is shown have a slot. -/
theorem members_removed {σ : Shown} (h : Bearing away latched typed σ.area c B content) {g : Group}
    (hg : g ∈ σ.groups) {groupId : String} (hid : g.id = groupId) {members : List (String × Nat)}
    (hmembers : ∀ id n, (id, n) ∈ members ↔ (.member groupId id, n) ∈ c.view.slots.entries) :
    ((σ.members groupId).filter fun u => members.all fun e => u.id != e.1) = [] := by
  refine List.filter_eq_nil_iff.2 fun u hu hall => ?_
  have hslot : .member groupId u.id ∈ Sketch.slots (σ.area .group) := by
    rw [Shown.area, Sketch.slots_append]
    refine List.mem_append_left _ (Shown.mem_slots_blocks.2 ⟨g, hg, Or.inr (Or.inr ?_)⟩)
    rw [hid]
    exact ⟨u, hu, rfl⟩
  obtain ⟨n, hn⟩ := h.get?_of_mem_slots hslot
  have hmem := (hmembers u.id n).2 (SlotMap.mem_of_get? hn)
  simpa using List.all_eq_true.1 hall _ hmem

end Bearing

theorem fresh_foldl_detach (numbers : List Nat) (d : Document Handler) :
    (numbers.foldl Document.detach d).fresh = d.fresh := by
  induction numbers generalizing d with
  | nil => rfl
  | cons n rest ih =>
    rw [List.foldl_cons, ih]
    unfold Document.detach
    split
    · rfl
    · split <;> rfl

/-- All blocks of members of a group are taken off the page and forgotten. -/
theorem Bears.forgetMembers {σ : Shown} (h : Bears away latched typed σ.area c)
    {groupId : String} (hgroup : groupId ∈ σ.groups.map (·.id)) :
    Bears away latched typed (σ.withMembers groupId []).area
      { document := (c.view.slots.removeMembersOf groupId).1.foldl Document.detach c.document
        view := { c.view with slots := (c.view.slots.removeMembersOf groupId).2 } } := by
  obtain ⟨B, content, h⟩ := h
  obtain ⟨g, hg, hid⟩ := List.mem_map.1 hgroup
  obtain ⟨members, hremoved, hmembers⟩ := c.view.slots.exists_removedMembers groupId
  have hfound : ∀ e ∈ members, c.view.slots.get? (.member groupId e.1) = some e.2 ∧
      B.Spares e.2 := by
    intro e he
    have hget := h.keyed.get?_of_mem ((hmembers e.1 e.2).1 he)
    obtain ⟨k, -, hmem⟩ := h.exists_of_get? hget
    exact ⟨hget, h.toScene.spares hmem⟩
  -- What is shown now, in the form in which blocks are taken out of it.
  have hnow : ∀ k, σ.area k = both (σ.groups.map
      (σ.withMembers groupId (σ.members groupId)).block ++
        if σ.groups.isEmpty then [] else [Sketch.addGroupButton unlatched]) (σ.area .user) k := by
    intro k
    have hsame : σ.withMembers groupId (σ.members groupId) = σ := by
      simp [Shown.withMembers]
    rw [hsame]
    exact congrFun σ.area_eq_both k
  obtain ⟨B', content', hscene, hspares, hlike⟩ := Bearing.detachMembers
    (fun _ => Shown.eq_addGroup_of_mem) (σ.within_area .user) members hfound h.toScene
    fun k => hnow k ▸ h.like k
  have hnone := h.members_removed hg hid hmembers
  rw [hnone] at hlike
  have harea : both (σ.groups.map (σ.withMembers groupId []).block ++
      if σ.groups.isEmpty then [] else [Sketch.addGroupButton unlatched]) (σ.area .user) =
        (σ.withMembers groupId []).area := (Shown.area_eq_both _).symm
  rw [harea] at hlike
  rw [hremoved]
  refine ⟨B', content', hscene.remember _ _, fun k => ?_, fun x n hx => ?_, h.keyed.removeWhere _,
    fun n hn => ?_⟩
  · exact Bearing.like_removeWhere (hlike k) fun x hx => (σ.mem_slots_withoutMembers.1 hx).2
  · obtain ⟨hmember, k, hk⟩ := h.known_removeWhere hx
    exact ⟨k, σ.mem_slots_withoutMembers.2 ⟨hk, hmember⟩⟩
  · show n < ((members.map (·.2)).foldl Document.detach c.document).fresh ∧ _
    rw [fresh_foldl_detach]
    exact ⟨(h.editor n hn).1, hspares n (h.editor n hn).2⟩

namespace Shows

/-- Drawing the members of a group that is not there. -/
theorem drawMembers_of_notMem {σ : Shown} (h : Shows away latched typed σ.area editor c)
    (p : Panel) {groupId : String} (hgroup : groupId ∉ σ.groups.map (·.id)) :
    c.drawMembers p groupId = c := by
  obtain ⟨B, content, h, -⟩ := h
  have hnone : c.slot? (.group groupId) = none := by
    cases hslot : c.slot? (.group groupId) with
    | none => rfl
    | some n =>
      obtain ⟨k, hk⟩ := h.known _ n hslot
      cases k with
      | user => cases σ.within_area .user _ hk
      | group =>
        rw [Shown.area, Sketch.slots_append, List.mem_append, Shown.mem_slots_blocks] at hk
        rcases hk with ⟨g, hg, heq | heq | ⟨u, -, heq⟩⟩ | hk
        · exact absurd (List.mem_map.2 ⟨g, hg, (Slot.group.inj heq).symm⟩) hgroup
        · cases heq
        · cases heq
        · cases Shown.eq_addGroup_of_mem hk
  unfold Canvas.drawMembers
  rw [hnone]
  rfl

theorem drawMembers {σ : Shown} {p : Panel} (h : Shows away latched typed σ.area editor c)
    {groupId : String} (hgroup : groupId ∈ σ.groups.map (·.id))
    (hmembers : ((p.membersOf groupId).map (·.id)).Nodup) :
    Shows away latched typed (σ.withMembers groupId (p.membersOf groupId)).area p.editor
      (c.drawMembers p groupId) := by
  obtain ⟨g, hg, hid⟩ := List.mem_map.1 hgroup
  have hslot : ∃ n, c.slot? (.group groupId) = some n := by
    obtain ⟨B, content, h, -⟩ := h
    refine h.get?_of_mem_slots (k := .group) ?_
    rw [Shown.area, Sketch.slots_append]
    exact List.mem_append_left _ (Shown.mem_slots_blocks.2 ⟨g, hg, Or.inl (hid ▸ rfl)⟩)
  obtain ⟨n, hn⟩ := hslot
  have hforgotten := h.bears.forgetMembers hgroup
  rw [Shown.area_eq_both] at hforgotten
  have hadded := Bears.addMembers [] (p.membersOf groupId) ⟨g, hg, hid⟩ hmembers
    (fun _ => Shown.eq_addGroup_of_mem) (σ.within_area .user) hforgotten
  unfold Canvas.drawMembers
  rw [hn, if_neg (by simp)]
  refine Bears.drawProperties ?_ p
  rw [Shown.area_eq_both]
  exact hadded

end Shows

end RosterPanel
