import RosterPanel.Proofs.Coherence

/-!
# What is left of a deleted entity

The news that an entity was deleted names it by its id alone, which may be that of a group, of a
user, of both, or of a member who is listed nowhere else. Results:

* `Panel.Lacks`: a panel without a trace of an id.
* `Panel.Spares`: what a panel is when all that has an id is taken out of it, and nothing else.
* `Panel.spares_forget`: `apply_deletion` does just that, as long as members are known of listed
  groups only.
* `Panel.deleted_run`: so it is in every panel that comes about; in addition `RenderMembers` is
  asked for the groups that have lost a member, each of them once and in ascending order.
-/

namespace RosterPanel

/-- The group whose members an effect draws anew. -/
def Effect.membersDrawn? : Effect → Option String
  | .draw (.members groupId) => some groupId
  | _ => none

namespace Panel

variable {p q : Panel} {id : String}

theorem exists_of_mem_membersOf {groupId : String} {u : User} (h : u ∈ p.membersOf groupId) :
    ∃ known, p.members.find? groupId = some known := by
  rw [membersOf] at h
  cases hfind : p.members.find? groupId with
  | none => simp [hfind] at h
  | some known => exact ⟨known, rfl⟩

/-! ## Without an id -/

/-- There is no trace of an id. -/
structure Lacks (p : Panel) (id : String) : Prop where
  groups : ∀ g ∈ p.groups, g.id ≠ id
  users : ∀ u ∈ p.users, u.id ≠ id
  members : ∀ groupId, ∀ u ∈ p.membersOf groupId, u.id ≠ id
  keys : id ∉ p.members.keys
  editor : ∀ e ∈ p.editor, e.target.entity.id ≠ id

/-- One panel is another less everything that has an id. What is left is as it was, and in the same
order. -/
structure Spares (p : Panel) (id : String) (q : Panel) : Prop where
  groups : q.groups = p.groups.filter (·.id != id)
  users : q.users = p.users.filter (·.id != id)
  members : ∀ groupId, q.members.find? groupId =
    if groupId = id then none
    else (p.members.find? groupId).map fun known => known.filter (·.id != id)
  editor : q.editor = p.editor.filter (·.target.entity.id != id)
  rest : q.groupsListed = p.groupsListed ∧ q.usersListed = p.usersListed ∧
    q.connected = p.connected ∧ q.words = p.words

namespace Spares

theorem membersOf (h : p.Spares id q) {groupId : String} (hne : groupId ≠ id) :
    q.membersOf groupId = (p.membersOf groupId).filter (·.id != id) := by
  rw [Panel.membersOf, h.members, if_neg hne, Panel.membersOf]
  cases p.members.find? groupId <;> rfl

theorem lacks (h : p.Spares id q) : q.Lacks id where
  groups g hg := by
    rw [h.groups] at hg
    simpa using (List.mem_filter.1 hg).2
  users u hu := by
    rw [h.users] at hu
    simpa using (List.mem_filter.1 hu).2
  members groupId u hu := by
    by_cases hid : groupId = id
    · rw [Panel.membersOf, h.members, if_pos hid] at hu
      cases hu
    · rw [h.membersOf hid] at hu
      simpa using (List.mem_filter.1 hu).2
  keys := by
    rw [← Table.find?_eq_none, h.members, if_pos rfl]
  editor e he := by
    rw [h.editor] at he
    simpa using (Option.filter_eq_some_iff.1 he).2

end Spares

/-- Where members are known of listed groups only, `apply_deletion` of an id takes out all that has
it, and nothing else. -/
theorem spares_forget (h : Rooted p.groups p.members) (id : String) :
    p.Spares id (p.forget id).1 where
  groups := rfl
  users := rfl
  members groupId := by
    show (Table.map _ (if p.groups.any (·.id == id) then _ else _)).find? groupId = _
    rw [erase_of_rooted h, Table.find?_map, Table.find?_erase]
    split <;> rfl
  editor := by
    show (if p.editor.any (·.target.entity.id == id) then none else p.editor) = _
    cases p.editor with
    | none => rfl
    | some e => by_cases hid : e.target.entity.id = id <;> simp [Option.filter, hid]
  rest := ⟨rfl, rfl, rfl, rfl⟩

/-! ## Groups that have lost a member -/

/-- The groups whose members are drawn anew are those that are left and had a member with the id. -/
theorem membersDrawn_forget (h : Rooted p.groups p.members) (id : String) :
    (p.forget id).2.filterMap Effect.membersDrawn? =
      Panel.groupsWith { p with members := p.members.erase id } (·.id == id) := by
  have hdrawn : ∀ ids : List String,
      (ids.map Effect.drawMembers).filterMap Effect.membersDrawn? = ids := by
    intro ids
    rw [List.filterMap_map]
    exact List.filterMap_some
  have hquiet : ∀ (b : Bool) (part : Drawing), (Effect.draw part).membersDrawn? = none →
      (if b then [Effect.draw part] else []).filterMap Effect.membersDrawn? = [] := by
    intro b part hpart
    cases b with
    | false => rfl
    | true => exact List.filterMap_cons_none hpart
  unfold forget
  simp only [List.filterMap_append, hdrawn]
  rw [hquiet _ .groups rfl, hquiet _ .users rfl, hquiet _ .properties rfl, List.nil_append,
    List.nil_append, List.append_nil, groupsWith, groupsWith, erase_of_rooted h]

theorem mem_membersDrawn_forget (h : Rooted p.groups p.members) (hspares : p.Spares id q)
    {groupId : String} :
    groupId ∈ (p.forget id).2.filterMap Effect.membersDrawn? ↔
      groupId ∈ q.groups.map (·.id) ∧ ∃ u ∈ p.membersOf groupId, u ∉ q.membersOf groupId := by
  have herased : ∀ u, u ∈ Panel.membersOf { p with members := p.members.erase id } groupId ↔
      groupId ≠ id ∧ u ∈ p.membersOf groupId := by
    intro u
    rw [membersOf, Table.find?_erase]
    by_cases hid : groupId = id
    · simp [hid]
    · simp [hid, membersOf]
  rw [membersDrawn_forget h, mem_groupsWith]
  -- Members are known of listed groups only, and a group that is drawn has not been deleted.
  constructor
  · rintro ⟨u, hu, hid⟩
    obtain ⟨hne, hu⟩ := (herased u).1 hu
    refine ⟨?_, u, hu, fun hleft => hspares.lacks.members groupId u hleft (beq_iff_eq.1 hid)⟩
    obtain ⟨g, hg, rfl⟩ := List.mem_map.1 (h (Table.mem_keys.2 (exists_of_mem_membersOf hu)))
    rw [hspares.groups]
    exact List.mem_map.2 ⟨g, List.mem_filter.2 ⟨hg, by simpa using hne⟩, rfl⟩
  · rintro ⟨hgroup, u, hu, hlost⟩
    obtain ⟨g, hg, rfl⟩ := List.mem_map.1 hgroup
    have hne : g.id ≠ id := hspares.lacks.groups g hg
    rw [hspares.membersOf hne, List.mem_filter, not_and] at hlost
    exact ⟨u, (herased u).2 ⟨hne, hu⟩, by simpa using hlost hu⟩

/-- After any messages `ms` from a fresh panel on, `apply_deletion` of an `id` leaves no trace of it
in `groups`, `users`, `members` and the property panel, and all else as it was. `RenderMembers` is
asked for just the groups still listed that have lost a member, each once and in ascending order. -/
theorem deleted_run (words : Words) (ms : List Message) (id : String) :
    let p := ((fresh words).reactAll ms).1
    let q := (p.react (.entityDeleted id)).1
    let drawn := (p.react (.entityDeleted id)).2.filterMap Effect.membersDrawn?
    q.Lacks id ∧ p.Spares id q ∧ drawn.Pairwise (· < ·) ∧
      ∀ groupId, groupId ∈ drawn ↔
        groupId ∈ q.groups.map (·.id) ∧ ∃ u ∈ p.membersOf groupId, u ∉ q.membersOf groupId := by
  intro p q drawn
  have hrooted : Rooted p.groups p.members := rooted_reactAll (List.nil_subset _) ms
  let unlatched : Panel := { p with latches := (p.latches.releaseDeletion id).2 }
  have hspares : unlatched.Spares id q := spares_forget (p := unlatched) hrooted id
  have hfreed : ∀ released : Option Control,
      (released.toList.map Effect.free).filterMap Effect.membersDrawn? = [] := by
    intro released
    cases released <;> rfl
  have hdrawn : drawn = (unlatched.forget id).2.filterMap Effect.membersDrawn? := by
    have heffects : (p.react (.entityDeleted id)).2 =
        (p.latches.releaseDeletion id).1.toList.map Effect.free ++ (unlatched.forget id).2 := rfl
    show (p.react (.entityDeleted id)).2.filterMap _ = _
    rw [heffects, List.filterMap_append, hfreed, List.nil_append]
  refine ⟨hspares.lacks, ⟨hspares.groups, hspares.users, hspares.members, hspares.editor,
    hspares.rest⟩, ?_, fun groupId => ?_⟩
  · rw [hdrawn, membersDrawn_forget (p := unlatched) hrooted]
    exact ascending_groupsWith _ _
  · rw [hdrawn]
    exact mem_membersDrawn_forget (p := unlatched) hrooted hspares

end Panel

end RosterPanel
