import RosterPanel.Proofs.Latching

/-!
# Distinct ids

A panel is told of groups, of users and of the members of groups by lists, and adds to them what is
created. Results:

* `Apart`, `Panel.apart_react`: the ids in each list stay distinct, as long as those in lists from
  the backend are.
* `Panel.Distinct.react`: in addition no control gets latched twice.
-/

namespace RosterPanel

namespace Panel

/-! ## Lists -/

section

variable {α β : Type}

/-- Changing an element in a way that a function does not see. -/
theorem map_modifyFirst {p : α → Bool} {f : α → α} {g : α → β} (h : ∀ a, g (f a) = g a)
    (l : List α) : (modifyFirst p f l).map g = l.map g := by
  induction l with
  | nil => rfl
  | cons a rest ih =>
    unfold modifyFirst
    split
    · rw [List.map_cons, List.map_cons, h]
    · rw [List.map_cons, List.map_cons, ih]

theorem modifyFirst_eq_self {p : α → Bool} {f : α → α} {l : List α} (h : l.any p = false) :
    modifyFirst p f l = l := by
  induction l with
  | nil => rfl
  | cons a rest ih =>
    rw [List.any_cons, Bool.or_eq_false_iff] at h
    rw [modifyFirst, if_neg (by simp [h.1]), ih h.2]

theorem filter_ne_eq_self {g : α → String} {id : String} {l : List α}
    (h : l.any (fun a => g a == id) = false) : l.filter (fun a => g a != id) = l := by
  refine List.filter_eq_self.2 fun a ha => ?_
  have hne : ¬ g a == id := by
    intro heq
    rw [List.any_eq_true.2 ⟨a, ha, heq⟩] at h
    cases h
  simpa using hne

theorem nodup_filter {g : α → String} {l : List α} (h : (l.map g).Nodup) (q : α → Bool) :
    ((l.filter q).map g).Nodup :=
  h.sublist ((List.filter_sublist).map g)

/-- Among elements with distinct ids there is only one to change. -/
theorem modifyFirst_eq_map {g : α → String} {l : List α} (h : (l.map g).Nodup) (id : String)
    (f : α → α) :
    modifyFirst (fun a => g a == id) f l = l.map fun a => if g a = id then f a else a := by
  induction l with
  | nil => rfl
  | cons a rest ih =>
    rw [List.map_cons, List.nodup_cons] at h
    rw [modifyFirst, List.map_cons]
    by_cases ha : g a = id
    · have hother : ∀ b ∈ rest, (if g b = id then f b else b) = b := by
        intro b hb
        refine if_neg fun heq => h.1 ?_
        exact List.mem_map.2 ⟨b, hb, heq.trans ha.symm⟩
      rw [if_pos (beq_iff_eq.2 ha), if_pos ha, List.map_congr_left hother, List.map_id']
    · rw [if_neg (by simpa using ha), if_neg ha, ih h.2]

theorem find?_eq_some_of_mem {g : α → String} {l : List α} (h : (l.map g).Nodup) {a : α}
    (ha : a ∈ l) : l.find? (fun b => g b == g a) = some a := by
  induction l with
  | nil => cases ha
  | cons b rest ih =>
    rw [List.map_cons, List.nodup_cons] at h
    rcases List.mem_cons.1 ha with rfl | ha
    · exact List.find?_cons_of_pos (beq_self_eq_true _)
    · have hne : g b ≠ g a := fun heq => h.1 (heq ▸ List.mem_map_of_mem ha)
      rw [List.find?_cons_of_neg (by simpa using hne)]
      exact ih h.2 ha

/-- Appending what is not there yet. -/
theorem nodup_concat {g : α → String} {l : List α} (h : (l.map g).Nodup) {a : α}
    (ha : ∀ b ∈ l, g b ≠ g a) : ((l ++ [a]).map g).Nodup := by
  rw [List.map_append, List.map_singleton, List.nodup_append]
  refine ⟨h, by simp, ?_⟩
  intro x hx y hy
  obtain ⟨b, hb, rfl⟩ := List.mem_map.1 hx
  rw [List.mem_singleton] at hy
  rw [hy]
  exact ha b hb

end

/-- What a listing finds of one kind has distinct ids if all of it does. -/
theorem nodup_filterMap {α : Type} {entities : List Entity} {f : Entity → Option α}
    {g : α → String} (hf : ∀ e a, f e = some a → g a = e.id)
    (h : (entities.map Entity.id).Nodup) : ((entities.filterMap f).map g).Nodup := by
  induction entities with
  | nil => exact List.nodup_nil
  | cons e rest ih =>
    rw [List.map_cons, List.nodup_cons] at h
    cases ha : f e with
    | none =>
      rw [List.filterMap_cons_none ha]
      exact ih h.2
    | some a =>
      rw [List.filterMap_cons_some ha, List.map_cons, List.nodup_cons]
      refine ⟨fun hmem => h.1 ?_, ih h.2⟩
      obtain ⟨b, hb, heq⟩ := List.mem_map.1 hmem
      obtain ⟨e', he', hb⟩ := List.mem_filterMap.1 hb
      rw [← hf e a ha, ← heq, hf e' b hb]
      exact List.mem_map_of_mem he'

end Panel

/-! ## Distinct ids -/

/-- The ids in each list tell its elements apart. -/
structure Apart (groups : List Group) (users : List User) (members : Table (List User)) :
    Prop where
  groups : (groups.map (·.id)).Nodup
  users : (users.map (·.id)).Nodup
  members : ∀ groupId known, members.find? groupId = some known → (known.map (·.id)).Nodup

theorem Apart.getD {groups : List Group} {users : List User} {members : Table (List User)}
    (h : Apart groups users members) (groupId : String) :
    (((members.find? groupId).getD []).map (·.id)).Nodup := by
  cases hfind : members.find? groupId with
  | none => exact List.nodup_nil
  | some known => exact h.members groupId known hfind

/-- The ids of what a panel knows are distinct, and no control is latched twice. -/
structure Panel.Distinct (p : Panel) : Prop extends Apart p.groups p.users p.members where
  latches : p.latches.controls.Nodup

namespace Panel.Distinct

variable {p : Panel}

theorem withLatches (h : p.Distinct) {l : Latches} (hl : l.controls.Nodup) :
    Panel.Distinct { p with latches := l } :=
  ⟨h.toApart, hl⟩

theorem membersOf (h : p.Distinct) (groupId : String) :
    ((p.membersOf groupId).map (·.id)).Nodup :=
  h.toApart.getD groupId

end Panel.Distinct

namespace Apart

variable {groups : List Group} {users : List User} {members : Table (List User)}

/-- Other members of a group become known. -/
theorem insert (h : Apart groups users members) (groupId : String) {known : List User}
    (hknown : (known.map (·.id)).Nodup) :
    Apart groups users (members.insert groupId known) := by
  refine ⟨h.groups, h.users, fun g found hfound => ?_⟩
  rw [Table.find?_insert] at hfound
  split at hfound
  · cases hfound
    exact hknown
  · exact h.members g found hfound

/-- The members of all groups change. -/
theorem map (h : Apart groups users members) {f : List User → List User}
    (hf : ∀ known, (known.map (·.id)).Nodup → ((f known).map (·.id)).Nodup) :
    Apart groups users (members.map f) := by
  refine ⟨h.groups, h.users, fun g found hfound => ?_⟩
  rw [Table.find?_map] at hfound
  obtain ⟨known, hknown, rfl⟩ := Option.map_eq_some_iff.1 hfound
  exact hf known (h.members g known hknown)

/-- The members of some groups are forgotten. -/
theorem filter (h : Apart groups users members) (q : String → Bool) :
    Apart groups users (members.filter q) := by
  refine ⟨h.groups, h.users, fun g found hfound => ?_⟩
  rw [Table.find?_filter] at hfound
  split at hfound
  · exact h.members g found hfound
  · cases hfound

end Apart

/-- The ids in a list that a message brings are distinct. -/
def Message.Distinct : Message → Prop
  | .entitiesListed _ entities => (entities.map Entity.id).Nodup
  | .membersListed _ users => (users.map (·.id)).Nodup
  | _ => True

namespace Panel

variable {p : Panel}

/-- What a panel knows is told apart by ids. -/
abbrev ListsApart (p : Panel) : Prop := Apart p.groups p.users p.members

/-- The properties that are shown may change, and what is listed stays. -/
theorem showProperties_cases (p : Panel) (id : String)
    (change : Option Properties → Properties) :
    ∃ editor, (p.showProperties id change).1 = { p with editor } ∧
      (editor = p.editor ∨ .draw .properties ∈ (p.showProperties id change).2) := by
  unfold showProperties
  split
  · exact ⟨p.editor, rfl, Or.inl rfl⟩
  · split
    · exact ⟨_, rfl, Or.inr List.mem_cons_self⟩
    · exact ⟨p.editor, rfl, Or.inl rfl⟩

theorem apart_showProperties (h : p.ListsApart) (id : String)
    (change : Option Properties → Properties) : (p.showProperties id change).1.ListsApart := by
  obtain ⟨editor, heq, -⟩ := p.showProperties_cases id change
  rw [heq]
  exact h

theorem apart_adopt (h : p.ListsApart) (e : Entity) : (p.adopt e).1.ListsApart := by
  cases e with
  | group g =>
    simp only [adopt]
    split
    · next hnone =>
      refine ⟨nodup_concat h.groups fun g' hg' heq => ?_, h.users, h.members⟩
      have hfound := List.find?_eq_none.1 (Option.isNone_iff_eq_none.1 hnone) g' hg'
      exact hfound (beq_iff_eq.2 heq)
    · exact h
  | user u =>
    simp only [adopt]
    split
    · next hnone =>
      refine ⟨h.groups, nodup_concat h.users fun u' hu' heq => ?_, h.members⟩
      have hfound := List.find?_eq_none.1 (Option.isNone_iff_eq_none.1 hnone) u' hu'
      exact hfound (beq_iff_eq.2 heq)
    · exact h

theorem apart_forget (h : p.ListsApart) (id : String) : (p.forget id).1.ListsApart := by
  have hmembers : Apart p.groups p.users
      (if p.groups.any (·.id == id) then p.members.erase id else p.members) := by
    split
    · exact h.filter _
    · exact h
  have hall := hmembers.map (f := fun known => known.filter (·.id != id))
    fun known hknown => nodup_filter hknown _
  exact ⟨nodup_filter h.groups _, nodup_filter h.users _, hall.members⟩

theorem apart_entityUpdated (h : p.ListsApart) (id : String) (properties : Properties) :
    (p.entityUpdated id properties).1.ListsApart := by
  let patch := Patch.ofProperties properties
  have hgroups : (modifyFirst (·.id == id) patch.group p.groups).map (·.id) =
      p.groups.map (·.id) := map_modifyFirst (f := patch.group) (fun _ => rfl) _
  have husers : ∀ l : List User, (modifyFirst (·.id == id) patch.user l).map (·.id) =
      l.map (·.id) := map_modifyFirst (f := patch.user) fun _ => rfl
  have hmembers := h.map (f := modifyFirst (·.id == id) patch.user) fun known hknown => by
    rw [husers]
    exact hknown
  unfold entityUpdated
  refine apart_showProperties ⟨?_, ?_, hmembers.members⟩ id _
  · rw [hgroups]
    exact h.groups
  · rw [husers]
    exact h.users

/-- Among distinct ids, an update changes the records under its id and no others. -/
theorem lists_entityUpdated (h : p.ListsApart) (id : String) (properties : Properties) :
    let q := (p.entityUpdated id properties).1
    let patch := Patch.ofProperties properties
    let userPatch : User → User := fun u => if u.id = id then patch.user u else u
    q.groups = p.groups.map (fun g => if g.id = id then patch.group g else g) ∧
      q.users = p.users.map userPatch ∧ q.members = p.members.map (List.map userPatch) := by
  intro q patch userPatch
  obtain ⟨editor, heq, -⟩ := showProperties_cases { p with
    groups := modifyFirst (·.id == id) patch.group p.groups
    users := modifyFirst (·.id == id) patch.user p.users
    members := p.members.map (modifyFirst (·.id == id) patch.user) } id
      fun old => (old.getD ∅).insertAll properties.entries
  have hq : q = { p with
      groups := modifyFirst (·.id == id) patch.group p.groups
      users := modifyFirst (·.id == id) patch.user p.users
      members := p.members.map (modifyFirst (·.id == id) patch.user)
      editor } := heq
  rw [hq]
  refine ⟨modifyFirst_eq_map h.groups id _, modifyFirst_eq_map h.users id _, ?_⟩
  exact Table.map_congr fun groupId known hfind =>
    modifyFirst_eq_map (h.members groupId known hfind) id _

/-- Every `update` keeps the ids in each list distinct, if those in a list that it brings are. -/
theorem apart_react (h : p.ListsApart) {m : Message} (hm : m.Distinct) :
    (p.react m).1.ListsApart := by
  cases m with
  | connectionOpened | connectionLost | assignUser | removeUser | updateProperty
  | commandFailed => exact h
  | refreshGroups => exact ⟨List.nodup_nil, h.users, fun _ _ hfind => by cases hfind⟩
  | refreshUsers => exact ⟨h.groups, List.nodup_nil, h.members⟩
  | refreshGroup groupId => exact h.filter (· != groupId)
  | entitiesListed k entities =>
    cases k with
    | group =>
      have hgroups : ((entities.filterMap Entity.group?).map (·.id)).Nodup :=
        nodup_filterMap (fun e a ha => by cases e <;> cases ha; rfl) hm
      exact ⟨hgroups, h.users, (h.filter _).members⟩
    | user =>
      have husers : ((entities.filterMap Entity.user?).map (·.id)).Nodup :=
        nodup_filterMap (fun e a ha => by cases e <;> cases ha; rfl) hm
      exact ⟨h.groups, husers, h.members⟩
  | membersListed groupId known =>
    simp only [react, membersListed]
    split
    · exact h.insert groupId hm
    · exact h
  | requestCreateGroup | requestCreateUser | requestDelete =>
    simp only [react, requestCreate, requestDelete, latchedSend]
    split <;> exact h
  | entityCreated e callback =>
    show (adopt _ e).1.ListsApart
    refine apart_adopt ?_ e
    exact h
  | entityDeleted id =>
    show (forget _ id).1.ListsApart
    exact apart_forget h id
  | memberAdded userId groupId =>
    simp only [react, memberAdded]
    split
    · exact h
    · split
      · exact h
      · next u _ =>
        have hknown := h.getD groupId
        refine h.insert groupId ?_
        split
        · exact hknown
        · next hnew =>
          refine nodup_concat hknown fun u' hu' heq => hnew ?_
          exact List.any_eq_true.2 ⟨u', hu', beq_iff_eq.2 heq⟩
  | memberRemoved userId groupId =>
    simp only [react, memberRemoved]
    split
    · exact h
    · next known hknown =>
      exact h.insert groupId (nodup_filter (h.members groupId known hknown) _)
  | editProperties target =>
    simp only [react, editProperties]
    split <;> exact h
  | propertiesLoaded id properties => exact apart_showProperties h id _
  | entityUpdated id properties => exact apart_entityUpdated h id properties

/-- A message keeps ids distinct, and no control gets latched twice. -/
theorem Distinct.react (h : p.Distinct) {m : Message} (hm : m.Distinct) : (p.react m).1.Distinct :=
  ⟨apart_react h.toApart hm, (p.latchStep_react m).nodup h.latches⟩

end Panel

end RosterPanel
