import RosterPanel.Proofs.DistinctIds

/-!
# Groups, users and members fit together

A panel keeps three lists side by side. Members are kept under the ids of groups, and a user who is
a member is kept once more in every group that the user is in. Each message changes the lists on its
own. Results:

* `Rooted`: members are known of listed groups only. `Panel.rooted_react` and
  `Panel.rooted_reactAll` are the step and the run of it, whatever the messages bring.
* `Panel.rooted_run`: hence `update` on messages about the members of a group that is not listed
  does nothing.
* `Copied`: every member is a copy of a listed user; `Panel.copied_react` is the step of it.
* `Panel.Coherent.react`, `Panel.Coherent.reactAll`: distinct ids, members of listed groups and true
  copies together are kept by every message that agrees with what is known, and by runs of such
  messages.
* `Panel.coherent_react`: the step of all this for `update`; `RefreshUsers` is the one message that
  does not keep it, unless no members are known.
-/

namespace RosterPanel

/-! ## Members of listed groups -/

/-- Members are known of listed groups only. -/
def Rooted (groups : List Group) (members : Table (List User)) : Prop :=
  members.keys ⊆ groups.map (·.id)

namespace Rooted

variable {groups : List Group} {members : Table (List User)}

theorem filter (h : Rooted groups members) (q : String → Bool) : Rooted groups (members.filter q) :=
  fun _ hmem => h (Table.mem_keys_filter.1 hmem).2

theorem insert (h : Rooted groups members) {groupId : String}
    (hlisted : groupId ∈ groups.map (·.id)) (known : List User) :
    Rooted groups (members.insert groupId known) := by
  intro g hg
  rcases Table.mem_keys_insert.1 hg with rfl | hg
  · exact hlisted
  · exact h hg

theorem map (h : Rooted groups members) (f : List User → List User) :
    Rooted groups (members.map f) := by
  rw [Rooted, Table.keys_map]
  exact h

/-- More groups may be listed. -/
theorem mono (h : Rooted groups members) {groups' : List Group}
    (hsub : groups.map (·.id) ⊆ groups'.map (·.id)) : Rooted groups' members :=
  fun _ hmem => hsub (h hmem)

end Rooted

namespace Panel

variable {p : Panel}

theorem isSome_group? {id : String} : (p.group? id).isSome = true ↔ id ∈ p.groups.map (·.id) := by
  simp [group?, List.find?_isSome]

theorem group?_eq_none {id : String} : p.group? id = none ↔ id ∉ p.groups.map (·.id) := by
  rw [← isSome_group?, Option.not_isSome_iff_eq_none]

theorem rooted_groupsListing (p : Panel) (groups : List Group) :
    Rooted groups (p.groupsListing groups).1.members := by
  intro id hid
  obtain ⟨hany, -⟩ := Table.mem_keys_filter.1 hid
  obtain ⟨g, hg, heq⟩ := List.any_eq_true.1 hany
  exact List.mem_map.2 ⟨g, hg, beq_iff_eq.1 heq⟩

theorem rooted_adopt (h : Rooted p.groups p.members) (e : Entity) :
    Rooted (p.adopt e).1.groups (p.adopt e).1.members := by
  cases e with
  | group g =>
    simp only [adopt]
    split
    · refine h.mono ?_
      rw [List.map_append]
      exact List.subset_append_left _ _
    · exact h
  | user u =>
    simp only [adopt]
    split <;> exact h

/-- No members are known under an id that no group has, so that it makes no difference if they are
dropped. -/
theorem erase_of_rooted (h : Rooted p.groups p.members) (id : String) :
    (if p.groups.any (·.id == id) then p.members.erase id else p.members) =
      p.members.erase id := by
  split
  · rfl
  · next hgone =>
    refine (Table.erase_eq_self fun hmem => hgone ?_).symm
    obtain ⟨g, hg, heq⟩ := List.mem_map.1 (h hmem)
    exact List.any_eq_true.2 ⟨g, hg, beq_iff_eq.2 heq⟩

/-- With a group its members go. -/
theorem rooted_forget (h : Rooted p.groups p.members) (id : String) :
    Rooted (p.forget id).1.groups (p.forget id).1.members := by
  show Rooted _ (Table.map _ (if p.groups.any (·.id == id) then _ else _))
  rw [erase_of_rooted h]
  refine Rooted.map (fun g hg => ?_) _
  obtain ⟨hne, hmem⟩ := Table.mem_keys_filter.1 hg
  obtain ⟨group, hgroup, rfl⟩ := List.mem_map.1 (h hmem)
  exact List.mem_map.2 ⟨group, List.mem_filter.2 ⟨hgroup, hne⟩, rfl⟩

theorem rooted_showProperties (h : Rooted p.groups p.members) (id : String)
    (change : Option Properties → Properties) :
    Rooted (p.showProperties id change).1.groups (p.showProperties id change).1.members := by
  obtain ⟨editor, heq, -⟩ := p.showProperties_cases id change
  rw [heq]
  exact h

theorem rooted_entityUpdated (h : Rooted p.groups p.members) (id : String)
    (properties : Properties) : Rooted (p.entityUpdated id properties).1.groups
      (p.entityUpdated id properties).1.members := by
  let patch := Patch.ofProperties properties
  have hids : (modifyFirst (·.id == id) patch.group p.groups).map (·.id) = p.groups.map (·.id) :=
    map_modifyFirst (f := patch.group) (fun _ => rfl) _
  unfold entityUpdated
  refine rooted_showProperties (Rooted.map ?_ _) id _
  rw [Rooted, hids]
  exact h

/-- Every `update` keeps the keys of `members` among the ids of `groups`. -/
theorem rooted_react (h : Rooted p.groups p.members) (m : Message) :
    Rooted (p.react m).1.groups (p.react m).1.members := by
  cases m with
  | connectionOpened | connectionLost | refreshUsers | assignUser | removeUser | updateProperty
  | commandFailed => exact h
  | refreshGroups => exact List.nil_subset _
  | refreshGroup groupId => exact h.filter _
  | entitiesListed kind entities =>
    cases kind with
    | group => exact p.rooted_groupsListing _
    | user => exact h
  | membersListed groupId known =>
    simp only [react, membersListed]
    split
    · next hlisted => exact h.insert (isSome_group?.1 hlisted) known
    · exact h
  | requestCreateGroup | requestCreateUser | requestDelete =>
    simp only [react, requestCreate, requestDelete, latchedSend]
    split <;> exact h
  | entityCreated e callback =>
    show Rooted (adopt _ e).1.groups (adopt _ e).1.members
    refine rooted_adopt ?_ e
    exact h
  | entityDeleted id =>
    show Rooted (forget _ id).1.groups (forget _ id).1.members
    refine rooted_forget ?_ id
    exact h
  | memberAdded userId groupId =>
    simp only [react, memberAdded]
    split
    · exact h
    · next hlisted =>
      split
      · exact h
      · refine h.insert (isSome_group?.1 ?_) _
        simpa [Option.isSome_iff_ne_none] using hlisted
  | memberRemoved userId groupId =>
    simp only [react, memberRemoved]
    split
    · exact h
    · next known hknown => exact h.insert (h (Table.mem_keys.2 ⟨known, hknown⟩)) _
  | editProperties target =>
    simp only [react, editProperties]
    split <;> exact h
  | propertiesLoaded id properties => exact rooted_showProperties h id _
  | entityUpdated id properties => exact rooted_entityUpdated h id properties

theorem rooted_reactAll (h : Rooted p.groups p.members) (ms : List Message) :
    Rooted (p.reactAll ms).1.groups (p.reactAll ms).1.members := by
  induction ms generalizing p with
  | nil => exact h
  | cons m rest ih => exact ih (rooted_react h m)

/-- After any messages `ms`, the keys of `members` are among the ids of `groups`; and for the id of
a group that is not listed, `update` on `MembersListed`, `MemberAdded` and `MemberRemoved` is
`(p, [])`, and on `RefreshGroup` changes nothing of `p`. -/
theorem rooted_run (words : Words) (ms : List Message) :
    let p := ((fresh words).reactAll ms).1
    p.members.keys ⊆ p.groups.map (·.id) ∧
      ∀ groupId, groupId ∉ p.groups.map (·.id) →
        (∀ users, p.react (.membersListed groupId users) = (p, [])) ∧
        (∀ userId, p.react (.memberAdded userId groupId) = (p, [])) ∧
        (∀ userId, p.react (.memberRemoved userId groupId) = (p, [])) ∧
        (p.react (.refreshGroup groupId)).1 = p := by
  intro p
  have hrooted : Rooted p.groups p.members := rooted_reactAll (List.nil_subset _) ms
  refine ⟨hrooted, fun groupId hunlisted => ?_⟩
  have hgroup : p.group? groupId = none := group?_eq_none.2 hunlisted
  have hkey : groupId ∉ p.members.keys := fun hmem => hunlisted (hrooted hmem)
  refine ⟨fun users => ?_, fun userId => ?_, fun userId => ?_, ?_⟩
  · simp [react, membersListed, hgroup]
  · simp [react, memberAdded, hgroup]
  · simp [react, memberRemoved, Table.find?_eq_none.2 hkey]
  · show { p with members := p.members.erase groupId } = p
    rw [Table.erase_eq_self hkey]

/-- A group that is listed twice is deleted, and one of its members is taken out late. -/
theorem rooted_run_deletion :
    let staff : List Entity := [.group ⟨"1", "Staff"⟩, .group ⟨"1", "Guests"⟩]
    let ms : List Message := [.entitiesListed .group staff,
      .membersListed "1" [⟨"7", "jane", none⟩], .entityDeleted "1"]
    let p := ((fresh { ahead := [] }).reactAll ms).1
    "1" ∉ p.groups.map (·.id) ∧ p.react (.memberRemoved "7" "1") = (p, []) := by
  intro staff ms p
  have hunlisted : "1" ∉ p.groups.map (·.id) := by decide
  exact ⟨hunlisted, ((rooted_run _ ms).2 "1" hunlisted).2.2.1 "7"⟩

end Panel

/-! ## Members as copies of listed users -/

/-- Every member of a group is a copy of the listed user with the same id. -/
def Copied (users : List User) (members : Table (List User)) : Prop :=
  ∀ groupId known, members.find? groupId = some known →
    ∀ u ∈ known, users.find? (·.id == u.id) = some u

namespace Copied

variable {users : List User} {members : Table (List User)}

theorem getD (h : Copied users members) {groupId : String} {u : User}
    (hu : u ∈ (members.find? groupId).getD []) : users.find? (·.id == u.id) = some u := by
  cases hfind : members.find? groupId with
  | none => simp [hfind] at hu
  | some known =>
    rw [hfind, Option.getD_some] at hu
    exact h groupId known hfind u hu

theorem filter (h : Copied users members) (q : String → Bool) :
    Copied users (members.filter q) := by
  intro groupId known hfind
  rw [Table.find?_filter] at hfind
  split at hfind
  · exact h groupId known hfind
  · cases hfind

theorem insert (h : Copied users members) (groupId : String) {known : List User}
    (hknown : ∀ u ∈ known, users.find? (·.id == u.id) = some u) :
    Copied users (members.insert groupId known) := by
  intro g found hfound
  rw [Table.find?_insert] at hfound
  split at hfound
  · cases hfound
    exact hknown
  · exact h g found hfound

/-- Users may be listed behind those that are. -/
theorem append (h : Copied users members) (added : List User) :
    Copied (users ++ added) members := by
  intro groupId known hfind u hu
  rw [List.find?_append, h groupId known hfind u hu, Option.some_or]

/-- A user is forgotten everywhere. -/
theorem without (h : Copied users members) (id : String) :
    Copied (users.filter (·.id != id)) (members.map fun known => known.filter (·.id != id)) := by
  intro groupId left hfind u hu
  rw [Table.find?_map] at hfind
  obtain ⟨known, hknown, rfl⟩ := Option.map_eq_some_iff.1 hfind
  obtain ⟨hmem, hne⟩ := List.mem_filter.1 hu
  have hsame : (fun v : User => decide ((v.id != id) = true ∧ (v.id == u.id) = true)) =
      fun v => v.id == u.id := by
    funext v
    by_cases heq : v.id = u.id
    · simp [heq, hne]
    · simp [heq]
  rw [List.find?_filter, hsame]
  exact h groupId known hknown u hmem

/-- A user is changed everywhere in the same way. -/
theorem map (h : Copied users members) {f : User → User} (hf : ∀ u, (f u).id = u.id) :
    Copied (users.map f) (members.map (List.map f)) := by
  intro groupId changed hfind u hu
  rw [Table.find?_map] at hfind
  obtain ⟨known, hknown, rfl⟩ := Option.map_eq_some_iff.1 hfind
  obtain ⟨v, hv, rfl⟩ := List.mem_map.1 hu
  rw [List.find?_map]
  have hsame : ((fun w : User => w.id == (f v).id) ∘ f) = fun w => w.id == v.id := by
    funext w
    rw [Function.comp_apply, hf, hf]
  rw [hsame, h groupId known hknown v hv, Option.map_some]

end Copied

/-! ## Coherent panels -/

/-- Groups, users and members fit together. -/
structure Panel.Coherent (p : Panel) : Prop where
  apart : p.ListsApart
  rooted : Rooted p.groups p.members
  copied : Copied p.users p.members

/-- What a message lists of users agrees with what is known of them: users that are members are
listed as they are known, and members are known users. -/
def Message.Agrees (p : Panel) : Message → Prop
  | .entitiesListed .user entities => ∀ groupId, ∀ u ∈ p.membersOf groupId, Entity.user u ∈ entities
  | .membersListed _ users => ∀ u ∈ users, u ∈ p.users
  | _ => True

namespace Panel

variable {p : Panel}

theorem coherent_fresh (words : Words) : (fresh words).Coherent where
  apart := ⟨List.nodup_nil, List.nodup_nil, fun _ _ hfind => by cases hfind⟩
  rooted := List.nil_subset _
  copied := fun _ _ hfind => by cases hfind

/-- Users that are listed anew stay what members are copies of, if each member is among them. -/
theorem copied_usersListing {entities : List Entity} (hdistinct : (entities.map Entity.id).Nodup)
    (hagrees : ∀ groupId, ∀ u ∈ p.membersOf groupId, Entity.user u ∈ entities) :
    Copied (entities.filterMap Entity.user?) p.members := by
  intro groupId known hfind u hu
  have hids : ((entities.filterMap Entity.user?).map (·.id)).Nodup :=
    nodup_filterMap (fun e a ha => by cases e <;> cases ha; rfl) hdistinct
  have hmember : u ∈ p.membersOf groupId := by
    rw [membersOf, hfind]
    exact hu
  exact find?_eq_some_of_mem hids
    (List.mem_filterMap.2 ⟨.user u, hagrees groupId u hmember, rfl⟩)

theorem copied_adopt (h : Copied p.users p.members) (e : Entity) :
    Copied (p.adopt e).1.users (p.adopt e).1.members := by
  cases e with
  | group g =>
    simp only [adopt]
    split <;> exact h
  | user u =>
    simp only [adopt]
    split
    · exact h.append [u]
    · exact h

theorem copied_forget (h : Copied p.users p.members) (id : String) :
    Copied (p.forget id).1.users (p.forget id).1.members := by
  refine Copied.without ?_ id
  split
  · exact h.filter _
  · exact h

theorem copied_showProperties (h : Copied p.users p.members) (id : String)
    (change : Option Properties → Properties) :
    Copied (p.showProperties id change).1.users (p.showProperties id change).1.members := by
  obtain ⟨editor, heq, -⟩ := p.showProperties_cases id change
  rw [heq]
  exact h

/-- An update changes the listed user and all copies, as there is only one under the id in each
list. -/
theorem copied_entityUpdated (h : p.Coherent) (id : String) (properties : Properties) :
    Copied (p.entityUpdated id properties).1.users (p.entityUpdated id properties).1.members := by
  obtain ⟨-, husers, hmembers⟩ := lists_entityUpdated h.apart id properties
  rw [husers, hmembers]
  refine h.copied.map fun u => ?_
  split <;> rfl

/-- Every `update` but that on `RefreshUsers` keeps members copies of listed users, if its lists
agree with them. -/
theorem copied_react (h : p.Coherent) {m : Message} (hne : m ≠ .refreshUsers) (hm : m.Distinct)
    (hagrees : m.Agrees p) : Copied (p.react m).1.users (p.react m).1.members := by
  have hcopied := h.copied
  cases m with
  | refreshUsers => exact absurd rfl hne
  | connectionOpened | connectionLost | assignUser | removeUser | updateProperty
  | commandFailed => exact hcopied
  | refreshGroups => exact fun _ _ hfind => by cases hfind
  | refreshGroup groupId => exact hcopied.filter _
  | entitiesListed kind entities =>
    cases kind with
    | group => exact hcopied.filter _
    | user => exact copied_usersListing hm hagrees
  | membersListed groupId known =>
    simp only [react, membersListed]
    split
    · exact hcopied.insert groupId fun u hu => find?_eq_some_of_mem h.apart.users (hagrees u hu)
    · exact hcopied
  | requestCreateGroup | requestCreateUser | requestDelete =>
    simp only [react, requestCreate, requestDelete, latchedSend]
    split <;> exact hcopied
  | entityCreated e callback =>
    show Copied (adopt _ e).1.users (adopt _ e).1.members
    refine copied_adopt ?_ e
    exact hcopied
  | entityDeleted id =>
    show Copied (forget _ id).1.users (forget _ id).1.members
    refine copied_forget ?_ id
    exact hcopied
  | memberAdded userId groupId =>
    simp only [react, memberAdded]
    split
    · exact hcopied
    · split
      · exact hcopied
      · next u hfound =>
        have hu : p.users.find? (·.id == u.id) = some u := by
          have hid : u.id = userId := by simpa using List.find?_some hfound
          rw [hid]
          exact hfound
        refine hcopied.insert groupId fun v hv => ?_
        split at hv
        · exact hcopied.getD hv
        · rcases List.mem_append.1 hv with hv | hv
          · exact hcopied.getD hv
          · rw [List.mem_singleton.1 hv]
            exact hu
  | memberRemoved userId groupId =>
    simp only [react, memberRemoved]
    split
    · exact hcopied
    · next known hknown =>
      refine hcopied.insert groupId fun u hu => ?_
      exact hcopied groupId known hknown u (List.mem_filter.1 hu).1
  | editProperties target =>
    simp only [react, editProperties]
    split <;> exact hcopied
  | propertiesLoaded id properties => exact copied_showProperties hcopied id _
  | entityUpdated id properties => exact copied_entityUpdated h id properties

/-- A message that agrees with what is known keeps the lists fitting together. -/
theorem Coherent.react (h : p.Coherent) {m : Message} (hne : m ≠ .refreshUsers) (hm : m.Distinct)
    (hagrees : m.Agrees p) : (p.react m).1.Coherent where
  apart := apart_react h.apart hm
  rooted := rooted_react h.rooted m
  copied := copied_react h hne hm hagrees

/-- All of some messages, one after the other, agree with what is known by then. -/
def AgreesAll (p : Panel) : List Message → Prop
  | [] => True
  | m :: rest => m ≠ .refreshUsers ∧ m.Distinct ∧ m.Agrees p ∧ (p.react m).1.AgreesAll rest

theorem Coherent.reactAll (h : p.Coherent) {ms : List Message} (hms : p.AgreesAll ms) :
    (p.reactAll ms).1.Coherent := by
  induction ms generalizing p with
  | nil => exact h
  | cons m rest ih =>
    obtain ⟨hne, hm, hagrees, hrest⟩ := hms
    exact ih (h.react hne hm hagrees) hrest

/-- The panel keeps this record of a user, in the list of users or as a member of a group. -/
def Holds (p : Panel) (u : User) : Prop :=
  u ∈ p.users ∨ ∃ groupId, u ∈ p.membersOf groupId

/-- There is one record of each user, however often it is kept. -/
theorem Coherent.eq_of_holds (h : p.Coherent) {u v : User} (hu : p.Holds u) (hv : p.Holds v)
    (hid : u.id = v.id) : u = v := by
  have hlisted : ∀ w, p.Holds w → p.users.find? (·.id == w.id) = some w := by
    rintro w (hw | ⟨groupId, hw⟩)
    · exact find?_eq_some_of_mem h.apart.users hw
    · exact h.copied.getD hw
  have hsame := hlisted u hu
  rw [hid, hlisted v hv] at hsame
  exact (Option.some.inj hsame).symm

/-- When the users are asked for anew, no members may be known. -/
theorem Coherent.refreshUsers_iff (h : p.Coherent) :
    (p.react .refreshUsers).1.Coherent ↔ ∀ groupId, p.membersOf groupId = [] := by
  constructor
  · intro hafter groupId
    refine List.eq_nil_iff_forall_not_mem.2 fun u hu => ?_
    have hfind : List.find? _ [] = some u := hafter.copied.getD hu
    cases hfind
  · intro hempty
    refine ⟨⟨h.apart.groups, List.nodup_nil, h.apart.members⟩, h.rooted, ?_⟩
    intro groupId known hfind u hu
    have hfind : p.members.find? groupId = some known := hfind
    have hnone := hempty groupId
    rw [membersOf, hfind, Option.getD_some] at hnone
    rw [hnone] at hu
    cases hu

/-- For a coherent panel `p` and a message `m` other than `RefreshUsers` with lists of distinct ids
that agree with `p`, `update` leaves a coherent panel, which holds one record of each user id. On
`RefreshUsers` it does so if and only if `members_of` is empty for every group of `p`. -/
theorem coherent_react (h : p.Coherent) :
    (∀ m, m ≠ .refreshUsers → m.Distinct → m.Agrees p →
      (p.react m).1.Coherent ∧ ∀ u v, (p.react m).1.Holds u → (p.react m).1.Holds v →
        u.id = v.id → u = v) ∧
    ((p.react .refreshUsers).1.Coherent ↔ ∀ groupId, p.membersOf groupId = []) := by
  refine ⟨fun m hne hm hagrees => ?_, h.refreshUsers_iff⟩
  have hafter := h.react hne hm hagrees
  exact ⟨hafter, fun u v hu hv hid => hafter.eq_of_holds hu hv hid⟩

/-- A group with one member is known. A list of users that has the member in it keeps this coherent,
and asking for such a list does not. -/
theorem coherent_react_usersListing :
    let jane : User := ⟨"7", "jane", some "Jane"⟩
    let ms : List Message := [.entitiesListed .group [.group ⟨"1", "Staff"⟩],
      .entitiesListed .user [.user jane], .membersListed "1" [jane]]
    let p := ((fresh { ahead := [] }).reactAll ms).1
    let m : Message := .entitiesListed .user [.user ⟨"8", "joe", none⟩, .user jane]
    p.Coherent ∧ (m ≠ .refreshUsers ∧ m.Distinct ∧ m.Agrees p) ∧ (p.react m).1.Coherent ∧
      ¬ (p.react .refreshUsers).1.Coherent := by
  intro jane ms p m
  have hfresh : (fresh { ahead := [] }).Coherent := coherent_fresh _
  have hp : p.Coherent := by
    refine hfresh.reactAll ⟨nofun, by simp [Message.Distinct], trivial, nofun,
      by simp [Message.Distinct], fun _ _ hu => ?_, nofun, by simp [Message.Distinct],
      fun u hu => hu, trivial⟩
    cases hu
  have hagrees : m.Agrees p := by
    intro groupId u hu
    have hlisted : u ∈ p.users := List.mem_of_find?_eq_some (hp.copied.getD hu)
    rw [List.mem_singleton.1 hlisted]
    exact List.mem_cons_of_mem _ List.mem_cons_self
  have hm : m ≠ .refreshUsers ∧ m.Distinct ∧ m.Agrees p :=
    ⟨nofun, by simp [m, jane, Message.Distinct, Entity.id], hagrees⟩
  refine ⟨hp, hm, ((coherent_react hp).1 m hm.1 hm.2.1 hm.2.2).1, fun hafter => ?_⟩
  have hnone : p.membersOf "1" = [] := (coherent_react hp).2.1 hafter "1"
  cases hnone

end Panel

end RosterPanel
