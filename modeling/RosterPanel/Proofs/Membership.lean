import RosterPanel.Proofs.DistinctIds
import RosterPanel.Proofs.LastWord

/-!
# Who is a member in the end

The backend confirms one after the other that users were added to groups and removed from them, in
any order and for any users and groups. Results:

* `Panel.Confirmed`: how a confirmation changes the members of the group that it is about;
  `Panel.confirmed_react` says that this is all that it changes.
* `Panel.hasMember_react`, `Panel.hasMember_reactAll`: of what is said about a user in a group, the
  last counts.
* `Panel.membership_reactAll`: who is a member after `update` on any `MemberAdded` and
  `MemberRemoved`, with what stays of the lists of members and of everything else.
-/

namespace RosterPanel

/-- The news that a user was added to a group, or removed from it. -/
structure Confirmation where
  added : Bool
  userId : String
  groupId : String

namespace Confirmation

def message (c : Confirmation) : Message :=
  if c.added then .memberAdded c.userId c.groupId else .memberRemoved c.userId c.groupId

/-- What a confirmation is about: a group and a user. -/
def pair (c : Confirmation) : String × String := (c.groupId, c.userId)

/-- What a confirmation tells of a user in a group: whether they are a member, if it is about
them. -/
def tells (groupId userId : String) (c : Confirmation) : Option Bool :=
  if c.pair = (groupId, userId) then some c.added else none

end Confirmation

namespace Panel

variable {p : Panel} {c : Confirmation}

/-- A user, by id, is a member of a group. -/
def HasMember (p : Panel) (groupId userId : String) : Prop :=
  userId ∈ (p.membersOf groupId).map (·.id)

/-- Whether the group and the user of a confirmation are both known. -/
def knows (p : Panel) (c : Confirmation) : Bool :=
  (p.group? c.groupId).isSome && (p.user? c.userId).isSome

/-! ## One confirmation -/

/-- What becomes of the members of a group by a confirmation about it. -/
inductive Confirmed (p : Panel) (c : Confirmation) (known : List User) : List User → Prop
  /-- A user joins, as they are listed, behind those who are there. -/
  | joined {u : User} : c.added = true → p.knows c = true → u.id = c.userId →
      (∀ m ∈ known, m.id ≠ c.userId) → Confirmed p c known (known ++ [u])
  /-- The user is there already. -/
  | present : c.added = true → (∃ m ∈ known, m.id = c.userId) → Confirmed p c known known
  /-- The group or the user is not known. -/
  | unknown : c.added = true → p.knows c = false → Confirmed p c known known
  /-- The user leaves, and so do all copies. -/
  | departed : c.added = false → Confirmed p c known (known.filter (·.id != c.userId))

namespace Confirmed

variable {known after : List User}

/-- The user is a member from then on, or no longer. -/
theorem mem_iff (h : p.Confirmed c known after) :
    c.userId ∈ after.map (·.id) ↔
      c.added = true ∧ (p.knows c = true ∨ c.userId ∈ known.map (·.id)) := by
  cases h with
  | joined hadded hknows hid _ =>
    rw [List.map_append, List.map_singleton, hid]
    simp [hadded, hknows]
  | present hadded hthere => simp [hadded, hthere]
  | unknown hadded hunknown => simp [hadded, hunknown]
  | departed hremoved => simp [hremoved]

/-- Other users are not affected. -/
theorem mem_iff_of_ne (h : p.Confirmed c known after) {userId : String}
    (hne : userId ≠ c.userId) : userId ∈ after.map (·.id) ↔ userId ∈ known.map (·.id) := by
  cases h with
  | joined _ _ hid _ =>
    rw [List.map_append, List.map_singleton, hid, List.mem_append, List.mem_singleton]
    exact or_iff_left hne
  | present | unknown => rfl
  | departed =>
    simp only [List.mem_map, List.mem_filter, bne_iff_ne]
    refine exists_congr fun u => and_congr_left fun hid => and_iff_left ?_
    rw [hid]
    exact hne

/-- What is left of the list without the user is what was left of it before. -/
theorem filter_eq (h : p.Confirmed c known after) {q : User → Bool}
    (hq : ∀ u : User, u.id = c.userId → q u = false) : after.filter q = known.filter q := by
  cases h with
  | joined _ _ hid _ =>
    rw [List.filter_append, List.filter_cons_of_neg (by simp [hq _ hid]), List.filter_nil,
      List.append_nil]
  | present | unknown => rfl
  | departed =>
    rw [List.filter_filter]
    refine List.filter_congr fun u _ => ?_
    by_cases hid : u.id = c.userId
    · simp [hq u hid]
    · simp [hid]

theorem nodup (h : p.Confirmed c known after) (hknown : (known.map (·.id)).Nodup) :
    (after.map (·.id)).Nodup := by
  cases h with
  | joined _ _ hid hnew => exact nodup_concat hknown fun m hm heq => hnew m hm (heq.trans hid)
  | present | unknown => exact hknown
  | departed => exact nodup_filter hknown _

end Confirmed

/-- On `MemberAdded` and `MemberRemoved`, `update` changes the members of that group, and nothing
else. -/
theorem confirmed_react (p : Panel) (c : Confirmation) :
    ∃ members, (p.react c.message).1 = { p with members } ∧
      p.Confirmed c (p.membersOf c.groupId) ((members.find? c.groupId).getD []) ∧
      ∀ groupId, groupId ≠ c.groupId →
        (members.find? groupId).getD [] = p.membersOf groupId := by
  obtain ⟨added, userId, groupId⟩ := c
  have hother : ∀ (known : List User) (g : String), g ≠ groupId →
      ((p.members.insert groupId known).find? g).getD [] = p.membersOf g := by
    intro known g hg
    rw [Table.find?_insert, if_neg (Ne.symm hg), membersOf]
  have hown : ∀ known : List User,
      ((p.members.insert groupId known).find? groupId).getD [] = known := by
    intro known
    rw [Table.find?_insert, if_pos rfl, Option.getD_some]
  cases added with
  | true =>
    simp only [Confirmation.message, if_true, react, memberAdded]
    cases hgroup : p.group? groupId with
    | none =>
      exact ⟨p.members, rfl, .unknown rfl (by simp [knows, hgroup]), fun _ _ => rfl⟩
    | some g =>
      cases huser : p.user? userId with
      | none =>
        exact ⟨p.members, rfl, .unknown rfl (by simp [knows, huser]), fun _ _ => rfl⟩
      | some u =>
        have hid : u.id = userId := by simpa using List.find?_some huser
        refine ⟨_, rfl, ?_, hother _⟩
        simp only [hown]
        split
        · next hany =>
          obtain ⟨m, hm, heq⟩ := List.any_eq_true.1 hany
          exact .present rfl ⟨m, hm, (beq_iff_eq.1 heq).trans hid⟩
        · next hnew =>
          refine .joined rfl (by simp [knows, hgroup, huser]) hid fun m hm heq => hnew ?_
          exact List.any_eq_true.2 ⟨m, hm, beq_iff_eq.2 (heq.trans hid.symm)⟩
  | false =>
    simp only [Confirmation.message, Bool.false_eq_true, if_false, react, memberRemoved]
    have hleft : p.Confirmed ⟨false, userId, groupId⟩ (p.membersOf groupId) _ := .departed rfl
    cases hfind : p.members.find? groupId with
    | none =>
      rw [membersOf, hfind] at hleft
      exact ⟨p.members, rfl, by rwa [membersOf, hfind], fun _ _ => rfl⟩
    | some known =>
      rw [membersOf, hfind] at hleft
      refine ⟨_, rfl, ?_, hother _⟩
      rw [hown, membersOf, hfind]
      exact hleft

/-! ## Any number of them -/

/-- What counts of a confirmation for a user in a group: an addition does only where the group and
the user are known. -/
def heeds (p : Panel) (groupId userId : String) (c : Confirmation) : Option Bool :=
  if c.added && !p.knows c then none else c.tells groupId userId

/-- The groups and the users stay as they are. -/
theorem groups_users_react (p : Panel) (c : Confirmation) :
    (p.react c.message).1.groups = p.groups ∧ (p.react c.message).1.users = p.users := by
  obtain ⟨members, heq, -⟩ := p.confirmed_react c
  rw [heq]
  exact ⟨rfl, rfl⟩

theorem heeds_react (p : Panel) (c : Confirmation) : (p.react c.message).1.heeds = p.heeds := by
  obtain ⟨hgroups, husers⟩ := p.groups_users_react c
  have hknows : (p.react c.message).1.knows = p.knows := by
    funext d
    rw [knows, group?, user?, hgroups, husers, knows, group?, user?]
  funext groupId userId d
  rw [heeds, hknows, heeds]

/-- The members of the group that a confirmation is about change as it says. -/
theorem membersOf_react (p : Panel) (c : Confirmation) (groupId : String) :
    c.groupId = groupId ∧
        p.Confirmed c (p.membersOf groupId) ((p.react c.message).1.membersOf groupId) ∨
      c.groupId ≠ groupId ∧ (p.react c.message).1.membersOf groupId = p.membersOf groupId := by
  obtain ⟨members, heq, hown, hother⟩ := p.confirmed_react c
  rw [heq]
  by_cases hg : c.groupId = groupId
  · subst hg
    exact Or.inl ⟨rfl, hown⟩
  · exact Or.inr ⟨hg, hother groupId (Ne.symm hg)⟩

/-- A user is a member if the confirmation says so, or if it says nothing of them and they were
before. -/
theorem hasMember_react (p : Panel) (c : Confirmation) (groupId userId : String) :
    (p.react c.message).1.HasMember groupId userId ↔
      p.heeds groupId userId c = some true ∨
        p.heeds groupId userId c = none ∧ p.HasMember groupId userId := by
  unfold HasMember heeds Confirmation.tells Confirmation.pair
  rcases p.membersOf_react c groupId with ⟨rfl, hconfirmed⟩ | ⟨hg, hsame⟩
  · by_cases hu : userId = c.userId
    · subst hu
      rw [hconfirmed.mem_iff]
      cases c.added <;> cases p.knows c <;> simp
    · rw [hconfirmed.mem_iff_of_ne hu]
      simp [Ne.symm hu]
  · rw [hsame]
    simp [hg]

/-- What is said last counts. -/
theorem hasMember_reactAll (p : Panel) (cs : List Confirmation) (groupId userId : String) :
    (p.reactAll (cs.map Confirmation.message)).1.HasMember groupId userId ↔
      lastWord (p.heeds groupId userId) cs = some true ∨
        lastWord (p.heeds groupId userId) cs = none ∧ p.HasMember groupId userId := by
  -- Groups and users stay, so that the rest of the list is heeded as it would be now.
  induction cs generalizing p with
  | nil => simp [lastWord_nil, reactAll]
  | cons c rest ih =>
    have hrest := ih (p.react c.message).1
    rw [heeds_react, hasMember_react] at hrest
    rw [lastWord_cons]
    refine hrest.trans ?_
    cases lastWord (p.heeds groupId userId) rest <;> simp

/-- An addition to a known group of a known user counts. -/
theorem heeds_eq_tells {g : Group} {u : User} (hg : g ∈ p.groups) (hu : u ∈ p.users) :
    p.heeds g.id u.id = Confirmation.tells g.id u.id := by
  have hgroup : (p.group? g.id).isSome = true :=
    List.find?_isSome.2 ⟨g, hg, beq_self_eq_true _⟩
  have huser : (p.user? u.id).isSome = true :=
    List.find?_isSome.2 ⟨u, hu, beq_self_eq_true _⟩
  funext c
  unfold heeds
  split
  · next hunheard =>
    refine (if_neg fun hpair => ?_).symm
    obtain ⟨hgroupId, huserId⟩ := Prod.mk.inj hpair
    simp [knows, hgroupId, huserId, hgroup, huser] at hunheard
  · rfl

/-- However confirmations about different users and groups are mixed, the same users are members in
the end. -/
theorem hasMember_congr {cs ds : List Confirmation} (h : Interleaved Confirmation.pair cs ds)
    (p : Panel) (groupId userId : String) :
    (p.reactAll (cs.map Confirmation.message)).1.HasMember groupId userId ↔
      (p.reactAll (ds.map Confirmation.message)).1.HasMember groupId userId := by
  have hread : ∀ c : Confirmation, c.pair ≠ (groupId, userId) →
      p.heeds groupId userId c = none := by
    intro c hc
    unfold heeds Confirmation.tells
    rw [if_neg hc, ite_self]
  rw [hasMember_reactAll, hasMember_reactAll, h.lastWord_eq hread]

theorem groups_users_reactAll (p : Panel) (cs : List Confirmation) :
    (p.reactAll (cs.map Confirmation.message)).1.groups = p.groups ∧
      (p.reactAll (cs.map Confirmation.message)).1.users = p.users := by
  induction cs generalizing p with
  | nil => exact ⟨rfl, rfl⟩
  | cons c rest ih =>
    obtain ⟨hgroups, husers⟩ := p.groups_users_react c
    obtain ⟨hgroups', husers'⟩ := ih (p.react c.message).1
    exact ⟨hgroups'.trans hgroups, husers'.trans husers⟩

theorem nodup_reactAll (p : Panel) (cs : List Confirmation) {groupId : String}
    (h : ((p.membersOf groupId).map (·.id)).Nodup) :
    (((p.reactAll (cs.map Confirmation.message)).1.membersOf groupId).map (·.id)).Nodup := by
  induction cs generalizing p with
  | nil => exact h
  | cons c rest ih =>
    refine ih (p.react c.message).1 ?_
    rcases p.membersOf_react c groupId with ⟨-, hconfirmed⟩ | ⟨-, hsame⟩
    · exact hconfirmed.nodup h
    · rw [hsame]
      exact h

/-- Whether no confirmation is about a user in a group. -/
def unnamed (cs : List Confirmation) (groupId : String) (u : User) : Bool :=
  cs.all (·.pair != (groupId, u.id))

/-- Members whom no confirmation is about stay, as they are and in their order. -/
theorem filter_membersOf_reactAll (p : Panel) (cs : List Confirmation) {groupId : String}
    {q : User → Bool} (hq : ∀ c ∈ cs, ∀ u : User, c.pair = (groupId, u.id) → q u = false) :
    ((p.reactAll (cs.map Confirmation.message)).1.membersOf groupId).filter q =
      (p.membersOf groupId).filter q := by
  induction cs generalizing p with
  | nil => rfl
  | cons c rest ih =>
    refine (ih (p.react c.message).1 fun d hd => hq d (List.mem_cons_of_mem _ hd)).trans ?_
    rcases p.membersOf_react c groupId with ⟨hg, hconfirmed⟩ | ⟨-, hsame⟩
    · refine hconfirmed.filter_eq fun u hu => hq c List.mem_cons_self u ?_
      rw [Confirmation.pair, hg, hu]
    · rw [hsame]

/-- For any confirmations `cs`, `MemberAdded` and `MemberRemoved`, and a listed user and group:
after `update` on all of them the user is a member if and only if the last of `cs` about the two is
an addition, or there is none and the user was a member before. No member is listed twice that was
not, members whom `cs` does not name keep their order, `groups` and `users` stay, and any `ds` with
the same confirmations of each pair in the same order ends with the same members. -/
theorem membership_reactAll (p : Panel) (cs : List Confirmation) :
    let q := (p.reactAll (cs.map Confirmation.message)).1
    (∀ g ∈ p.groups, ∀ u ∈ p.users, q.HasMember g.id u.id ↔
      lastWord (Confirmation.tells g.id u.id) cs = some true ∨
        lastWord (Confirmation.tells g.id u.id) cs = none ∧ p.HasMember g.id u.id) ∧
    (∀ groupId, ((p.membersOf groupId).map (·.id)).Nodup →
      ((q.membersOf groupId).map (·.id)).Nodup) ∧
    (∀ groupId, (q.membersOf groupId).filter (unnamed cs groupId) =
      (p.membersOf groupId).filter (unnamed cs groupId)) ∧
    q.groups = p.groups ∧ q.users = p.users ∧
    ∀ ds, Interleaved Confirmation.pair cs ds → ∀ groupId userId,
      q.HasMember groupId userId ↔
        (p.reactAll (ds.map Confirmation.message)).1.HasMember groupId userId := by
  intro q
  obtain ⟨hgroups, husers⟩ := p.groups_users_reactAll cs
  refine ⟨fun g hg u hu => ?_, fun groupId => p.nodup_reactAll cs, fun groupId => ?_, hgroups,
    husers, fun ds hds => hasMember_congr hds p⟩
  · rw [← heeds_eq_tells hg hu]
    exact p.hasMember_reactAll cs g.id u.id
  · refine p.filter_membersOf_reactAll cs fun c hc u hpair => ?_
    simp only [unnamed, List.all_eq_false]
    exact ⟨c, hc, by simp [hpair]⟩

/-- Jane joins, leaves and joins again, while Joe leaves for good. -/
theorem membership_reactAll_rejoined :
    let p : Panel := { fresh { ahead := [] } with
      groups := [⟨"1", "Staff"⟩]
      users := [⟨"7", "jane", none⟩, ⟨"8", "joe", none⟩]
      members := (∅ : Table (List User)).insert "1" [⟨"8", "joe", none⟩, ⟨"9", "jim", none⟩] }
    let joins : Confirmation := ⟨true, "7", "1"⟩
    let leaves : Confirmation := ⟨false, "7", "1"⟩
    let joeLeaves : Confirmation := ⟨false, "8", "1"⟩
    let q := (p.reactAll ([joins, joeLeaves, leaves, joins].map Confirmation.message)).1
    let q' := (p.reactAll ([joeLeaves, joins, leaves, joins].map Confirmation.message)).1
    q.HasMember "1" "7" ∧ ¬ q.HasMember "1" "8" ∧ ((q.membersOf "1").map (·.id)).Nodup ∧
      q'.HasMember "1" "7" := by
  intro p joins leaves joeLeaves q q'
  obtain ⟨hmember, hnodup, -, -, -, hcongr⟩ :=
    p.membership_reactAll [joins, joeLeaves, leaves, joins]
  have hjane := hmember ⟨"1", "Staff"⟩ List.mem_cons_self ⟨"7", "jane", none⟩ List.mem_cons_self
  have hjoe := hmember ⟨"1", "Staff"⟩ List.mem_cons_self ⟨"8", "joe", none⟩
    (List.mem_cons_of_mem _ List.mem_cons_self)
  have hsaid : lastWord (Confirmation.tells "1" "8") [joins, joeLeaves, leaves, joins] =
      some false := by decide
  have hmixed : Interleaved Confirmation.pair [joins, joeLeaves, leaves, joins]
      [joeLeaves, joins, leaves, joins] := Interleaved.swap (by decide) [] [leaves, joins]
  refine ⟨hjane.2 (Or.inl (by decide)), fun hstill => ?_, hnodup "1" (by decide),
    (hcongr _ hmixed "1" "7").1 (hjane.2 (Or.inl (by decide)))⟩
  rcases hjoe.1 hstill with htrue | ⟨hnone, -⟩
  · rw [hsaid] at htrue
    cases htrue
  · rw [hsaid] at hnone
    cases hnone

end Panel

end RosterPanel
