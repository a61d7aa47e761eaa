import RosterPanel.Proofs.DistinctIds
import RosterPanel.Proofs.LastWord

/-!
# What entities are called in the end

An update names an entity by its id and brings some of its properties. Records of the entity may be
cached in many places, and updates of other entities may come in between. Results:

* `Group.updated`, `User.updated`: a record under the names that updates said last.
* `Panel.lists_react`, `Panel.lists_reactAll`: updates do this to every record that is cached, and
  no more.
* `Panel.updates_reactAll`: hence after `update` on any `EntityUpdated` ids, orders and the known
  members are as before, and updates of different entities may come in any order.
-/

namespace RosterPanel

open Json (Value)

/-- The news that properties of an entity were changed. -/
structure Update where
  id : String
  properties : Properties

namespace Update

def message (m : Update) : Message := .entityUpdated m.id m.properties

/-- The text that an update brings for an entity under a name. What is no text does not count. -/
def text? (id name : String) (m : Update) : Option String :=
  if m.id = id then (m.properties.find? name).bind Value.string? else none

end Update

/-- A group under the name that updates said last, or else under its own. -/
def Group.updated (us : List Update) (g : Group) : Group :=
  { g with name := (lastWord (Update.text? g.id "name") us).getD g.name }

/-- A user under the names that updates said last, or else under their own. -/
def User.updated (us : List Update) (u : User) : User :=
  { u with
    name := (lastWord (Update.text? u.id "name") us).getD u.name
    realName := (lastWord (Update.text? u.id "realName") us).or u.realName }

theorem Group.updated_cons (m : Update) (us : List Update) (g : Group) :
    g.updated (m :: us) = (g.updated [m]).updated us := by
  simp only [updated, lastWord_cons, lastWord_nil, Option.none_or]
  cases lastWord (Update.text? g.id "name") us <;> rfl

theorem User.updated_cons (m : Update) (us : List Update) (u : User) :
    u.updated (m :: us) = (u.updated [m]).updated us := by
  simp only [updated, lastWord_cons, lastWord_nil, Option.none_or, Option.or_assoc]
  cases lastWord (Update.text? u.id "name") us <;> rfl

/-- One update changes the records under its id. -/
theorem Group.updated_single (m : Update) (g : Group) :
    g.updated [m] =
      if g.id = m.id then (Panel.Patch.ofProperties m.properties).group g else g := by
  simp only [updated, lastWord_cons, lastWord_nil, Option.none_or, Update.text?]
  split
  · next heq => rw [if_pos heq.symm]; rfl
  · next hne => rw [if_neg (Ne.symm hne)]; rfl

theorem User.updated_single (m : Update) (u : User) :
    u.updated [m] =
      if u.id = m.id then (Panel.Patch.ofProperties m.properties).user u else u := by
  simp only [updated, lastWord_cons, lastWord_nil, Option.none_or, Update.text?]
  split
  · next heq => rw [if_pos heq.symm]; rfl
  · next hne => rw [if_neg (Ne.symm hne)]; rfl

/-- Updates of other entities make no difference to a record. -/
theorem Group.updated_congr {us vs : List Update} (h : Interleaved Update.id us vs) :
    Group.updated us = Group.updated vs := by
  funext g
  have hname : lastWord (Update.text? g.id "name") us = lastWord (Update.text? g.id "name") vs :=
    h.lastWord_eq fun _ hm => if_neg hm
  rw [updated, updated, hname]

theorem User.updated_congr {us vs : List Update} (h : Interleaved Update.id us vs) :
    User.updated us = User.updated vs := by
  funext u
  have hlast : ∀ name,
      lastWord (Update.text? u.id name) us = lastWord (Update.text? u.id name) vs :=
    fun name => h.lastWord_eq fun _ hm => if_neg hm
  rw [updated, updated, hlast, hlast]

namespace Panel

variable {p q : Panel}

/-- On `EntityUpdated`, `update` patches the cached records of that id, wherever they are, and no
others. -/
theorem lists_react (h : p.ListsApart) (m : Update) :
    let q := (p.react m.message).1
    q.groups = p.groups.map (Group.updated [m]) ∧ q.users = p.users.map (User.updated [m]) ∧
      q.members = p.members.map (List.map (User.updated [m])) := by
  have hgroup := funext (Group.updated_single m)
  have huser := funext (User.updated_single m)
  rw [hgroup, huser]
  exact lists_entityUpdated h m.id m.properties

/-- After any `EntityUpdated`, every cached record has the names that were said last of its id. -/
theorem lists_reactAll (h : p.ListsApart) (us : List Update) :
    let q := (p.reactAll (us.map Update.message)).1
    q.groups = p.groups.map (Group.updated us) ∧ q.users = p.users.map (User.updated us) ∧
      q.members = p.members.map (List.map (User.updated us)) := by
  -- The ids stay distinct on the way, which is what one update needs to reach every record.
  induction us generalizing p with
  | nil =>
    have husers : List.map (User.updated []) = id := by
      funext l
      exact List.map_id'' (fun _ => rfl) l
    rw [husers, Table.map_id]
    exact ⟨(List.map_id'' (fun _ => rfl) _).symm, rfl, rfl⟩
  | cons m rest ih =>
    have hgroup : Group.updated (m :: rest) = Group.updated rest ∘ Group.updated [m] :=
      funext (Group.updated_cons m rest)
    have huser : User.updated (m :: rest) = User.updated rest ∘ User.updated [m] :=
      funext (User.updated_cons m rest)
    obtain ⟨hgroups, husers, hmembers⟩ := lists_react h m
    have hrest := ih (apart_react h trivial : (p.react m.message).1.ListsApart)
    rw [hgroups, husers, hmembers] at hrest
    rw [hgroup, huser, ← List.map_map, ← List.map_map, ← List.map_comp_map, ← Table.map_map]
    exact hrest

theorem membersOf_eq_map {f : User → User} (h : q.members = p.members.map (List.map f))
    (groupId : String) : q.membersOf groupId = (p.membersOf groupId).map f := by
  rw [membersOf, h, Table.find?_map, membersOf]
  cases p.members.find? groupId <;> rfl

/-- For a panel whose lists have distinct ids and any updates `us`, `update` on the `EntityUpdated`
of all of them gives every cached record of an id the `name` and `realName` that `us` says last for
that id as texts, if any. Ids, their order and the keys of `members` stay, and any `vs` with the
same updates of each id in the same order ends with the same records. -/
theorem updates_reactAll (h : p.ListsApart) (us : List Update) :
    let q := (p.reactAll (us.map Update.message)).1
    (q.groups = p.groups.map (Group.updated us) ∧ q.users = p.users.map (User.updated us) ∧
      q.members = p.members.map (List.map (User.updated us))) ∧
    (q.groups.map (·.id) = p.groups.map (·.id) ∧ q.users.map (·.id) = p.users.map (·.id) ∧
      q.members.keys = p.members.keys ∧
      ∀ groupId, (q.membersOf groupId).map (·.id) = (p.membersOf groupId).map (·.id)) ∧
    ∀ vs, Interleaved Update.id us vs →
      let q' := (p.reactAll (vs.map Update.message)).1
      q'.groups = q.groups ∧ q'.users = q.users ∧ q'.members = q.members := by
  intro q
  obtain ⟨hgroups, husers, hmembers⟩ := lists_reactAll h us
  refine ⟨⟨hgroups, husers, hmembers⟩, ⟨?_, ?_, ?_, fun groupId => ?_⟩, fun vs hvs => ?_⟩
  · rw [hgroups, List.map_map]
    rfl
  · rw [husers, List.map_map]
    rfl
  · rw [hmembers, Table.keys_map]
  · rw [membersOf_eq_map hmembers, List.map_map]
    rfl
  · obtain ⟨hgroups', husers', hmembers'⟩ := lists_reactAll h vs
    rw [← Group.updated_congr hvs, ← hgroups] at hgroups'
    rw [← User.updated_congr hvs] at husers' hmembers'
    exact ⟨hgroups', husers'.trans husers.symm, hmembers'.trans hmembers.symm⟩

/-- Jane gets a name, then something that is no name, and then a real name; in between her group
gets another name. -/
theorem updates_reactAll_renamed :
    let jane : User := ⟨"7", "jane", none⟩
    let p : Panel := { fresh { ahead := [] } with
      groups := [⟨"1", "Staff"⟩]
      users := [jane]
      members := (∅ : Table (List User)).insert "1" [jane] }
    let said (id name : String) (v : Value) : Update := ⟨id, (∅ : Properties).insert name v⟩
    let after := [said "7" "name" .null, said "7" "realName" (.string "Joan")]
    let us := said "7" "name" (.string "joan") :: said "1" "name" (.string "Board") :: after
    let vs := said "1" "name" (.string "Board") :: said "7" "name" (.string "joan") :: after
    let q := (p.reactAll (us.map Update.message)).1
    p.ListsApart ∧ q.groups = [⟨"1", "Board"⟩] ∧ q.users = [⟨"7", "joan", some "Joan"⟩] ∧
      q.membersOf "1" = [⟨"7", "joan", some "Joan"⟩] ∧
      (p.reactAll (vs.map Update.message)).1.groups = q.groups := by
  intro jane p said after us vs q
  have hempty : Apart p.groups p.users ∅ := ⟨by decide, by decide, fun _ _ hfind => by cases hfind⟩
  have hp : p.ListsApart := hempty.insert "1" (by decide)
  obtain ⟨⟨hgroups, husers, hmembers⟩, -, hmixed⟩ := updates_reactAll hp us
  have hvs : Interleaved Update.id us vs := Interleaved.swap (by decide) [] after
  refine ⟨hp, hgroups.trans ?_, husers.trans ?_, (membersOf_eq_map hmembers "1").trans ?_,
    (hmixed vs hvs).1⟩
  · decide
  · decide
  · decide

end Panel

end RosterPanel
