import RosterPanel.Proofs.DistinctIds
import RosterPanel.Proofs.Recording

/-!
# What a panel knows after reconnecting

A panel asks for everything anew when a connection opens. What it knows from then on depends on the
messages that follow and on nothing from before: neither on what was known, nor on what else there
is in a panel, nor on which requests can be sent. Results:

* `Known`, `Panel.known`: what a panel has been told.
* `Panel.known_react_congr`: what is known after a message depends on what was known before alone.
* `known_dispatch_congr`, `known_dispatchAll_congr`: the same of messages that are handled to their
  end, by whatever host.
* `known_connectionOpened`: what is known when a connection has been opened.
* `Panel.known_reconnected`: two panels, different as they may be, know the same from
  `ConnectionOpened` on.
-/

namespace RosterPanel

variable {ω ω' : Type}

/-! ## What is known -/

/-- What a panel has been told by the backend and of the connection. The latches, the property panel
and the source of random words are no part of it. -/
structure Known where
  groups : List Group
  users : List User
  members : Table (List User)
  groupsListed : Bool
  usersListed : Bool
  connected : Bool

/-- What is known when a connection has just been opened. -/
def Known.opened : Known where
  groups := []
  users := []
  members := ∅
  groupsListed := false
  usersListed := false
  connected := true

/-- Whether a message tells the panel nothing that counts as known: it is a request, a failure, or
about the property panel. -/
def Message.Silent : Message → Prop
  | .requestCreateGroup | .requestCreateUser | .requestDelete _ | .assignUser _ _ | .removeUser _ _
  | .editProperties _ | .propertiesLoaded _ _ | .updateProperty _ _ _ | .commandFailed _ _ _ => True
  | _ => False

namespace Panel

def known (p : Panel) : Known where
  groups := p.groups
  users := p.users
  members := p.members
  groupsListed := p.groupsListed
  usersListed := p.usersListed
  connected := p.connected

theorem known_latchedSend (p : Panel) (c : Control) (r : Request) :
    (p.latchedSend c r).1.known = p.known := by
  unfold latchedSend
  split <;> rfl

theorem known_editProperties (p : Panel) (target : Target) :
    (p.editProperties target).1.known = p.known := by
  unfold editProperties
  split <;> rfl

theorem known_showProperties (p : Panel) (id : String)
    (change : Option Properties → Properties) : (p.showProperties id change).1.known = p.known := by
  obtain ⟨editor, heq, -⟩ := p.showProperties_cases id change
  rw [heq]
  rfl

theorem known_requestCreate (p : Panel) (k : EntityKind) :
    (p.requestCreate k).1.known = p.known :=
  known_latchedSend { p with words := (Placeholder.create k p.words).2 } _ _

/-- Requests, failures and the property panel change nothing that is known. -/
theorem known_react_of_silent {m : Message} (hm : m.Silent) (p : Panel) :
    (p.react m).1.known = p.known := by
  cases m with
  | requestCreateGroup => exact p.known_requestCreate .group
  | requestCreateUser => exact p.known_requestCreate .user
  | requestDelete e => exact p.known_latchedSend _ _
  | editProperties target => exact p.known_editProperties target
  | propertiesLoaded id properties => exact p.known_showProperties id _
  | assignUser | removeUser | updateProperty | commandFailed => rfl
  | _ => exact hm.elim

/-- An update renames entities wherever they are listed. -/
theorem known_entityUpdated (p : Panel) (id : String) (properties : Properties) :
    (p.entityUpdated id properties).1.known =
      let patch := Patch.ofProperties properties
      { p.known with
        groups := modifyFirst (·.id == id) patch.group p.known.groups
        users := modifyFirst (·.id == id) patch.user p.known.users
        members := p.known.members.map (modifyFirst (·.id == id) patch.user) } := by
  unfold entityUpdated
  exact known_showProperties _ id _

section

variable {p q : Panel}

/-- Panels that know the same differ in latches, property panel and random words only. -/
theorem eq_with_of_known (h : p.known = q.known) :
    ∃ latches editor words, q = { p with latches, editor, words } := by
  obtain ⟨groups, users, members, groupsListed, usersListed, _, _, connected, _⟩ := p
  obtain ⟨_, _, _, _, _, latches, editor, _, words⟩ := q
  simp only [known, Known.mk.injEq] at h
  obtain ⟨rfl, rfl, rfl, rfl, rfl, rfl⟩ := h
  exact ⟨latches, editor, words, rfl⟩

theorem group?_congr (h : p.known = q.known) (id : String) : p.group? id = q.group? id :=
  congrArg (List.find? fun g : Group => g.id == id) (congrArg Known.groups h)

theorem user?_congr (h : p.known = q.known) (id : String) : p.user? id = q.user? id :=
  congrArg (List.find? fun u : User => u.id == id) (congrArg Known.users h)

theorem members_congr (h : p.known = q.known) : p.members = q.members :=
  congrArg Known.members h

theorem known_withMembers_congr (h : p.known = q.known) (members : Table (List User)) :
    known { p with members } = known { q with members } :=
  congrArg (fun k : Known => { k with members }) h

theorem known_membersListed_congr (h : p.known = q.known) (groupId : String) (users : List User) :
    (p.membersListed groupId users).1.known = (q.membersListed groupId users).1.known := by
  unfold membersListed
  rw [group?_congr h, members_congr h]
  split
  · exact known_withMembers_congr h _
  · exact h

theorem known_adopt_congr (h : p.known = q.known) (e : Entity) :
    (p.adopt e).1.known = (q.adopt e).1.known := by
  cases e with
  | group g =>
    simp only [adopt, group?_congr h]
    split
    · exact congrArg (fun k : Known => { k with groups := k.groups ++ [g] }) h
    · exact h
  | user u =>
    simp only [adopt, user?_congr h]
    split
    · exact congrArg (fun k : Known => { k with users := k.users ++ [u] }) h
    · exact h

theorem known_memberAdded_congr (h : p.known = q.known) (userId groupId : String) :
    (p.memberAdded userId groupId).1.known = (q.memberAdded userId groupId).1.known := by
  unfold memberAdded
  rw [group?_congr h, user?_congr h, membersOf, membersOf, members_congr h]
  split
  · exact h
  · split
    · exact h
    · exact known_withMembers_congr h _

theorem known_memberRemoved_congr (h : p.known = q.known) (userId groupId : String) :
    (p.memberRemoved userId groupId).1.known = (q.memberRemoved userId groupId).1.known := by
  unfold memberRemoved
  rw [members_congr h]
  split
  · exact h
  · exact known_withMembers_congr h _

/-- After `update` on a message, what is known depends on what was known before alone. -/
theorem known_react_congr (h : p.known = q.known) (m : Message) :
    (p.react m).1.known = (q.react m).1.known := by
  by_cases hm : m.Silent
  · rw [known_react_of_silent hm, known_react_of_silent hm, h]
  cases m with
  | membersListed groupId users => exact known_membersListed_congr h groupId users
  | entityCreated e callback =>
    show (adopt _ e).1.known = (adopt _ e).1.known
    refine known_adopt_congr ?_ e
    exact h
  | memberAdded userId groupId => exact known_memberAdded_congr h userId groupId
  | memberRemoved userId groupId => exact known_memberRemoved_congr h userId groupId
  | entityUpdated id properties =>
    simp only [react, known_entityUpdated, h]
  | connectionOpened | connectionLost | refreshGroups | refreshUsers | refreshGroup
  | entityDeleted =>
    obtain ⟨latches, editor, words, rfl⟩ := eq_with_of_known h
    rfl
  | entitiesListed kind entities =>
    obtain ⟨latches, editor, words, rfl⟩ := eq_with_of_known h
    cases kind <;> rfl
  | _ => exact absurd trivial hm

end

end Panel

/-! ## Handling messages -/

/-- Handling messages to their end, one after the other. -/
def dispatchAll (host : Host ω) (ms : List Message) (s : Panel × ω) : Panel × ω :=
  ms.foldl (fun s m => dispatch host m s) s

/-- A message that chains no others has changed what is known as soon as the panel has reacted. -/
theorem known_dispatch_of_ne (host : Host ω) {m : Message} (hm : m ≠ .connectionOpened)
    (s : Panel × ω) : (dispatch host m s).1.known = (s.1.react m).1.known := by
  have hsame := congrArg Panel.known (withoutLatches_dispatch_of_ne host hm s)
  exact hsame

/-- After `ConnectionOpened` all lists are empty and not listed, and `connected` holds. -/
theorem known_connectionOpened (host : Host ω) (s : Panel × ω) :
    (dispatch host .connectionOpened s).1.known = .opened := by
  have hsame := congrArg Panel.known (withoutLatches_connectionOpened host s)
  exact hsame

/-- What is known after a message does not depend on the host. -/
theorem known_dispatch_congr (host : Host ω) (host' : Host ω') {s : Panel × ω} {s' : Panel × ω'}
    (h : s.1.known = s'.1.known) (m : Message) :
    (dispatch host m s).1.known = (dispatch host' m s').1.known := by
  by_cases hm : m = .connectionOpened
  · subst hm
    rw [known_connectionOpened, known_connectionOpened]
  · rw [known_dispatch_of_ne host hm, known_dispatch_of_ne host' hm]
    exact Panel.known_react_congr h m

theorem known_dispatchAll_congr (host : Host ω) (host' : Host ω') {s : Panel × ω}
    {s' : Panel × ω'} (h : s.1.known = s'.1.known) (ms : List Message) :
    (dispatchAll host ms s).1.known = (dispatchAll host' ms s').1.known := by
  induction ms generalizing s s' with
  | nil => exact h
  | cons m rest ih => exact ih (known_dispatch_congr host host' h m)

/-- For any two panels and hosts, `dispatch_global_message` on `ConnectionOpened` and then on any
`ms` ends with the same lists, members and flags, `known`. On `ConnectionOpened` it hands `list` of
groups and `list` of users to `send_command`, in this order, and nothing else. -/
theorem Panel.known_reconnected (host : Host ω) (host' : Host ω') (s : Panel × ω) (s' : Panel × ω')
    (ms : List Message) :
    (dispatchAll host (.connectionOpened :: ms) s).1.known =
        (dispatchAll host' (.connectionOpened :: ms) s').1.known ∧
      dispatch host.recording .connectionOpened (s.1, s.2, []) =
        ((dispatch host .connectionOpened s).1, (dispatch host .connectionOpened s).2,
          [.list .group, .list .user]) := by
  constructor
  · refine known_dispatchAll_congr host host' ?_ ms
    rw [known_connectionOpened, known_connectionOpened]
  · have hsame := host.dispatch_recording .connectionOpened s.1 s.2 []
    have hrecorded := host.recorded_connectionOpened (s.1, s.2, [])
    rw [hsame]
    exact Prod.ext rfl (Prod.ext rfl hrecorded)

end RosterPanel
