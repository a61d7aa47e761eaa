import RosterPanel.Proofs.LatchRelease
import RosterPanel.Proofs.Routing

/-!
# Frames that arrive more than once

What the backend reports is sent to everybody, and the same frame may reach the panel over its
socket and through the page around it. Results:

* `Message.IsReport`: what frames other than failures report; `Frame.isReport_of_message?`.
* `Panel.known_react_twice`, `Message.onEditor_twice`: a report that has been taken says nothing
  new.
* `Panel.Settled`: a panel that has taken a report, kept when it is taken again.
* `Panel.redelivered_reactAll`: however often a report is taken again, `update` changes nothing that
  is shown and gives no notice.
-/

namespace RosterPanel

/-! ## Reports -/

/-- Whether a message reports what the backend has, or what it has done. -/
def Message.IsReport : Message → Prop
  | .entitiesListed _ _ | .membersListed _ _ | .entityCreated _ _ | .entityDeleted _
  | .memberAdded _ _ | .memberRemoved _ _ | .propertiesLoaded _ _ | .entityUpdated _ _ => True
  | _ => False

/-- What a frame reports, unless it is a failure. -/
theorem Frame.isReport_of_message? {f : Frame} {m : Message} (hf : f.isError = false)
    (hm : f.message? = some m) : m.IsReport := by
  cases Frame.means_of_message? hm with
  | @failed code hcode hle =>
    have herror : f.errorCode? = some code := errorCode?_eq_some_iff.2 ⟨hcode, hle⟩
    rw [isError, herror] at hf
    cases hf
  | _ => trivial

/-! ## Lists and tables -/

namespace Table

variable {α : Type}

theorem insert_insert (t : Table α) (key : String) (value : α) :
    (t.insert key value).insert key value = t.insert key value := by
  refine ext_find? fun k => ?_
  simp only [find?_insert]
  split <;> rfl

theorem filter_filter_self (t : Table α) (q : String → Bool) :
    (t.filter q).filter q = t.filter q := by
  refine ext_find? fun k => ?_
  simp only [find?_filter]
  split <;> rfl

/-- Entries that are put in again are there already. -/
theorem insertAll_insertAll (t : Table α) {l : List (String × α)} (hl : (l.map (·.1)).Nodup) :
    (t.insertAll l).insertAll l = t.insertAll l := by
  refine ext_find? fun k => ?_
  rw [find?_insertAll _ hl, find?_insertAll _ hl]
  cases l.lookup k <;> rfl

end Table

namespace Panel

/-- An element that has been changed is changed to itself when it still passes. -/
theorem modifyFirst_modifyFirst {α : Type} {q : α → Bool} {f : α → α}
    (hq : ∀ a, q a = true → q (f a) = true) (hf : ∀ a, f (f a) = f a) (l : List α) :
    modifyFirst q f (modifyFirst q f l) = modifyFirst q f l := by
  induction l with
  | nil => rfl
  | cons a rest ih =>
    by_cases ha : q a = true
    · simp only [modifyFirst, if_pos ha, if_pos (hq a ha), hf]
    · simp only [modifyFirst, if_neg ha, ih]

namespace Patch

variable (patch : Patch)

theorem group_group (g : Group) : patch.group (patch.group g) = patch.group g := by
  cases h : patch.name <;> simp [group, h]

theorem user_user (u : User) : patch.user (patch.user u) = patch.user u := by
  cases h : patch.name <;> cases h' : patch.realName <;> simp [user, h, h']

theorem modifyFirst_group (id : String) (groups : List Group) :
    modifyFirst (·.id == id) patch.group (modifyFirst (·.id == id) patch.group groups) =
      modifyFirst (·.id == id) patch.group groups :=
  have hid : ∀ g : Group, (g.id == id) = true → ((patch.group g).id == id) = true := fun _ h => h
  modifyFirst_modifyFirst hid patch.group_group groups

theorem modifyFirst_user (id : String) (users : List User) :
    modifyFirst (·.id == id) patch.user (modifyFirst (·.id == id) patch.user users) =
      modifyFirst (·.id == id) patch.user users :=
  have hid : ∀ u : User, (u.id == id) = true → ((patch.user u).id == id) = true := fun _ h => h
  modifyFirst_modifyFirst hid patch.user_user users

end Patch

/-! ## Taking a report twice -/

variable {p : Panel}

theorem known_membersListed_twice (p : Panel) (groupId : String) (users : List User) :
    ((p.membersListed groupId users).1.membersListed groupId users).1.known =
      (p.membersListed groupId users).1.known := by
  by_cases hg : (p.group? groupId).isSome = true
  · have hlisted : p.membersListed groupId users =
        ({ p with members := p.members.insert groupId users }, [.drawMembers groupId]) := if_pos hg
    have hstill : (Panel.group? { p with members := p.members.insert groupId users }
        groupId).isSome = true := hg
    rw [hlisted, membersListed, if_pos hstill, known, known, Table.insert_insert]
  · have hpassed : p.membersListed groupId users = (p, []) := if_neg hg
    rw [hpassed, hpassed]

/-- What has been adopted is there already. -/
theorem known_adopt_twice (p : Panel) (e : Entity) :
    ((p.adopt e).1.adopt e).1.known = (p.adopt e).1.known := by
  cases e with
  | group g =>
    have hthere : ¬ ((p.adopt (.group g)).1.group? g.id).isNone = true := by
      simp only [adopt]
      split
      · simp [group?, List.find?_append]
      · assumption
    generalize (p.adopt (.group g)).1 = q at hthere
    rw [adopt, if_neg hthere]
  | user u =>
    have hthere : ¬ ((p.adopt (.user u)).1.user? u.id).isNone = true := by
      simp only [adopt]
      split
      · simp [user?, List.find?_append]
      · assumption
    generalize (p.adopt (.user u)).1 = q at hthere
    rw [adopt, if_neg hthere]

/-- What has been forgotten is gone, its members under its own id included. -/
theorem known_forget_twice (p : Panel) (id : String) :
    ((p.forget id).1.forget id).1.known = (p.forget id).1.known := by
  have hgone : (p.forget id).1.groups.any (·.id == id) = false := by
    refine List.any_eq_false.2 fun g hg => ?_
    simpa using (List.mem_filter.1 hg).2
  have hmembers : (p.forget id).1.members.map (fun known => known.filter (·.id != id)) =
      (p.forget id).1.members := by
    show Table.map _ (Table.map _ _) = Table.map _ _
    rw [Table.map_map]
    refine Table.map_congr fun _ known _ => ?_
    simp
  have hgroups : (p.forget id).1.groups.filter (·.id != id) = (p.forget id).1.groups := by
    show List.filter _ (List.filter _ _) = List.filter _ _
    simp
  have husers : (p.forget id).1.users.filter (·.id != id) = (p.forget id).1.users := by
    show List.filter _ (List.filter _ _) = List.filter _ _
    simp
  generalize (p.forget id).1 = q at hgone hmembers hgroups husers
  simp only [forget, known, hgone, Bool.false_eq_true, if_false, hmembers, hgroups, husers]

/-- A user who has been added to a group is there, or still is not known. -/
theorem known_memberAdded_twice (p : Panel) (userId groupId : String) :
    ((p.memberAdded userId groupId).1.memberAdded userId groupId).1.known =
      (p.memberAdded userId groupId).1.known := by
  by_cases hg : (p.group? groupId).isNone = true
  · have hpassed : p.memberAdded userId groupId = (p, []) := if_pos hg
    rw [hpassed, hpassed]
  · cases hu : p.user? userId with
    | none =>
      have hasked : p.memberAdded userId groupId = (p, [.send (.listMembers groupId)]) := by
        rw [memberAdded, if_neg hg, hu]
      rw [hasked, hasked]
    | some u =>
      let joined (known : List User) := if known.any (·.id == u.id) then known else known ++ [u]
      have hadded : ∀ q : Panel, q.groups = p.groups → q.users = p.users →
          (q.memberAdded userId groupId).1 =
            { q with members := q.members.insert groupId (joined (q.membersOf groupId)) } := by
        intro q hgroups husers
        have hgroup : ¬ (q.group? groupId).isNone = true := by rwa [group?, hgroups]
        have huser : q.user? userId = some u := by rwa [user?, husers]
        rw [memberAdded, if_neg hgroup, huser]
      have hjoined : ∀ known, joined (joined known) = joined known := by
        intro known
        have hany : (joined known).any (·.id == u.id) = true := by
          simp only [joined]
          split
          · assumption
          · simp
        exact if_pos hany
      have honce := hadded p rfl rfl
      generalize (p.memberAdded userId groupId).1 = q at honce
      have htwice := hadded q (by rw [honce]) (by rw [honce])
      have hown : q.membersOf groupId = joined (p.membersOf groupId) := by
        rw [honce, membersOf, Table.find?_insert, if_pos rfl, Option.getD_some]
      rw [htwice, hown, hjoined, honce, known, known, Table.insert_insert]

theorem known_memberRemoved_twice (p : Panel) (userId groupId : String) :
    ((p.memberRemoved userId groupId).1.memberRemoved userId groupId).1.known =
      (p.memberRemoved userId groupId).1.known := by
  have hremoved : ∀ (q : Panel) (known : List User), q.members.find? groupId = some known →
      (q.memberRemoved userId groupId).1 =
        { q with members := q.members.insert groupId (known.filter (·.id != userId)) } := by
    intro q known hfind
    rw [memberRemoved, hfind]
  cases hfind : p.members.find? groupId with
  | none =>
    have hpassed : p.memberRemoved userId groupId = (p, []) := by rw [memberRemoved, hfind]
    rw [hpassed, hpassed]
  | some users =>
    have hleft := hremoved p users hfind
    have hown : (p.memberRemoved userId groupId).1.members.find? groupId =
        some (users.filter (·.id != userId)) := by
      rw [hleft, Table.find?_insert, if_pos rfl]
    rw [hremoved _ _ hown, hleft, List.filter_filter]
    simp only [Bool.and_self, known, Table.insert_insert]

theorem known_entityUpdated_twice (p : Panel) (id : String) (properties : Properties) :
    ((p.entityUpdated id properties).1.entityUpdated id properties).1.known =
      (p.entityUpdated id properties).1.known := by
  have hmembers : ∀ t : Table (List User),
      (t.map (modifyFirst (·.id == id) (Patch.ofProperties properties).user)).map
        (modifyFirst (·.id == id) (Patch.ofProperties properties).user) =
          t.map (modifyFirst (·.id == id) (Patch.ofProperties properties).user) := by
    intro t
    rw [Table.map_map]
    exact Table.map_congr fun _ known _ => Patch.modifyFirst_user _ id known
  simp only [known_entityUpdated, Patch.modifyFirst_group, Patch.modifyFirst_user, hmembers]

/-- A report that has been taken changes nothing that is known when it is taken once more. -/
theorem known_react_twice (p : Panel) {m : Message} (hm : m.IsReport) :
    ((p.react m).1.react m).1.known = (p.react m).1.known := by
  cases m with
  | entitiesListed k entities =>
    cases k with
    | group =>
      simp only [react, groupsListing, known, Table.filter_filter_self]
    | user => rfl
  | membersListed groupId users => exact p.known_membersListed_twice groupId users
  | entityCreated e callback =>
    have hadopted : ∀ q : Panel, (q.react (.entityCreated e callback)).1.known =
        (q.adopt e).1.known := fun q => known_adopt_congr (by rfl) e
    have hagain := known_adopt_congr (hadopted p) e
    rw [hadopted, hagain, known_adopt_twice, hadopted]
  | entityDeleted id =>
    have hforgotten : ∀ {q q' : Panel}, q.known = q'.known →
        (q.react (.entityDeleted id)).1.known = (q'.forget id).1.known := by
      intro q q' h
      obtain ⟨latches, editor, words, rfl⟩ := eq_with_of_known h
      rfl
    have honce := hforgotten (q := p) rfl
    rw [hforgotten honce, known_forget_twice, honce]
  | memberAdded userId groupId => exact p.known_memberAdded_twice userId groupId
  | memberRemoved userId groupId => exact p.known_memberRemoved_twice userId groupId
  | propertiesLoaded id properties => exact known_showProperties _ id _
  | entityUpdated id properties => exact p.known_entityUpdated_twice id properties
  | _ => exact hm.elim

end Panel

theorem Editor.shown_shown {id : String} {change : Option Properties → Properties}
    (h : ∀ old, change (some (change old)) = change old) (editor : Option Editor) :
    shown id change (shown id change editor) = shown id change editor := by
  cases editor with
  | none => rfl
  | some e =>
    by_cases hid : e.target.entity.id = id
    · simp only [shown, Option.map_some, if_pos hid, h]
    · simp only [shown, Option.map_some, if_neg hid]

/-- Nor does it change the property panel. -/
theorem Message.onEditor_twice {m : Message} (hm : m.IsReport) (editor : Option Editor) :
    m.onEditor (m.onEditor editor) = m.onEditor editor := by
  cases m with
  | entityDeleted id =>
    simp only [onEditor]
    split
    · rfl
    · rfl
  | propertiesLoaded id properties =>
    let loaded (_ : Option Properties) : Properties := properties
    have htwice : ∀ old, loaded (some (loaded old)) = loaded old := fun _ => rfl
    exact Editor.shown_shown htwice editor
  | entityUpdated id properties =>
    let overlay (old : Option Properties) : Properties :=
      (old.getD ∅).insertAll properties.entries
    have htwice : ∀ old, overlay (some (overlay old)) = overlay old :=
      fun old => Table.insertAll_insertAll _ properties.nodup_keys
    exact Editor.shown_shown htwice editor
  | entitiesListed | membersListed | entityCreated | memberAdded | memberRemoved => rfl
  | _ => exact hm.elim

/-! ## Taking a report any number of times -/

namespace Panel

variable {p : Panel} {m : Message}

/-- A panel that has taken a report: it would not learn anything from it, and the control that the
report may answer is free. -/
structure Settled (p : Panel) (m : Message) : Prop where
  known : (p.react m).1.known = p.known
  editor : m.onEditor p.editor = p.editor
  creator : ∀ e callback c, m = .entityCreated e callback → creator? e callback = some c →
    c ∉ p.latches.controls

theorem controls_releaseControl (l : Latches) (c : Control) :
    (l.releaseControl c).2.controls = l.controls.erase c := by
  rw [Latches.releaseControl, Latches.releaseFirst_eq, Latches.controls, Latches.controls,
    List.erase_eq_eraseP', List.eraseP_map]
  rfl

/-- The control that a creation may answer is released by it. -/
theorem controls_entityCreated {e : Entity} {callback : Option String} {c : Control}
    (h : creator? e callback = some c) (p : Panel) :
    (p.react (.entityCreated e callback)).1.latches.controls = p.latches.controls.erase c := by
  rw [latches_react, Message.onLatches, h]
  exact controls_releaseControl p.latches c

theorem settled_react (hm : m.IsReport) (h : p.latches.controls.Nodup) :
    (p.react m).1.Settled m where
  known := p.known_react_twice hm
  editor := by
    rw [editor_react]
    exact Message.onEditor_twice hm p.editor
  creator := by
    rintro e callback c rfl hc
    rw [controls_entityCreated hc]
    exact h.not_mem_erase

/-- What has been taken stays so when it is taken again. -/
theorem Settled.react (h : p.Settled m) : (p.react m).1.Settled m where
  known := known_react_congr h.known m
  editor := by
    rw [editor_react, h.editor, h.editor]
  creator := by
    rintro e callback c rfl hc hmem
    rw [controls_entityCreated hc] at hmem
    exact h.creator e callback c rfl hc (List.mem_of_mem_erase hmem)

theorem notify_notMem_showProperties (p : Panel) (id : String)
    (change : Option Properties → Properties) (kind : NoticeKind) (text : String) :
    .notify kind text ∉ (p.showProperties id change).2 := by
  unfold showProperties
  split
  · simp
  · split <;> simp

theorem notify_notMem_ite {b : Bool} {part : Drawing} {kind : NoticeKind} {text : String} :
    .notify kind text ∉ (if b then [Effect.draw part] else []) := by
  split <;> simp

/-- A notice on a report is the success of a control that waited for it. -/
theorem Settled.notify_notMem (h : p.Settled m) (hm : m.IsReport) (kind : NoticeKind)
    (text : String) : .notify kind text ∉ (p.react m).2 := by
  cases m with
  | entitiesListed k entities => cases k <;> simp [Panel.react, groupsListing, usersListing]
  | membersListed groupId users =>
    simp only [Panel.react, membersListed]
    split <;> simp
  | entityCreated e callback =>
    have hadopt : ∀ q : Panel, .notify kind text ∉ (q.adopt e).2 := by
      intro q
      cases e <;> simp [adopt]
    cases hc : creator? e callback with
    | none =>
      simp only [Panel.react, entityCreated, hc]
      exact hadopt _
    | some c =>
      have hfree := h.creator e callback c rfl hc
      have hnone : (p.latches.releaseControl c).1 = none := by
        rw [Latches.releaseControl, Latches.releaseFirst_eq, Option.map_eq_none_iff,
          List.find?_eq_none]
        intro a ha heq
        exact hfree (eq_of_beq heq ▸ List.mem_map_of_mem ha)
      simp only [Panel.react, entityCreated, hc, hnone]
      exact hadopt _
  | entityDeleted id =>
    simp only [Panel.react, entityDeleted, forget, List.mem_append, not_or]
    refine ⟨by simp, ⟨⟨notify_notMem_ite, notify_notMem_ite⟩, by simp⟩, notify_notMem_ite⟩
  | memberAdded userId groupId =>
    simp only [Panel.react, memberAdded]
    split
    · simp
    · split <;> simp
  | memberRemoved userId groupId =>
    simp only [Panel.react, memberRemoved]
    split <;> simp
  | propertiesLoaded id properties => exact p.notify_notMem_showProperties id _ kind text
  | entityUpdated id properties =>
    simp only [Panel.react, entityUpdated, List.mem_append, not_or]
    refine ⟨⟨⟨notify_notMem_ite, notify_notMem_ite⟩, by simp⟩, ?_⟩
    exact notify_notMem_showProperties _ id _ kind text
  | _ => exact hm.elim

/-- What is shown stays as it is, however often a report is taken that says nothing new. -/
theorem shown_reactAll_replicate (hknown : (p.react m).1.known = p.known)
    (heditor : m.onEditor p.editor = p.editor) (n : Nat) :
    (p.reactAll (List.replicate n m)).1.known = p.known ∧
      (p.reactAll (List.replicate n m)).1.editor = p.editor := by
  induction n generalizing p with
  | zero => exact ⟨rfl, rfl⟩
  | succ n ih =>
    have hediting := p.editor_react m
    rw [heditor] at hediting
    obtain ⟨hknown', heditor'⟩ := ih (known_react_congr hknown m) (by rw [hediting, heditor])
    exact ⟨hknown'.trans hknown, heditor'.trans hediting⟩

theorem Settled.notify_notMem_reactAll (h : p.Settled m) (hm : m.IsReport) (n : Nat)
    (kind : NoticeKind) (text : String) :
    .notify kind text ∉ (p.reactAll (List.replicate n m)).2 := by
  induction n generalizing p with
  | zero => exact List.not_mem_nil
  | succ n ih =>
    intro hmem
    rcases List.mem_append.1 hmem with hmem | hmem
    · exact h.notify_notMem hm kind text hmem
    · exact ih h.react hmem

/-- For every panel, every frame for which `is_error` is false and which `route` takes for a message
`m`, and every `n`: after `m`, `update` on `n` more times `m` leaves what is `known` and the
property panel as they are, and if no control was latched twice it gives no notice. -/
theorem redelivered_reactAll (p : Panel) {f : Frame} (hf : f.isError = false)
    (hm : f.message? = some m) (n : Nat) :
    let q := (p.react m).1
    let again := q.reactAll (List.replicate n m)
    again.1.known = q.known ∧ again.1.editor = q.editor ∧
      (p.latches.controls.Nodup → ∀ kind text, .notify kind text ∉ again.2) := by
  intro q again
  have hreport := Frame.isReport_of_message? hf hm
  have heditor : m.onEditor q.editor = q.editor := by
    rw [show q.editor = m.onEditor p.editor from p.editor_react m]
    exact Message.onEditor_twice hreport p.editor
  obtain ⟨hknown, hediting⟩ := shown_reactAll_replicate (p.known_react_twice hreport) heditor n
  exact ⟨hknown, hediting, fun h => (settled_react hreport h).notify_notMem_reactAll hreport n⟩

/-- The answer to the panel's own creation of a group is announced, and arrives two more times. -/
theorem redelivered_reactAll_creation :
    let group : Group := ⟨"1", "Staff"⟩
    let p := ((fresh { ahead := [] }).react .requestCreateGroup).1
    let f : Frame := ⟨.create, none, none, some 200, none, some (Entity.group group).json, none⟩
    let m : Message := .entityCreated (.group group) none
    let again := (p.react m).1.reactAll [m, m]
    f.isError = false ∧ f.message? = some m ∧ p.latches.controls.Nodup ∧
      .notify .success "Group 'Staff' created" ∈ (p.react m).2 ∧
      again.1.groups = [group] ∧ ∀ kind text, .notify kind text ∉ again.2 := by
  intro group p f m again
  have hm : f.message? = some m := rfl
  have hlatched : p.latches.controls.Nodup := by decide
  obtain ⟨hknown, -, hsilent⟩ := redelivered_reactAll p (f := f) rfl hm 2
  refine ⟨rfl, hm, hlatched, ?_, (congrArg Known.groups hknown).trans rfl, hsilent hlatched⟩
  exact List.mem_cons_of_mem _ List.mem_cons_self

end Panel

end RosterPanel
