import RosterPanel.Proofs.Displaying
import RosterPanel.Proofs.LatchDiscipline

/-!
# Messages and the parts of the page

A message asks for every part of the page to be drawn anew that no longer shows what the panel
knows. Results:

* `Panel.covers_react`: whatever a message changes, it asks for the part that shows it.
* `Panel.Covers.display`: once the effects have been carried out, the page shows what the panel
  knows.
* `Panel.announced_react`: `update` asks to render all that it has changed, and for
  `SetControlDisabled` of just the controls whose latch it has changed.
-/

namespace RosterPanel

namespace Panel

/-! ## Drawing what has changed -/

/-- What a message has changed of a panel is drawn anew. -/
structure Covers (p p' : Panel) (es : List Effect) : Prop where
  groups : p'.groups = p.groups ∨ .draw .groups ∈ es
  users : p'.users = p.users ∨ .draw .users ∈ es
  members : ∀ groupId, p'.membersOf groupId = p.membersOf groupId ∨
    .draw .groups ∈ es ∨ .drawMembers groupId ∈ es
  editor : p'.editor = p.editor ∨ .draw .properties ∈ es

theorem Covers.of_same {p p' : Panel} {es : List Effect} (hgroups : p'.groups = p.groups)
    (husers : p'.users = p.users) (hmembers : p'.members = p.members)
    (heditor : p'.editor = p.editor) : Covers p p' es :=
  ⟨Or.inl hgroups, Or.inl husers, fun _ => Or.inl (by rw [membersOf, hmembers, membersOf]),
    Or.inl heditor⟩

/-- Once all effects have been carried out, what has changed is shown. -/
theorem Covers.display {p p' : Panel} {es : List Effect} (h : Covers p p' es) :
    es.foldl (Display.take p') p.display = p'.display := by
  have htoward := Display.toward_take p'
  have hgroups : (es.foldl (Display.take p') p.display).shown.groups = p'.groups :=
    Display.foldl_take_of (f := (·.shown.groups)) (fun D e => (htoward D e).groups)
      (h.groups.imp Eq.symm fun hmem => ⟨_, hmem, fun _ => rfl⟩)
  have husers : (es.foldl (Display.take p') p.display).shown.users = p'.users :=
    Display.foldl_take_of (f := (·.shown.users)) (fun D e => (htoward D e).users)
      (h.users.imp Eq.symm fun hmem => ⟨_, hmem, fun _ => rfl⟩)
  have heditor : (es.foldl (Display.take p') p.display).editor = p'.editor :=
    Display.foldl_take_of (f := (·.editor)) (fun D e => (htoward D e).editor)
      (h.editor.imp Eq.symm fun hmem => ⟨_, hmem, fun _ => rfl⟩)
  have hmembers : ∀ groupId, (es.foldl (Display.take p') p.display).shown.members groupId =
      p'.membersOf groupId := by
    intro groupId
    apply Display.foldl_take_of (f := (·.shown.members groupId))
      fun D e => (htoward D e).members groupId
    rcases h.members groupId with heq | hmem | hmem
    · exact Or.inl heq.symm
    · exact Or.inr ⟨_, hmem, fun _ => rfl⟩
    · exact Or.inr ⟨_, hmem, fun _ => Function.update_self ..⟩
  generalize es.foldl (Display.take p') p.display = D at hgroups husers heditor hmembers
  obtain ⟨⟨groups, users, members⟩, editor⟩ := D
  cases hgroups
  cases husers
  cases heditor
  have hsame : members = p'.membersOf := by
    funext groupId
    exact hmembers groupId
  rw [hsame]
  rfl

/-- The members of a group are drawn anew where they have changed. -/
theorem Covers.of_members {p p' : Panel} {es : List Effect} {changed : String}
    (hgroups : p'.groups = p.groups) (husers : p'.users = p.users) (heditor : p'.editor = p.editor)
    (hmembers : ∀ g, g ≠ changed → p'.members.find? g = p.members.find? g)
    (hdraw : .drawMembers changed ∈ es) : Covers p p' es := by
  refine ⟨Or.inl hgroups, Or.inl husers, fun g => ?_, Or.inl heditor⟩
  by_cases hg : g = changed
  · subst hg
    exact Or.inr (Or.inr hdraw)
  · rw [membersOf, hmembers g hg, membersOf]
    exact Or.inl rfl

theorem covers_insertMembers (p : Panel) (groupId : String) (known : List User) :
    Covers p { p with members := p.members.insert groupId known } [.drawMembers groupId] := by
  refine .of_members rfl rfl rfl (fun g hg => ?_) List.mem_cons_self
  rw [Table.find?_insert, if_neg (Ne.symm hg)]

/-- Groups without a member that passes are not among those with one. -/
theorem any_membersOf_eq_false {p : Panel} {q : User → Bool} {groupId : String}
    (h : groupId ∉ p.groupsWith q) : (p.membersOf groupId).any q = false := by
  refine Bool.eq_false_iff.2 fun hany => h ?_
  exact mem_groupsWith.2 (List.any_eq_true.1 hany)

/-- The members of groups without one that passes stay as they are when those that pass change. -/
theorem membersOf_map {p : Panel} {q : User → Bool} {f : List User → List User}
    (hf : ∀ known, known.any q = false → f known = known) {groupId : String}
    (h : groupId ∉ p.groupsWith q) :
    ((p.members.map f).find? groupId).getD [] = p.membersOf groupId := by
  have hany := any_membersOf_eq_false h
  rw [Table.find?_map]
  unfold membersOf at hany ⊢
  cases hfind : p.members.find? groupId with
  | none => rfl
  | some known =>
    rw [hfind] at hany
    exact hf known hany

theorem covers_adopt (p : Panel) (e : Entity) : Covers p (p.adopt e).1 (p.adopt e).2 := by
  have hsame : ∀ e : Entity, (p.adopt e).1.members = p.members ∧
      (p.adopt e).1.editor = p.editor := by
    intro e
    cases e <;> simp only [adopt] <;> split <;> exact ⟨rfl, rfl⟩
  obtain ⟨hmembers, heditor⟩ := hsame e
  have hmembersOf : ∀ g, (p.adopt e).1.membersOf g = p.membersOf g := by
    intro g
    rw [membersOf, hmembers, membersOf]
  cases e with
  | group g =>
    refine ⟨Or.inr List.mem_cons_self, Or.inl ?_, fun g => Or.inl (hmembersOf g), Or.inl heditor⟩
    simp only [adopt]
    split <;> rfl
  | user u =>
    refine ⟨Or.inl ?_, Or.inr List.mem_cons_self, fun g => Or.inl (hmembersOf g), Or.inl heditor⟩
    simp only [adopt]
    split <;> rfl

theorem covers_forget (p : Panel) (id : String) : Covers p (p.forget id).1 (p.forget id).2 := by
  have hdraw : ∀ (b : Bool) (part : Drawing), b = true →
      Effect.draw part ∈ (if b then [Effect.draw part] else []) := by
    rintro b part rfl
    exact List.mem_cons_self
  refine ⟨?_, ?_, fun g => ?_, ?_⟩
  · cases hgone : p.groups.any (·.id == id) with
    | false => exact Or.inl (filter_ne_eq_self hgone)
    | true =>
      refine Or.inr ?_
      simp only [forget, List.append_assoc]
      exact List.mem_append_left _ (hdraw _ _ hgone)
  · cases hgone : p.users.any (·.id == id) with
    | false => exact Or.inl (filter_ne_eq_self hgone)
    | true =>
      refine Or.inr ?_
      simp only [forget, List.append_assoc]
      exact List.mem_append_right _ (List.mem_append_left _ (hdraw _ _ hgone))
  · cases hgone : p.groups.any (·.id == id) with
    | true =>
      refine Or.inr (Or.inl ?_)
      simp only [forget, List.append_assoc]
      exact List.mem_append_left _ (hdraw _ _ hgone)
    | false =>
      by_cases htouched : g ∈ p.groupsWith (·.id == id)
      · refine Or.inr (Or.inr ?_)
        simp only [forget, hgone, List.append_assoc]
        refine List.mem_append_right _ (List.mem_append_right _ (List.mem_append_left _ ?_))
        exact List.mem_map_of_mem htouched
      · refine Or.inl ?_
        show (Table.find? (Table.map _ (if p.groups.any (·.id == id) then _ else _)) g).getD [] = _
        rw [if_neg (by rw [hgone]; decide)]
        exact membersOf_map (fun known hknown => filter_ne_eq_self hknown) htouched
  · cases hgone : p.editor.any (·.target.entity.id == id) with
    | false =>
      refine Or.inl ?_
      show (if p.editor.any (·.target.entity.id == id) then none else p.editor) = _
      rw [if_neg (by rw [hgone]; decide)]
    | true =>
      refine Or.inr ?_
      simp only [forget, List.append_assoc]
      refine List.mem_append_right _ (List.mem_append_right _ (List.mem_append_right _ ?_))
      exact hdraw _ _ hgone

theorem covers_showProperties (p : Panel) (id : String)
    (change : Option Properties → Properties) :
    Covers p (p.showProperties id change).1 (p.showProperties id change).2 := by
  obtain ⟨editor, heq, heditor⟩ := p.showProperties_cases id change
  rw [heq]
  exact ⟨Or.inl rfl, Or.inl rfl, fun _ => Or.inl rfl, heditor⟩

/-- Two changes, one after the other. -/
theorem Covers.trans {p p' p'' : Panel} {es es' : List Effect} (h : Covers p p' es)
    (h' : Covers p' p'' es') : Covers p p'' (es ++ es') := by
  have hjoin : ∀ {α : Type} {a b c : α} {e : Effect}, b = a ∨ e ∈ es → c = b ∨ e ∈ es' →
      c = a ∨ e ∈ es ++ es' := by
    rintro α a b c e (rfl | he) (rfl | he')
    · exact Or.inl rfl
    · exact Or.inr (List.mem_append_right _ he')
    · exact Or.inr (List.mem_append_left _ he)
    · exact Or.inr (List.mem_append_left _ he)
  refine ⟨hjoin h.groups h'.groups, hjoin h.users h'.users, fun g => ?_,
    hjoin h.editor h'.editor⟩
  rcases h.members g with heq | hmem | hmem
  · rcases h'.members g with heq' | hmem | hmem
    · exact Or.inl (heq'.trans heq)
    · exact Or.inr (Or.inl (List.mem_append_right _ hmem))
    · exact Or.inr (Or.inr (List.mem_append_right _ hmem))
  · exact Or.inr (Or.inl (List.mem_append_left _ hmem))
  · exact Or.inr (Or.inr (List.mem_append_left _ hmem))

/-- The latches may have changed before. -/
theorem Covers.of_withLatches {p p' : Panel} {l : Latches} {es : List Effect}
    (h : Covers { p with latches := l } p' es) (before : List Effect) :
    Covers p p' (before ++ es) := by
  have hsame : Covers p { p with latches := l } before := .of_same rfl rfl rfl rfl
  exact hsame.trans h

theorem covers_entityUpdated (p : Panel) (id : String) (properties : Properties) :
    Covers p (p.entityUpdated id properties).1 (p.entityUpdated id properties).2 := by
  let patch := Patch.ofProperties properties
  let renamed : Panel := { p with
    groups := modifyFirst (·.id == id) patch.group p.groups
    users := modifyFirst (·.id == id) patch.user p.users
    members := p.members.map (modifyFirst (·.id == id) patch.user) }
  have hrenamed : Covers p renamed ((if p.groups.any (·.id == id) then [.draw .groups] else []) ++
      (if p.users.any (·.id == id) then [.draw .users] else []) ++
      (p.groupsWith (·.id == id)).map .drawMembers) := by
    refine ⟨?_, ?_, fun g => ?_, Or.inl rfl⟩
    · cases htouched : p.groups.any (·.id == id) with
      | false => exact Or.inl (modifyFirst_eq_self htouched)
      | true => exact Or.inr (by simp)
    · cases htouched : p.users.any (·.id == id) with
      | false => exact Or.inl (modifyFirst_eq_self htouched)
      | true => exact Or.inr (by simp)
    · by_cases htouched : g ∈ p.groupsWith (·.id == id)
      · exact Or.inr (Or.inr (List.mem_append_right _ (List.mem_map_of_mem htouched)))
      · exact Or.inl (membersOf_map (fun known hknown => modifyFirst_eq_self hknown) htouched)
  exact hrenamed.trans (renamed.covers_showProperties id fun old =>
    (old.getD ∅).insertAll properties.entries)

/-- Every `update` asks to render each part whose data it changes. -/
theorem covers_react (p : Panel) (m : Message) : Covers p (p.react m).1 (p.react m).2 := by
  cases m with
  | connectionOpened | connectionLost | assignUser | removeUser | updateProperty
  | commandFailed => exact .of_same rfl rfl rfl rfl
  | refreshGroups =>
    exact ⟨Or.inr List.mem_cons_self, Or.inl rfl, fun _ => Or.inr (Or.inl List.mem_cons_self),
      Or.inl rfl⟩
  | refreshUsers =>
    exact ⟨Or.inl rfl, Or.inr List.mem_cons_self, fun _ => Or.inl rfl, Or.inl rfl⟩
  | refreshGroup groupId =>
    refine .of_members rfl rfl rfl (fun g hg => ?_) List.mem_cons_self
    show (p.members.erase groupId).find? g = _
    rw [Table.find?_erase, if_neg hg]
  | entitiesListed k entities =>
    cases k with
    | group =>
      exact ⟨Or.inr List.mem_cons_self, Or.inl rfl, fun _ => Or.inr (Or.inl List.mem_cons_self),
        Or.inl rfl⟩
    | user => exact ⟨Or.inl rfl, Or.inr List.mem_cons_self, fun _ => Or.inl rfl, Or.inl rfl⟩
  | membersListed groupId known =>
    simp only [react, membersListed]
    split
    · exact p.covers_insertMembers groupId known
    · exact .of_same rfl rfl rfl rfl
  | requestCreateGroup | requestCreateUser | requestDelete =>
    simp only [react, requestCreate, requestDelete, latchedSend]
    split <;> exact .of_same rfl rfl rfl rfl
  | entityCreated e callback =>
    have hadopted := fun l => covers_adopt { p with latches := l } e
    exact (hadopted _).of_withLatches _
  | entityDeleted id =>
    have hforgotten := fun l => covers_forget { p with latches := l } id
    exact (hforgotten _).of_withLatches _
  | memberAdded userId groupId =>
    simp only [react, memberAdded]
    split
    · exact .of_same rfl rfl rfl rfl
    · split
      · exact .of_same rfl rfl rfl rfl
      · exact p.covers_insertMembers groupId _
  | memberRemoved userId groupId =>
    simp only [react, memberRemoved]
    split
    · exact .of_same rfl rfl rfl rfl
    · exact p.covers_insertMembers groupId _
  | editProperties target =>
    simp only [react, editProperties]
    split
    · exact ⟨Or.inl rfl, Or.inl rfl, fun _ => Or.inl rfl, Or.inr List.mem_cons_self⟩
    · exact ⟨Or.inl rfl, Or.inl rfl, fun _ => Or.inl rfl, Or.inr (by simp)⟩
  | propertiesLoaded id properties => exact p.covers_showProperties id _
  | entityUpdated id properties => exact p.covers_entityUpdated id properties

/-- For every panel `p` that latches no control twice and every message `m`, `update` asks for
`RenderGroups`, `RenderUsers`, `RenderMembers` or `RenderProperties` wherever what these draw has
changed; for `SetControlDisabled` of a control `c` once, with what `is_disabled` is of `c` now, if
that has changed, and not at all otherwise. Again no control is latched twice. -/
theorem announced_react (p : Panel) (h : p.latches.controls.Nodup) (m : Message) :
    Covers p (p.react m).1 (p.react m).2 ∧
      (∀ c, signals c (p.react m).2 =
        if (p.react m).1.latches.isLatched c = p.latches.isLatched c then []
        else [(p.react m).1.latches.isLatched c]) ∧
      (p.react m).1.latches.controls.Nodup := by
  have hstep := p.latchStep_react m
  exact ⟨p.covers_react m, fun c => hstep.signals_eq h c, hstep.nodup h⟩

/-- The answer to the panel's own creation of a group. -/
theorem announced_react_creation :
    let p := ((fresh { ahead := [] }).react .requestCreateGroup).1
    let m : Message := .entityCreated (.group ⟨"1", "Staff"⟩) none
    p.latches.controls.Nodup ∧ .draw .groups ∈ (p.react m).2 ∧
      signals .addGroup (p.react m).2 = [false] := by
  intro p m
  have hlatched : p.latches.controls.Nodup := by decide
  obtain ⟨hcovers, hsignals, -⟩ := announced_react p hlatched m
  have hchanged : (p.react m).1.groups ≠ p.groups := by decide
  refine ⟨hlatched, hcovers.groups.resolve_left hchanged, (hsignals .addGroup).trans ?_⟩
  decide

end Panel

end RosterPanel
