import RosterPanel.Proofs.Reconnecting

/-!
# What is cached and what is latched

What a panel shows comes from the backend, and what it has latched comes from its own requests and
their outcomes. Neither depends on the other, over runs of any length. Results:

* `Panel.latches_react`, `Panel.editor_react`: the latches after a message depend on the message and
  the latches before alone, and so does the property panel on itself.
* `Panel.Autonomous.reactAll_filter`: a part of a panel that takes care of itself is the same after
  a run and after those of its messages alone that concern it.
* `Panel.reactAll_separated`: requests and failures leave no trace in what `update` has cached, and
  `ControlGuard` sees only requests, their outcomes and the loss of a connection.
-/

namespace RosterPanel

/-! ## Messages -/

namespace Message

/-- Whether a message asks the backend for a change, or tells that it refused one. -/
def isAttempt : Message → Bool
  | .requestCreateGroup | .requestCreateUser | .requestDelete _ | .assignUser _ _ | .removeUser _ _
  | .updateProperty _ _ _ | .commandFailed _ _ _ => true
  | _ => false

/-- Whether a message can latch a control or release one. -/
def concernsLatches : Message → Bool
  | .requestCreateGroup | .requestCreateUser | .requestDelete _ | .entityCreated _ _
  | .entityDeleted _ | .commandFailed _ _ _ | .connectionLost => true
  | _ => false

theorem silent_of_isAttempt {m : Message} (h : m.isAttempt = true) : m.Silent := by
  cases m <;> first | exact trivial | cases h

/-- The latches after a message. What the message says of an entity counts only as far as it tells
which control was waiting. -/
def onLatches (l : Latches) : Message → Latches
  | .connectionLost => ∅
  | .requestCreateGroup => (l.arm .addGroup .create).2
  | .requestCreateUser => (l.arm .addUser .create).2
  | .requestDelete e => (l.arm (.delete e.ref) .delete).2
  | .entityCreated e callback =>
    match Panel.creator? e callback with
    | some c => (l.releaseControl c).2
    | none => l
  | .entityDeleted id => (l.releaseDeletion id).2
  | .commandFailed v _ _ => (l.releaseVerb v).2
  | _ => l

theorem onLatches_eq_self {m : Message} (h : m.concernsLatches = false) (l : Latches) :
    m.onLatches l = l := by
  cases m <;> first | rfl | cases h

end Message

namespace Editor

/-- The property panel with other properties, if it is open for an id. -/
def shown (id : String) (change : Option Properties → Properties) (editor : Option Editor) :
    Option Editor :=
  editor.map fun e =>
    if e.target.entity.id = id then { e with properties := some (change e.properties) } else e

end Editor

namespace Message

/-- The property panel after a message. -/
def onEditor (editor : Option Editor) : Message → Option Editor
  | .entityDeleted id => if editor.any (·.target.entity.id == id) then none else editor
  | .editProperties target =>
    if editor.any (·.target == target) then none else some { target }
  | .propertiesLoaded id properties => Editor.shown id (fun _ => properties) editor
  | .entityUpdated id properties =>
    Editor.shown id (fun old => (old.getD ∅).insertAll properties.entries) editor
  | _ => editor

theorem onEditor_eq_self {m : Message} (h : m.isAttempt = true) (editor : Option Editor) :
    m.onEditor editor = editor := by
  cases m <;> first | rfl | cases h

end Message

/-! ## Reactions -/

namespace Panel

variable {p : Panel}

theorem latches_latchedSend (p : Panel) (c : Control) (r : Request) :
    (p.latchedSend c r).1.latches = (p.latches.arm c r.verb).2 := by
  by_cases hc : p.latches.isLatched c = true
  · simp only [latchedSend, Latches.arm, if_pos hc]
  · simp only [latchedSend, Latches.arm, if_neg hc]

theorem latches_entityCreated (p : Panel) (e : Entity) (callback : Option String) :
    (p.entityCreated e callback).1.latches =
      match creator? e callback with
      | some c => (p.latches.releaseControl c).2
      | none => p.latches := by
  simp only [entityCreated, (adopt_quiet _ e).1]
  cases creator? e callback <;> rfl

/-- After `update` on a message, `guard` depends on the message and `guard` before alone. -/
theorem latches_react (p : Panel) (m : Message) :
    (p.react m).1.latches = m.onLatches p.latches := by
  cases m with
  | requestCreateGroup => exact latches_latchedSend { p with words := _ } _ _
  | requestCreateUser => exact latches_latchedSend { p with words := _ } _ _
  | requestDelete e => exact latches_latchedSend p _ _
  | entityCreated e callback => exact latches_entityCreated p e callback
  | entityDeleted id => exact (forget_quiet { p with latches := _ } id).1
  | propertiesLoaded id properties => exact (latches_showProperties p id _).1
  | entityUpdated id properties => exact (entityUpdated_quiet p id properties).1
  | entitiesListed kind entities => cases kind <;> rfl
  | membersListed groupId users =>
    simp only [react, membersListed]
    split <;> rfl
  | memberAdded userId groupId =>
    simp only [react, memberAdded]
    split
    · rfl
    · split <;> rfl
  | memberRemoved userId groupId =>
    simp only [react, memberRemoved]
    split <;> rfl
  | editProperties target =>
    simp only [react, editProperties]
    split <;> rfl
  | connectionOpened | connectionLost | refreshGroups | refreshUsers | refreshGroup | assignUser
  | removeUser | updateProperty | commandFailed => rfl

theorem editor_latchedSend (p : Panel) (c : Control) (r : Request) :
    (p.latchedSend c r).1.editor = p.editor := by
  unfold latchedSend
  split <;> rfl

theorem editor_adopt (p : Panel) (e : Entity) : (p.adopt e).1.editor = p.editor := by
  cases e <;> simp only [adopt] <;> split <;> rfl

theorem editor_showProperties (p : Panel) (id : String)
    (change : Option Properties → Properties) :
    (p.showProperties id change).1.editor = Editor.shown id change p.editor := by
  unfold showProperties Editor.shown
  split
  · next hnone => rw [hnone]; rfl
  · next e he =>
    rw [he, Option.map_some]
    split
    · rfl
    · exact he

theorem editor_editProperties (p : Panel) (target : Target) :
    (p.editProperties target).1.editor =
      if p.editor.any (·.target == target) then none else some { target } := by
  unfold editProperties
  split <;> rfl

/-- After `update` on a message, the property panel depends on the message and the property panel
before alone. -/
theorem editor_react (p : Panel) (m : Message) : (p.react m).1.editor = m.onEditor p.editor := by
  cases m with
  | requestCreateGroup => exact editor_latchedSend { p with words := _ } _ _
  | requestCreateUser => exact editor_latchedSend { p with words := _ } _ _
  | requestDelete e => exact editor_latchedSend p _ _
  | entityCreated e callback => exact editor_adopt { p with latches := _ } e
  | editProperties target => exact editor_editProperties p target
  | propertiesLoaded id properties => exact editor_showProperties p id _
  | entityUpdated id properties =>
    unfold react entityUpdated
    exact editor_showProperties _ id _
  | entitiesListed kind entities => cases kind <;> rfl
  | membersListed groupId users =>
    simp only [react, membersListed]
    split <;> rfl
  | memberAdded userId groupId =>
    simp only [react, memberAdded]
    split
    · rfl
    · split <;> rfl
  | memberRemoved userId groupId =>
    simp only [react, memberRemoved]
    split <;> rfl
  | connectionOpened | connectionLost | refreshGroups | refreshUsers | refreshGroup | assignUser
  | removeUser | entityDeleted | updateProperty | commandFailed => rfl

/-! ## Runs -/

/-- A part of a panel that takes care of itself: what a message makes of it depends on the part
before alone, and only the messages that concern it change it. -/
structure Autonomous {α : Type} (part : Panel → α) (concerns : Message → Bool) : Prop where
  congr : ∀ {p q : Panel} (m : Message), part p = part q →
    part (p.react m).1 = part (q.react m).1
  keeps : ∀ (p : Panel) {m : Message}, concerns m = false → part (p.react m).1 = part p

namespace Autonomous

variable {α : Type} {part : Panel → α} {concerns : Message → Bool}

/-- A part that each message changes by a function of its own. -/
theorem of_action {action : α → Message → α}
    (hreact : ∀ (p : Panel) m, part (p.react m).1 = action (part p) m)
    (hkeeps : ∀ m, concerns m = false → ∀ a, action a m = a) : Autonomous part concerns where
  congr m h := by rw [hreact, hreact, h]
  keeps p m hm := by rw [hreact, hkeeps m hm]

/-- The messages that do not concern a part can be left out of a run. -/
theorem reactAll_filter (h : Autonomous part concerns) (ms : List Message) {p q : Panel}
    (hpart : part p = part q) :
    part (p.reactAll ms).1 = part (q.reactAll (ms.filter concerns)).1 := by
  induction ms generalizing p q with
  | nil => exact hpart
  | cons m rest ih =>
    by_cases hm : concerns m = true
    · rw [List.filter_cons_of_pos hm]
      exact ih (h.congr m hpart)
    · rw [List.filter_cons_of_neg hm]
      exact ih ((h.keeps p (Bool.eq_false_iff.2 hm)).trans hpart)

end Autonomous

theorem autonomous_known : Autonomous known (fun m => !m.isAttempt) where
  congr m h := known_react_congr h m
  keeps p _ hm := known_react_of_silent (Message.silent_of_isAttempt (by simpa using hm)) p

theorem autonomous_editor : Autonomous editor (fun m => !m.isAttempt) :=
  .of_action editor_react fun _ hm => Message.onEditor_eq_self (by simpa using hm)

theorem autonomous_latches : Autonomous latches Message.concernsLatches :=
  .of_action latches_react fun _ => Message.onLatches_eq_self

/-- For every panel `p` and all messages `ms`: without those with `isAttempt` (requests and
`CommandFailed`) `update` ends with the same `known` lists and property panel, and with only those
that have `concernsLatches` it ends with the same `ControlGuard`. -/
theorem reactAll_separated (p : Panel) (ms : List Message) :
    (let attempted := (p.reactAll ms).1
      let untried := (p.reactAll (ms.filter fun m => !m.isAttempt)).1
      attempted.known = untried.known ∧ attempted.editor = untried.editor) ∧
      (p.reactAll ms).1.latches = (p.reactAll (ms.filter Message.concernsLatches)).1.latches :=
  ⟨⟨autonomous_known.reactAll_filter ms rfl, autonomous_editor.reactAll_filter ms rfl⟩,
    autonomous_latches.reactAll_filter ms rfl⟩

end Panel

end RosterPanel
