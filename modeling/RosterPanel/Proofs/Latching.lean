import RosterPanel.Panel

/-!
# What a message does to the latches

A panel latches a control only together with the request that the control is for, and shows every
release. Results:

* `Latches.releaseFirst_eq`, `releaseFirst_cases`: a release takes the oldest latch that fits, or
  nothing.
* `Panel.latchStep_react`: the four ways in which a message can treat the latches, each with the
  effects that go with it.
* `LatchStep.nodup`: no control is ever latched twice.
-/

namespace RosterPanel

/-! ## Latches -/

namespace Latches

theorem takeFirst_eq {α : Type} (p : α → Bool) (l : List α) :
    takeFirst p l = (l.find? p, l.eraseP p) := by
  induction l with
  | nil => rfl
  | cons a rest ih =>
    cases ha : p a with
    | true => simp [takeFirst, ha]
    | false => simp [takeFirst, ha, ih]

/-- A release takes the oldest latch that passes, and leaves the others. -/
theorem releaseFirst_eq (l : Latches) (p : Latch → Bool) :
    l.releaseFirst p = ((l.pending.find? p).map (·.control), ⟨l.pending.eraseP p⟩) := by
  rw [releaseFirst, takeFirst_eq]

/-- A release by `take_first` leaves everything as it is, or takes out the oldest latch that
passes. -/
theorem releaseFirst_cases (l : Latches) (p : Latch → Bool) :
    (l.releaseFirst p = (none, l) ∧ ∀ a ∈ l.pending, p a = false) ∨
      ∃ before a after, l.pending = before ++ a :: after ∧ p a = true ∧
        (∀ b ∈ before, p b = false) ∧ l.releaseFirst p = (some a.control, ⟨before ++ after⟩) := by
  rw [releaseFirst_eq]
  cases hfound : l.pending.find? p with
  | none =>
    have hnone : ∀ a ∈ l.pending, ¬ p a = true := List.find?_eq_none.1 hfound
    rw [List.eraseP_of_forall_not hnone]
    exact Or.inl ⟨rfl, fun a ha => by simpa using hnone a ha⟩
  | some a =>
    obtain ⟨ha, before, after, hl, hbefore⟩ := List.find?_eq_some_iff_append.1 hfound
    have hbefore : ∀ b ∈ before, p b = false := fun b hb => by simpa using hbefore b hb
    have herase : l.pending.eraseP p = before ++ after := by
      rw [hl, List.eraseP_append_right _ fun b hb => by simp [hbefore b hb],
        List.eraseP_cons_of_pos ha]
    exact Or.inr ⟨before, a, after, hl, ha, hbefore, by rw [herase, Option.map_some]⟩

@[simp] theorem isLatched_iff {l : Latches} {c : Control} :
    l.isLatched c = true ↔ c ∈ l.controls := by
  simp [isLatched, controls]

theorem isLatched_eq_false_iff {l : Latches} {c : Control} :
    l.isLatched c = false ↔ c ∉ l.controls := by
  rw [← isLatched_iff, Bool.not_eq_true]

theorem controls_concat (l : Latches) (c : Control) (v : Verb) :
    controls ⟨l.pending ++ [⟨c, v⟩]⟩ = l.controls ++ [c] :=
  List.map_append

theorem controls_of_pending {l : Latches} {before after : List Latch} {a : Latch}
    (h : l.pending = before ++ a :: after) :
    l.controls = before.map (·.control) ++ a.control :: after.map (·.control) := by
  rw [controls, h, List.map_append, List.map_cons]

theorem nodup_concat {l : Latches} (h : l.controls.Nodup) {c : Control} (hfree : c ∉ l.controls)
    (v : Verb) : (controls ⟨l.pending ++ [⟨c, v⟩]⟩).Nodup := by
  rw [controls_concat, List.nodup_append]
  refine ⟨h, by simp, fun d hd e he => ?_⟩
  rw [List.mem_singleton.1 he]
  exact fun heq => hfree (heq ▸ hd)

/-- A latch that is taken out was the only one on its control. -/
theorem nodup_removed {l : Latches} (h : l.controls.Nodup) {before after : List Latch} {a : Latch}
    (hl : l.pending = before ++ a :: after) :
    a.control ∉ controls ⟨before ++ after⟩ ∧ (controls ⟨before ++ after⟩).Nodup := by
  have hleft : controls ⟨before ++ after⟩ = before.map (·.control) ++ after.map (·.control) :=
    List.map_append
  rw [controls_of_pending hl] at h
  rw [hleft, ← List.nodup_cons]
  exact List.perm_middle.nodup_iff.1 h

end Latches

/-! ## Requests of controls -/

/-- Whether a request is the one that a control is there to send. -/
def Control.Asks (c : Control) (r : Request) : Prop :=
  match c with
  | .addGroup => r.verb = .create ∧ r.description?.bind (·.kind) = some .group
  | .addUser => r.verb = .create ∧ r.description?.bind (·.kind) = some .user
  | .delete e =>
    r.verb = .delete ∧ r.id = some e.id ∧ r.description?.bind (·.kind) = some e.kind ∧
      r.description?.bind (·.id) = some e.id

theorem Control.Asks.verb {c : Control} {r : Request} (h : c.Asks r) :
    r.verb = .create ∨ r.verb = .delete := by
  cases c with
  | addGroup => exact Or.inl h.1
  | addUser => exact Or.inl h.1
  | delete e => exact Or.inr h.1

/-- A request belongs to one control only. -/
theorem Control.Asks.unique {c d : Control} {r : Request} (hc : c.Asks r) (hd : d.Asks r) :
    c = d := by
  cases c <;> cases d <;> simp_all [Control.Asks]
  case delete.delete e f =>
    obtain ⟨_, he⟩ := e
    obtain ⟨_, hf⟩ := f
    simp_all

theorem Placeholder.asks_create (k : EntityKind) (source : Words) :
    (match k with | .group => Control.addGroup | .user => Control.addUser).Asks
      (Placeholder.create k source).1 := by
  cases k <;> exact ⟨rfl, rfl⟩

theorem Request.asks_delete (e : Entity) : (Control.delete e.ref).Asks (Request.delete e) :=
  ⟨rfl, rfl, rfl, rfl⟩

/-! ## Effects on controls -/

/-- Whether an effect has nothing to do with latches: it shows no control as latched or free, and
sends no request that a control could wait for. -/
def Effect.Quiet : Effect → Prop
  | .draw (.control _ _) => False
  | .send r => r.verb ≠ .create ∧ r.verb ≠ .delete
  | _ => True

/-- How a message may treat the latches, and what has to be done outside in each case. -/
inductive LatchStep (l : Latches) : Latches → List Effect → Prop
  | keep {effects : List Effect} : (∀ e ∈ effects, e.Quiet) → LatchStep l l effects
  | arm {c : Control} {r : Request} : l.isLatched c = false → c.Asks r →
      LatchStep l ⟨l.pending ++ [⟨c, r.verb⟩]⟩ [.draw (.control c true), .send r]
  | release {before after : List Latch} {a : Latch} {effects : List Effect} :
      l.pending = before ++ a :: after → (∀ e ∈ effects, e.Quiet) →
      LatchStep l ⟨before ++ after⟩ (.free a.control :: effects)
  | clear {effects : List Effect} : (∀ e ∈ effects, e.Quiet) →
      LatchStep l ∅ (l.controls.map .free ++ effects)

/-- No control is latched twice if none was. -/
theorem LatchStep.nodup {l l' : Latches} {effects : List Effect} (h : LatchStep l l' effects)
    (hl : l.controls.Nodup) : l'.controls.Nodup := by
  cases h with
  | keep => exact hl
  | arm hfree _ => exact Latches.nodup_concat hl (Latches.isLatched_eq_false_iff.1 hfree) _
  | release hpending _ => exact (Latches.nodup_removed hl hpending).2
  | clear => exact List.nodup_nil

namespace Panel

/-- A release by `p` with quiet effects behind it. -/
theorem latchStep_releaseFirst (l : Latches) (p : Latch → Bool) {effects : List Effect}
    (h : ∀ e ∈ effects, e.Quiet) :
    LatchStep l (l.releaseFirst p).2
      ((l.releaseFirst p).1.toList.map .free ++ effects) := by
  rcases l.releaseFirst_cases p with ⟨heq, _⟩ | ⟨before, a, after, hl, _, _, heq⟩
  · rw [heq]
    exact .keep h
  · rw [heq]
    exact .release hl h

theorem latchStep_latchedSend (p : Panel) {c : Control} {r : Request} (h : c.Asks r) :
    LatchStep p.latches (p.latchedSend c r).1.latches (p.latchedSend c r).2 := by
  by_cases hc : p.latches.isLatched c = true
  · simp only [latchedSend, Latches.arm, hc, if_true]
    exact .keep (by simp)
  · have hc : p.latches.isLatched c = false := Bool.eq_false_iff.2 hc
    simp only [latchedSend, Latches.arm, hc, Bool.false_eq_true, if_false]
    exact .arm hc h

theorem quiet_map_drawMembers (ids : List String) :
    ∀ e ∈ ids.map Effect.drawMembers, e.Quiet := by
  intro e he
  obtain ⟨id, _, rfl⟩ := List.mem_map.1 he
  exact trivial

theorem latches_showProperties (p : Panel) (id : String)
    (change : Option Properties → Properties) :
    (p.showProperties id change).1.latches = p.latches ∧
      ∀ e ∈ (p.showProperties id change).2, e.Quiet := by
  unfold showProperties
  split
  · simp
  · split <;> simp [Effect.Quiet]

theorem latchStep_requestCreate (p : Panel) (k : EntityKind) :
    LatchStep p.latches (p.requestCreate k).1.latches (p.requestCreate k).2 :=
  latchStep_latchedSend { p with words := (Placeholder.create k p.words).2 }
    (Placeholder.asks_create k p.words)

theorem adopt_quiet (p : Panel) (e : Entity) :
    (p.adopt e).1.latches = p.latches ∧ ∀ x ∈ (p.adopt e).2, x.Quiet := by
  cases e <;> simp only [adopt] <;> split <;> simp [Effect.Quiet]

theorem latchStep_entityCreated (p : Panel) (e : Entity) (callback : Option String) :
    LatchStep p.latches (p.entityCreated e callback).1.latches (p.entityCreated e callback).2 := by
  unfold entityCreated
  cases creator? e callback with
  | none =>
    obtain ⟨hlatches, hquiet⟩ := adopt_quiet p e
    simp only [hlatches, List.nil_append]
    exact .keep hquiet
  | some c =>
    obtain ⟨hlatches, hquiet⟩ :=
      adopt_quiet { p with latches := (p.latches.releaseControl c).2 } e
    simp only [hlatches]
    rcases p.latches.releaseFirst_cases (·.control == c) with
      ⟨heq, _⟩ | ⟨before, a, after, hl, _, _, heq⟩
    · simp only [Latches.releaseControl, heq] at hquiet ⊢
      exact .keep hquiet
    · simp only [Latches.releaseControl, heq] at hquiet ⊢
      refine .release hl ?_
      intro x hx
      rcases List.mem_cons.1 hx with rfl | hx
      · exact trivial
      · exact hquiet x hx

theorem forget_quiet (p : Panel) (id : String) :
    (p.forget id).1.latches = p.latches ∧ ∀ e ∈ (p.forget id).2, e.Quiet := by
  refine ⟨rfl, ?_⟩
  intro e he
  simp only [forget, List.mem_append, List.mem_map] at he
  rcases he with ((he | he) | ⟨_, _, rfl⟩) | he
  · split at he <;> simp_all [Effect.Quiet]
  · split at he <;> simp_all [Effect.Quiet]
  · exact trivial
  · split at he <;> simp_all [Effect.Quiet]

theorem entityUpdated_quiet (p : Panel) (id : String) (properties : Properties) :
    (p.entityUpdated id properties).1.latches = p.latches ∧
      ∀ e ∈ (p.entityUpdated id properties).2, e.Quiet := by
  simp only [entityUpdated]
  refine ⟨(latches_showProperties _ id _).1, ?_⟩
  intro e he
  simp only [List.mem_append] at he
  rcases he with ((he | he) | he) | he
  · split at he <;> simp_all [Effect.Quiet]
  · split at he <;> simp_all [Effect.Quiet]
  · exact quiet_map_drawMembers _ e he
  · exact (latches_showProperties _ id _).2 e he

/-- Every `update` treats the guard in one of four ways: it leaves it, arms a control by
`guarded_send`, releases one, or releases all. -/
theorem latchStep_react (p : Panel) (m : Message) :
    LatchStep p.latches (p.react m).1.latches (p.react m).2 := by
  cases m with
  | connectionOpened => exact .keep (by simp [react, connectionOpened, Effect.Quiet])
  | connectionLost =>
    refine .clear ?_
    split <;> simp [Effect.Quiet]
  | refreshGroups =>
    exact .keep (by simp [react, refreshGroups, Effect.Quiet, Request.list])
  | refreshUsers =>
    exact .keep (by simp [react, refreshUsers, Effect.Quiet, Request.list])
  | refreshGroup groupId =>
    exact .keep (by simp [react, refreshGroup, Effect.Quiet, Request.listMembers])
  | entitiesListed k entities =>
    cases k with
    | group =>
      refine .keep fun x hx => ?_
      rcases List.mem_cons.1 hx with rfl | hx
      · exact trivial
      · obtain ⟨g, _, rfl⟩ := List.mem_map.1 hx
        simp [Effect.Quiet, Request.listMembers]
    | user => exact .keep (by simp [react, usersListing, Effect.Quiet])
  | membersListed groupId users =>
    simp only [react, membersListed]
    split <;> exact .keep (by simp [Effect.Quiet])
  | requestCreateGroup => exact latchStep_requestCreate p .group
  | requestCreateUser => exact latchStep_requestCreate p .user
  | requestDelete e => exact latchStep_latchedSend p (Request.asks_delete e)
  | entityCreated e callback => exact latchStep_entityCreated p e callback
  | entityDeleted id =>
    simp only [react, entityDeleted, (forget_quiet _ id).1]
    exact latchStep_releaseFirst p.latches _ (forget_quiet _ id).2
  | assignUser userId groupId =>
    exact .keep (by simp [react, Effect.Quiet, Request.addToGroup])
  | removeUser userId groupId =>
    exact .keep (by simp [react, Effect.Quiet, Request.removeFromGroup])
  | memberAdded userId groupId =>
    simp only [react, memberAdded]
    split
    · exact .keep (by simp)
    · split <;> exact .keep (by simp [Effect.Quiet, Request.listMembers])
  | memberRemoved userId groupId =>
    simp only [react, memberRemoved]
    split <;> exact .keep (by simp [Effect.Quiet])
  | editProperties target =>
    simp only [react, editProperties]
    split <;> exact .keep (by simp [Effect.Quiet, Request.getProperties])
  | propertiesLoaded id properties =>
    simp only [react, propertiesLoaded, (latches_showProperties p id _).1]
    exact .keep (latches_showProperties p id _).2
  | updateProperty id key value =>
    exact .keep (by simp [react, Effect.Quiet, Request.updateProperty])
  | entityUpdated id properties =>
    simp only [react, (entityUpdated_quiet p id properties).1]
    exact .keep (entityUpdated_quiet p id properties).2
  | commandFailed verb code text =>
    exact latchStep_releaseFirst p.latches _ (by simp [Effect.Quiet])

end Panel

end RosterPanel
