import RosterPanel.Proofs.LatchRefusal
import RosterPanel.Proofs.Separation

/-!
# What a message releases

A release takes the oldest control out that fits: by the control, by the id of a deleted entity, or
by the verb of a request that failed. Results:

* `Message.freed`: the controls that a message is to release, of those that are latched.
* `LatchStep.freed_eq`, `LatchStep.kept_eq`: what stops being latched is shown as free, oldest
  first, and what stays latched keeps its order.
* `Message.filter_onLatches`: what stops being latched, message by message.
* `Panel.releases_react`: `update` releases just these controls, in every panel that comes about,
  and gives a success notice only where `EntityCreated` has released one.
-/

namespace RosterPanel

/-! ## Taking one control out -/

section

variable {before after : List Control} {c : Control}

theorem notMem_removed (h : (before ++ c :: after).Nodup) : c ∉ before ++ after := by
  obtain ⟨-, hafter, hdisjoint⟩ := List.nodup_append.1 h
  rw [List.mem_append, not_or]
  exact ⟨fun hmem => hdisjoint c hmem c List.mem_cons_self rfl, (List.nodup_cons.1 hafter).1⟩

/-- The one that is taken out of a list without repetition is the only one that is missing then. -/
theorem filter_notMem_removed (h : (before ++ c :: after).Nodup) :
    (before ++ c :: after).filter (· ∉ before ++ after) = [c] := by
  have hnone : ∀ l ⊆ before ++ after, l.filter (· ∉ before ++ after) = [] := by
    intro l hl
    refine List.filter_eq_nil_iff.2 fun d hd => ?_
    simpa only [decide_eq_true_iff, not_not] using hl hd
  have hc := notMem_removed h
  rw [List.filter_append, List.filter_cons_of_pos (by simpa only [decide_eq_true_iff] using hc),
    hnone before (List.subset_append_left _ _), hnone after (List.subset_append_right _ _)]
  rfl

/-- The others are as they were. -/
theorem filter_mem_removed (h : (before ++ c :: after).Nodup) :
    (before ++ c :: after).filter (· ∈ before ++ after) = before ++ after := by
  have hself : ∀ l ⊆ before ++ after, l.filter (· ∈ before ++ after) = l := by
    intro l hl
    exact List.filter_eq_self.2 fun d hd => decide_eq_true (hl hd)
  have hc := notMem_removed h
  rw [List.filter_append, List.filter_cons_of_neg (by simpa only [decide_eq_true_iff] using hc),
    hself before (List.subset_append_left _ _), hself after (List.subset_append_right _ _)]

/-- The oldest control that passes is the one that is taken out by what it passes. -/
theorem filter_notMem_eraseP {l : List Control} (h : l.Nodup) (q : Control → Bool) :
    l.filter (· ∉ l.eraseP q) = (l.find? q).toList := by
  by_cases hany : ∃ d ∈ l, q d = true
  · obtain ⟨d, hd, hq⟩ := hany
    obtain ⟨c, before, after, hbefore, hc, rfl, herase⟩ := List.exists_of_eraseP hd hq
    have hfind : (before ++ c :: after).find? q = some c :=
      List.find?_eq_some_iff_append.2
        ⟨hc, before, after, rfl, fun b hb => by simpa using hbefore b hb⟩
    rw [herase, filter_notMem_removed h, hfind]
    rfl
  · have hnone : ∀ d ∈ l, ¬ q d = true := fun d hd hq => hany ⟨d, hd, hq⟩
    rw [List.eraseP_of_forall_not hnone, List.find?_eq_none.2 hnone]
    simp

end

/-! ## What is released -/

/-- The control that an effect shows as free, if it shows one so. -/
def Effect.freed? : Effect → Option Control
  | .draw (.control c false) => some c
  | _ => none

/-- Whether an effect announces success. -/
def Effect.isSuccess : Effect → Bool
  | .notify .success _ => true
  | _ => false

/-- The controls that a message is to release, oldest first, of those that are latched. -/
def Message.freed (latched : List Control) : Message → List Control
  | .connectionLost => latched
  | .entityCreated (.group _) _ => (latched.find? (· == .addGroup)).toList
  | .entityCreated (.user _) callback =>
    if callback = some "test" then (latched.find? (· == .addUser)).toList else []
  | .entityDeleted id =>
    (latched.find? fun c => c == .delete ⟨id, .group⟩ || c == .delete ⟨id, .user⟩).toList
  | .commandFailed .create _ _ =>
    (latched.find? fun c => c == .addGroup || c == .addUser).toList
  | .commandFailed .delete _ _ =>
    (latched.find? fun c => match c with | .delete _ => true | _ => false).toList
  | _ => []

/-- Whether a message is the news that an entity was created. -/
def Message.isCreation : Message → Bool
  | .entityCreated _ _ => true
  | _ => false

/-! ## Steps of the latches -/

namespace Latches

@[simp] theorem controls_empty : (∅ : Latches).controls = [] := rfl

theorem filter_eq_nil_of_subset {l l' : Latches} (h : l.controls ⊆ l'.controls) :
    l.controls.filter (· ∉ l'.controls) = [] :=
  List.filter_eq_nil_iff.2 fun c hc => by simpa only [decide_eq_true_iff, not_not] using h hc

theorem subset_arm (l : Latches) (c : Control) (v : Verb) :
    l.controls ⊆ (l.arm c v).2.controls := by
  unfold arm
  split
  · exact List.Subset.refl _
  · rw [controls_concat]
    exact List.subset_append_left _ _

end Latches

theorem filterMap_freed_of_quiet {es : List Effect} (h : ∀ e ∈ es, e.Quiet) :
    es.filterMap Effect.freed? = [] := by
  rw [List.filterMap_eq_nil_iff]
  intro e he
  have hq := h e he
  unfold Effect.freed?
  split
  · exact hq.elim
  · rfl

theorem filterMap_freed_map_free (l : List Control) :
    (l.map Effect.free).filterMap Effect.freed? = l := by
  rw [List.filterMap_map]
  exact List.filterMap_some

namespace LatchStep

variable {l l' : Latches} {effects : List Effect}

/-- What stops being latched is shown as free, oldest first, and nothing else is. -/
theorem freed_eq (h : LatchStep l l' effects) (hl : l.controls.Nodup) :
    effects.filterMap Effect.freed? = l.controls.filter (· ∉ l'.controls) := by
  symm
  cases h with
  | keep hquiet =>
    rw [filterMap_freed_of_quiet hquiet]
    exact Latches.filter_eq_nil_of_subset (List.Subset.refl _)
  | arm _ _ =>
    refine Latches.filter_eq_nil_of_subset ?_
    rw [Latches.controls_concat]
    exact List.subset_append_left _ _
  | @release before after a _ hpending hquiet =>
    have hleft : Latches.controls ⟨before ++ after⟩ = _ := List.map_append
    -- No other latch is on the same control, so that just this one is missing afterwards.
    rw [Latches.controls_of_pending hpending] at hl ⊢
    rw [hleft, filter_notMem_removed hl, List.filterMap_cons, filterMap_freed_of_quiet hquiet]
    rfl
  | clear hquiet =>
    rw [List.filterMap_append, filterMap_freed_map_free, filterMap_freed_of_quiet hquiet,
      List.append_nil]
    exact List.filter_eq_self.2 fun c _ => rfl

/-- What stays latched keeps its order. -/
theorem kept_eq (h : LatchStep l l' effects) (hl : l.controls.Nodup) :
    l'.controls.filter (· ∈ l.controls) = l.controls.filter (· ∈ l'.controls) := by
  cases h with
  | keep _ => rfl
  | @arm c _ hfree _ =>
    have hnew : c ∉ l.controls := Latches.isLatched_eq_false_iff.1 hfree
    have hold : l.controls.filter (· ∈ l.controls ++ [c]) = l.controls :=
      List.filter_eq_self.2 fun d hd => decide_eq_true (List.mem_append_left _ hd)
    rw [Latches.controls_concat, hold, List.filter_append,
      List.filter_eq_self.2 fun d => decide_eq_true,
      List.filter_cons_of_neg (by simpa only [decide_eq_true_iff] using hnew), List.filter_nil,
      List.append_nil]
  | @release before after a _ hpending _ =>
    have hleft : Latches.controls ⟨before ++ after⟩ = _ := List.map_append
    rw [Latches.controls_of_pending hpending] at hl ⊢
    rw [hleft, filter_mem_removed hl, List.filter_eq_self]
    intro d hd
    refine decide_eq_true ?_
    exact List.append_subset.2 ⟨List.subset_append_left _ _,
      fun x hx => List.mem_append_right _ (List.mem_cons_of_mem _ hx)⟩ hd
  | clear _ => exact (List.filter_eq_nil_iff.2 fun c _ => by simp).symm

end LatchStep

/-! ## Releases by message -/

/-- A control deletes by an id if it deletes the group or the user with that id. -/
theorem Control.deletes_eq (id : String) (c : Control) :
    c.deletes id = (c == .delete ⟨id, .group⟩ || c == .delete ⟨id, .user⟩) := by
  rw [Bool.eq_iff_iff, Bool.or_eq_true, beq_iff_eq, beq_iff_eq]
  cases c with
  | addGroup | addUser => simp [deletes]
  | delete r =>
    obtain ⟨id', kind⟩ := r
    cases kind <;> simp [deletes]

namespace Latches

/-- A release that looks at the controls alone. -/
theorem filter_releaseFirst {l : Latches} (h : l.controls.Nodup) {p : Latch → Bool}
    {q : Control → Bool} (hpq : ∀ a ∈ l.pending, p a = q a.control) :
    l.controls.filter (· ∉ (l.releaseFirst p).2.controls) = (l.controls.find? q).toList := by
  have hleft : (l.releaseFirst p).2.controls = l.controls.eraseP q := map_takeFirst hpq
  rw [hleft, filter_notMem_eraseP h]

/-- A release by a verb frees the oldest control that sends requests with it. -/
theorem Sorted.filter_releaseVerb {l : Latches} (hsorted : l.Sorted) (h : l.controls.Nodup)
    (v : Verb) :
    l.controls.filter (· ∉ (l.releaseVerb v).2.controls) =
      (l.controls.find? (·.verb == v)).toList :=
  filter_releaseFirst h fun a ha => by rw [hsorted a ha]

end Latches

/-- A failure frees the oldest control that sends requests with the verb. -/
theorem Message.freed_commandFailed (latched : List Control) (v : Verb) (code : Nat)
    (text : String) :
    (Message.commandFailed v code text).freed latched =
      (latched.find? (·.verb == v)).toList := by
  have hcongr : ∀ q : Control → Bool, (∀ c, q c = (c.verb == v)) →
      latched.find? q = latched.find? (·.verb == v) := fun q hq => by rw [funext hq]
  have hnone : v ≠ .create → v ≠ .delete → latched.find? (·.verb == v) = none := by
    intro hcreate hdelete
    refine List.find?_eq_none.2 fun c _ hc => ?_
    cases c with
    | addGroup | addUser => exact hcreate (eq_of_beq hc).symm
    | delete r => exact hdelete (eq_of_beq hc).symm
  cases v with
  | create => exact congrArg Option.toList (hcongr _ fun c => by cases c <;> rfl)
  | delete => exact congrArg Option.toList (hcongr _ fun c => by cases c <;> rfl)
  | list | add | remove | children | get | update | unknown =>
    rw [hnone (by decide) (by decide)]
    rfl

/-- What stops being latched, message by message. -/
theorem Message.filter_onLatches {l : Latches} (hsorted : l.Sorted) (h : l.controls.Nodup)
    (m : Message) : l.controls.filter (· ∉ (m.onLatches l).controls) = m.freed l.controls := by
  have hkeep : l.controls.filter (· ∉ l.controls) = [] :=
    Latches.filter_eq_nil_of_subset (List.Subset.refl _)
  cases m with
  | connectionLost => exact List.filter_eq_self.2 fun c _ => rfl
  | requestCreateGroup | requestCreateUser | requestDelete =>
    exact Latches.filter_eq_nil_of_subset (Latches.subset_arm l _ _)
  | entityCreated e callback =>
    cases e with
    | group g => exact Latches.filter_releaseFirst h fun _ _ => rfl
    | user u =>
      by_cases hown : callback = some "test"
      · -- The tag is the one that the panel's own request for a user bears.
        rw [hown]
        exact Latches.filter_releaseFirst h fun _ _ => rfl
      · have hnot : ¬ callback = some Placeholder.userTag := hown
        simp only [onLatches, Panel.creator?, freed, if_neg hown, if_neg hnot, hkeep]
  | entityDeleted id =>
    exact Latches.filter_releaseFirst h fun a _ => a.control.deletes_eq id
  | commandFailed v code text =>
    rw [freed_commandFailed]
    exact hsorted.filter_releaseVerb h v
  | connectionOpened | refreshGroups | refreshUsers | refreshGroup | entitiesListed | membersListed
  | assignUser | removeUser | memberAdded | memberRemoved | editProperties | propertiesLoaded
  | updateProperty | entityUpdated => exact hkeep

/-! ## Success -/

namespace Panel

variable {p : Panel}

/-- Only the news of an entity announces success. -/
theorem success_notMem_react (p : Panel) {m : Message} (hm : m.isCreation = false)
    (text : String) : .notify .success text ∉ (p.react m).2 := by
  intro h
  by_cases hopened : m = .connectionOpened
  · subst hopened
    simp [react, connectionOpened] at h
  · have hall := p.ordinary_react hopened fun e callback heq => by
      rw [heq] at hm
      cases hm
    exact Bool.false_ne_true (List.all_eq_true.1 hall _ h)

/-- The news of an entity announces success once, if it frees the control that waited for it. -/
theorem countP_isSuccess_entityCreated (p : Panel) (e : Entity) (callback : Option String) :
    (p.entityCreated e callback).2.countP Effect.isSuccess =
      ((p.entityCreated e callback).2.filterMap Effect.freed?).length := by
  have hadopt : ∀ q : Panel, (q.adopt e).2.countP Effect.isSuccess = 0 := by
    intro q
    cases e <;> rfl
  simp only [entityCreated, List.countP_append, List.filterMap_append, hadopt,
    filterMap_freed_of_quiet (adopt_quiet _ e).2]
  split <;> rfl

/-- Success is announced once for each control that the news of an entity frees, and by no other
message. -/
theorem countP_isSuccess_react (p : Panel) (m : Message) :
    (p.react m).2.countP Effect.isSuccess =
      if m.isCreation then ((p.react m).2.filterMap Effect.freed?).length else 0 := by
  cases hm : m.isCreation with
  | true =>
    cases m <;> cases hm
    exact p.countP_isSuccess_entityCreated _ _
  | false =>
    refine List.countP_eq_zero.2 fun e he => ?_
    cases e with
    | notify kind text =>
      cases kind with
      | success => exact absurd he (p.success_notMem_react hm text)
      | error => exact Bool.false_ne_true
    | chain | send | draw => exact Bool.false_ne_true

theorem Reachable.nodup (h : p.Reachable) : p.latches.controls.Nodup := by
  induction h with
  | fresh words => exact List.nodup_nil
  | react m _ ih => exact (latchStep_react _ m).nodup ih

theorem Reachable.reactAll (h : p.Reachable) (ms : List Message) : (p.reactAll ms).1.Reachable := by
  induction ms generalizing p with
  | nil => exact h
  | cons m rest ih => exact ih (h.react m)

/-- What a message releases, when these controls are the ones that it is to release. -/
structure Releases (p : Panel) (m : Message) (freed : List Control) : Prop where
  /-- The controls that stop being latched, oldest first. -/
  stopped : p.latches.controls.filter (· ∉ (p.react m).1.latches.controls) = freed
  /-- They are shown as free in that order, and no others are. -/
  shown : (p.react m).2.filterMap Effect.freed? = freed
  /-- What stays latched keeps its order. -/
  kept : (p.react m).1.latches.controls.filter (· ∈ p.latches.controls) =
    p.latches.controls.filter (· ∈ (p.react m).1.latches.controls)
  /-- Success is announced once where the news of an entity releases a control, and not else. -/
  announced : (p.react m).2.countP Effect.isSuccess = if m.isCreation then freed.length else 0

/-- For every panel `p` that comes about and every message `m`, the controls that `update` releases
are `m.freed p.latches.controls`, in this order; `SetControlDisabled` with `false` is asked for just
these, what stays latched keeps its order, and on `EntityCreated` there is one success notice for
each of them, and on no other message any. -/
theorem releases_react (h : p.Reachable) (m : Message) :
    p.Releases m (m.freed p.latches.controls) := by
  have hnodup := h.nodup
  have hstep := p.latchStep_react m
  have hstopped : p.latches.controls.filter (· ∉ (p.react m).1.latches.controls) =
      m.freed p.latches.controls := by
    rw [latches_react]
    exact m.filter_onLatches h.sorted hnodup
  have hshown : (p.react m).2.filterMap Effect.freed? = m.freed p.latches.controls :=
    (hstep.freed_eq hnodup).trans hstopped
  exact ⟨hstopped, hshown, hstep.kept_eq hnodup, hshown ▸ p.countP_isSuccess_react m⟩

/-- A failed creation releases the older one of the two controls that create, with a deletion under
way that was asked for before. -/
theorem releases_react_failure :
    let p := ((fresh { ahead := [] }).reactAll
      [.requestDelete (.user ⟨"7", "ada", none⟩), .requestCreateUser, .requestCreateGroup]).1
    let m : Message := .commandFailed .create 0 "no"
    p.Reachable ∧ p.Releases m [.addUser] ∧
      (p.react m).1.latches.controls = [.delete ⟨"7", .user⟩, .addGroup] := by
  intro p m
  have hreach : p.Reachable := (Reachable.fresh _).reactAll _
  exact ⟨hreach, releases_react hreach m, by decide⟩

end Panel

end RosterPanel
