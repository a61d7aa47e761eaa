import Mathlib.Data.List.Induction
import RosterPanel.Proofs.LastWord
import RosterPanel.Proofs.Recording
import RosterPanel.Proofs.Separation

/-!
# What the property panel shows in the end

The property panel is opened and closed by gestures, while answers about its entity and about others
arrive at any time. Results:

* `Content`: the properties that follow from what was told about an entity: what was loaded last,
  under the updates that came later.
* `Message.content_foldl`: so it is with an open property panel along a run.
* `Panel.editor_run`: for what `EditProperties` has left the property panel open in the end, and
  what `PropertiesLoaded` and `EntityUpdated` have put into it.
-/

namespace RosterPanel

/-! ## Properties that are told -/

/-- What is told of the properties of an entity. -/
inductive Telling
  /-- These are all of them. -/
  | loaded (properties : Properties)
  /-- These have been changed. -/
  | updated (properties : Properties)

/-- A property is as the last update said that brings it, or else as it was at the start. -/
def Overlaid (start : Properties) (updates : List Properties) (properties : Properties) : Prop :=
  ∀ key, properties.find? key = (lastWord (·.find? key) updates).or (start.find? key)

theorem overlaid_nil (start : Properties) : Overlaid start [] start := fun _ => rfl

theorem Overlaid.concat {start properties : Properties} {updates : List Properties}
    (h : Overlaid start updates properties) (update : Properties) :
    Overlaid start (updates ++ [update]) (properties.insertAll update.entries) := by
  intro key
  rw [Table.find?_insertAll _ update.nodup_keys, h key, lastWord_concat, Option.or_assoc]
  rfl

/-- The properties that follow from what was told, none as long as nothing was: what was loaded
last, or no properties at all if nothing was loaded, under all later updates. -/
inductive Content : List Telling → Option Properties → Prop
  | unknown : Content [] none
  | updated {updates : List Properties} {properties : Properties} :
      updates ≠ [] → Overlaid ∅ updates properties →
      Content (updates.map .updated) (some properties)
  | loaded {before : List Telling} {start : Properties} {updates : List Properties}
      {properties : Properties} : Overlaid start updates properties →
      Content (before ++ .loaded start :: updates.map .updated) (some properties)

namespace Content

variable {told : List Telling} {known : Option Properties}

theorem eq_none_iff (h : Content told known) : known = none ↔ told = [] := by
  cases h with
  | unknown => simp
  | updated hne => simp [hne]
  | loaded => simp

theorem concat_loaded (told : List Telling) (properties : Properties) :
    Content (told ++ [.loaded properties]) (some properties) :=
  .loaded (overlaid_nil properties)

theorem concat_updated (h : Content told known) (update : Properties) :
    Content (told ++ [.updated update]) (some ((known.getD ∅).insertAll update.entries)) := by
  cases h with
  | unknown => exact .updated (List.cons_ne_nil _ _) ((overlaid_nil ∅).concat update)
  | @updated updates properties _ hover =>
    have hmore := hover.concat update
    have htold : updates.map Telling.updated ++ [.updated update] =
        (updates ++ [update]).map .updated := by simp
    rw [htold]
    exact .updated (by simp) hmore
  | @loaded before start updates properties hover =>
    have hmore := hover.concat update
    have htold : before ++ .loaded start :: updates.map Telling.updated ++ [.updated update] =
        before ++ .loaded start :: (updates ++ [update]).map .updated := by simp
    rw [htold]
    exact .loaded hmore

end Content

namespace Telling

/-- The properties that are known once something has been told. -/
def apply (known : Option Properties) : Telling → Properties
  | .loaded properties => properties
  | .updated properties => (known.getD ∅).insertAll properties.entries

theorem content_apply {told : List Telling} {known : Option Properties} (h : Content told known)
    (t : Telling) : Content (told ++ [t]) (some (t.apply known)) := by
  cases t with
  | loaded properties => exact .concat_loaded told properties
  | updated properties => exact h.concat_updated properties

end Telling

/-! ## Messages about the property panel -/

namespace Message

/-- Whether a message is the gesture that opens or closes the property panel. -/
def isToggle : Message → Bool
  | .editProperties _ => true
  | _ => false

/-- What a message tells of the properties of the entity with an id. -/
def tells? (id : String) : Message → Option Telling
  | .propertiesLoaded id' properties => if id = id' then some (.loaded properties) else none
  | .entityUpdated id' properties => if id = id' then some (.updated properties) else none
  | _ => none

variable {m : Message} {ms since : List Message} {editor : Option Editor}

/-- What a message makes of a property panel that it neither closes nor replaces. -/
theorem onEditor_some (htoggle : m.isToggle = false) {e : Editor}
    (hkept : m ≠ .entityDeleted e.target.entity.id) :
    m.onEditor (some e) = some { e with
      properties :=
        ((m.tells? e.target.entity.id).map (·.apply e.properties)).or e.properties } := by
  cases m with
  | editProperties target => cases htoggle
  | entityDeleted id =>
    have hne : ¬ e.target.entity.id = id := fun heq => hkept (heq ▸ rfl)
    simp [onEditor, tells?, hne]
  | propertiesLoaded id properties | entityUpdated id properties =>
    by_cases hid : e.target.entity.id = id
    · simp [onEditor, Editor.shown, tells?, hid, Telling.apply]
    · simp [onEditor, Editor.shown, tells?, hid]
  | _ => rfl

/-- Only the gesture opens a property panel; what else is left is open for what it was open for. -/
theorem target_onEditor (htoggle : m.isToggle = false) {e : Editor}
    (he : m.onEditor editor = some e) : ∃ e₀, editor = some e₀ ∧ e₀.target = e.target := by
  cases editor with
  | none =>
    cases m with
    | editProperties => cases htoggle
    | _ => cases he
  | some e₀ =>
    refine ⟨e₀, rfl, ?_⟩
    by_cases hdeleted : m = .entityDeleted e₀.target.entity.id
    · subst hdeleted
      simp [onEditor] at he
    · rw [onEditor_some htoggle hdeleted] at he
      rw [← Option.some.inj he]

theorem target_foldl (hsince : ∀ m ∈ since, m.isToggle = false) {e : Editor}
    (he : since.foldl onEditor editor = some e) :
    ∃ e₀, editor = some e₀ ∧ e₀.target = e.target := by
  induction since generalizing editor with
  | nil => exact ⟨e, he, rfl⟩
  | cons m rest ih =>
    obtain ⟨hm, hrest⟩ := List.forall_mem_cons.1 hsince
    obtain ⟨e₁, he₁, htarget₁⟩ := ih hrest he
    obtain ⟨e₀, he₀, htarget₀⟩ := target_onEditor hm he₁
    exact ⟨e₀, he₀, htarget₀.trans htarget₁⟩

/-- The deletion of its entity closes a property panel for good. -/
theorem foldl_of_deleted (hsince : ∀ m ∈ since, m.isToggle = false) {target : Target}
    (hdeleted : .entityDeleted target.entity.id ∈ since) {e : Editor}
    (he : since.foldl onEditor (some { target }) = some e) : False := by
  obtain ⟨before, after, rfl⟩ := List.append_of_mem hdeleted
  rw [List.foldl_append, List.foldl_cons] at he
  obtain ⟨hbefore, hafter⟩ := List.forall_mem_append.1 hsince
  obtain ⟨e₁, he₁, -⟩ := target_foldl (List.forall_mem_cons.1 hafter).2 he
  cases hopen : before.foldl onEditor (some { target }) with
  | none =>
    rw [hopen] at he₁
    cases he₁
  | some e₀ =>
    obtain ⟨_, hfirst, htarget⟩ := target_foldl hbefore hopen
    cases hfirst
    rw [hopen] at he₁
    simp [onEditor, ← htarget] at he₁

/-- A property panel that nothing closes shows what has been told about its entity since it was
opened. -/
theorem content_foldl {target : Target} (hsince : ∀ m ∈ since, m.isToggle = false)
    (hkept : .entityDeleted target.entity.id ∉ since) :
    ∃ properties, since.foldl onEditor (some { target }) = some ⟨target, properties⟩ ∧
      Content (since.filterMap (tells? target.entity.id)) properties := by
  -- The content is about what was told last, so the run is taken from its end.
  induction since using List.reverseRecOn with
  | nil => exact ⟨none, rfl, .unknown⟩
  | append_singleton before m ih =>
    obtain ⟨hbefore, hm⟩ := List.forall_mem_append.1 hsince
    rw [List.mem_append, not_or, List.mem_singleton] at hkept
    obtain ⟨properties, hopen, hcontent⟩ := ih hbefore hkept.1
    have hstep := onEditor_some (e := ⟨target, properties⟩) (hm m List.mem_cons_self)
      (Ne.symm hkept.2)
    rw [List.foldl_append, hopen, List.filterMap_append]
    refine ⟨_, hstep, ?_⟩
    cases htold : m.tells? target.entity.id with
    | none => simpa [htold] using hcontent
    | some t => simpa [htold] using Telling.content_apply hcontent t

/-- A run contains a last gesture that opens or closes the property panel, or none at all. -/
theorem exists_last_toggle (ms : List Message) :
    (∀ m ∈ ms, m.isToggle = false) ∨ ∃ before target since,
      ms = before ++ .editProperties target :: since ∧ ∀ m ∈ since, m.isToggle = false := by
  induction ms with
  | nil => exact Or.inl (List.forall_mem_nil _)
  | cons m rest ih =>
    rcases ih with hrest | ⟨before, target, since, rfl, hsince⟩
    · cases m with
      | editProperties target => exact Or.inr ⟨[], target, rest, rfl, hrest⟩
      | _ => exact Or.inl (List.forall_mem_cons.2 ⟨rfl, hrest⟩)
    · exact Or.inr ⟨m :: before, target, since, rfl, hsince⟩

end Message

/-! ## Runs -/

namespace Panel

theorem editor_reactAll (p : Panel) (ms : List Message) :
    (p.reactAll ms).1.editor = ms.foldl Message.onEditor p.editor := by
  induction ms generalizing p with
  | nil => rfl
  | cons m rest ih =>
    have hrest := ih (p.react m).1
    rw [editor_react] at hrest
    exact hrest

/-- Whether the property panel is open for a target. -/
def IsOpenFor (p : Panel) (target : Target) : Prop := ∃ e, p.editor = some e ∧ e.target = target

theorem any_target_eq_true_iff {p : Panel} {target : Target} :
    p.editor.any (·.target == target) = true ↔ p.IsOpenFor target := by
  simp [IsOpenFor, Option.any_eq_true]

/-- After a start, the last gesture for the property panel in a run has opened it for a target; what
came since has not deleted the entity. -/
structure OpenedSince (words : Words) (ms : List Message) (target : Target)
    (since : List Message) : Prop where
  asked : ∃ before, ms = before ++ .editProperties target :: since ∧
    ¬ ((fresh words).reactAll before).1.IsOpenFor target
  last : ∀ m ∈ since, m.isToggle = false
  kept : .entityDeleted target.entity.id ∉ since

variable {words : Words} {ms since : List Message} {target : Target}

theorem OpenedSince.content (h : OpenedSince words ms target since) :
    ∃ properties, ((fresh words).reactAll ms).1.editor = some ⟨target, properties⟩ ∧
      Content (since.filterMap (Message.tells? target.entity.id)) properties := by
  obtain ⟨before, rfl, hclosed⟩ := h.asked
  rw [editor_reactAll, List.foldl_append, List.foldl_cons, ← editor_reactAll, Message.onEditor,
    if_neg (any_target_eq_true_iff.not.2 hclosed)]
  exact Message.content_foldl h.last h.kept

theorem IsOpenFor.exists_openedSince (h : ((fresh words).reactAll ms).1.IsOpenFor target) :
    ∃ since, OpenedSince words ms target since := by
  obtain ⟨e, he, rfl⟩ := h
  rw [editor_reactAll] at he
  rcases Message.exists_last_toggle ms with hnone | ⟨before, target, since, rfl, hsince⟩
  · obtain ⟨_, hfresh, -⟩ := Message.target_foldl hnone he
    cases hfresh
  · rw [List.foldl_append, List.foldl_cons, ← editor_reactAll] at he
    by_cases hopen : ((fresh words).reactAll before).1.IsOpenFor target
    · rw [Message.onEditor, if_pos (any_target_eq_true_iff.2 hopen)] at he
      obtain ⟨_, hclosed, -⟩ := Message.target_foldl hsince he
      cases hclosed
    · rw [Message.onEditor, if_neg (any_target_eq_true_iff.not.2 hopen)] at he
      obtain ⟨_, hopened, htarget⟩ := Message.target_foldl hsince he
      cases hopened
      subst htarget
      refine ⟨since, ⟨before, rfl, hopen⟩, hsince, fun hdeleted => ?_⟩
      exact Message.foldl_of_deleted hsince hdeleted he

/-- What the gesture for the property panel does, and what it asks for. -/
theorem toggle_react (p : Panel) (target : Target) :
    (p.IsOpenFor target → (p.react (.editProperties target)).1.editor = none ∧
      requests (p.react (.editProperties target)).2 = []) ∧
    (¬ p.IsOpenFor target → (p.react (.editProperties target)).1.editor = some { target } ∧
      requests (p.react (.editProperties target)).2 = [.getProperties target.entity.id]) := by
  rw [editor_react, ← any_target_eq_true_iff]
  simp only [Message.onEditor, react, editProperties]
  constructor
  · intro hopen
    simp [hopen, requests, Effect.request?]
  · intro hclosed
    simp [hclosed, requests, Effect.request?]

/-- After any messages `ms` from a fresh panel on: the property panel is open for a target if and
only if the last `EditProperties` has opened it for that target and no `EntityDeleted` of the entity
came since; it then holds what the last `PropertiesLoaded` of the entity since then said, with every
later `EntityUpdated` laid over it, and nothing if there was neither; other messages leave it as it
is. `EditProperties` sends one GET when it opens the panel and nothing when it closes it. -/
theorem editor_run (words : Words) (ms : List Message) :
    let p := ((fresh words).reactAll ms).1
    (∀ target, p.IsOpenFor target ↔ ∃ since, OpenedSince words ms target since) ∧
    (∀ e since, p.editor = some e → OpenedSince words ms e.target since →
      let told := since.filterMap (Message.tells? e.target.entity.id)
      (e.properties = none ↔ told = []) ∧ Content told e.properties) ∧
    (∀ e m, p.editor = some e → m.isToggle = false → m.tells? e.target.entity.id = none →
      m ≠ .entityDeleted e.target.entity.id → (p.react m).1.editor = some e) ∧
    ∀ target,
      (p.IsOpenFor target → (p.react (.editProperties target)).1.editor = none ∧
        requests (p.react (.editProperties target)).2 = []) ∧
      (¬ p.IsOpenFor target → (p.react (.editProperties target)).1.editor = some { target } ∧
        requests (p.react (.editProperties target)).2 = [.getProperties target.entity.id]) := by
  intro p
  refine ⟨fun target => ⟨IsOpenFor.exists_openedSince, ?_⟩, ?_, ?_, p.toggle_react⟩
  · rintro ⟨since, h⟩
    obtain ⟨properties, he, -⟩ := h.content
    exact ⟨_, he, rfl⟩
  · intro e since he h
    obtain ⟨properties, he', hcontent⟩ := h.content
    obtain rfl : e.properties = properties :=
      congrArg Editor.properties (Option.some.inj (he.symm.trans he'))
    exact ⟨hcontent.eq_none_iff, hcontent⟩
  · intro e m he htoggle htold hkept
    rw [editor_react, he, Message.onEditor_some htoggle hkept, htold]
    rfl

/-- A user's properties are shown in a group, then in the list of users. What was loaded for the
first is not shown any more, nor what is loaded for somebody else. -/
theorem editor_run_retargeted :
    let words : Words := { ahead := [] }
    let target : Target := ⟨⟨"7", .user⟩, none⟩
    let red : Properties := (∅ : Properties).insert "color" (.string "red")
    let named : Properties := (∅ : Properties).insert "name" (.string "joan")
    let since : List Message := [.propertiesLoaded "8" red, .entityUpdated "7" named]
    let ms : List Message := .editProperties ⟨⟨"7", .user⟩, some "1"⟩ ::
      .propertiesLoaded "7" red :: .editProperties target :: since
    let p := ((fresh words).reactAll ms).1
    OpenedSince words ms target since ∧ p.IsOpenFor target ∧
      ∃ properties, p.editor = some ⟨target, some properties⟩ ∧
        Content [.updated named] (some properties) := by
  intro words target red named since ms p
  have hsince : OpenedSince words ms target since := by
    refine ⟨⟨[.editProperties ⟨⟨"7", .user⟩, some "1"⟩, .propertiesLoaded "7" red], rfl, ?_⟩,
      by simp [since, Message.isToggle], by simp [since]⟩
    rw [← any_target_eq_true_iff]
    decide
  obtain ⟨hopen, hcontent, -, -⟩ := editor_run words ms
  have hshown : p.IsOpenFor target := (hopen target).2 ⟨since, hsince⟩
  obtain ⟨⟨_, properties⟩, he, rfl⟩ := hshown
  obtain ⟨hnone, htold⟩ := hcontent _ since he hsince
  cases properties with
  | none => exact absurd (hnone.1 rfl) (List.cons_ne_nil _ _)
  | some properties => exact ⟨hsince, ⟨_, he, rfl⟩, properties, he, htold⟩

end Panel

end RosterPanel
