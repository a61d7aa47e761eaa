import RosterPanel.Proofs.Slots

/-!
# Elements on the page and elements of sketches

When an element on the page shows what an element of a sketch says. Two things are left aside: the
class of a block that something is dragged over, and texts that were put into fields. Results:

* `Resembles`: the relation, with what keeps it: hovering, filling a field, and showing a control
  as latched or free.
* `Stands`: an element of the page stands for one of a sketch, which is remembered under its slot.
-/

namespace RosterPanel

open Page (Element Node)

/-- An element on the page shows what an element of a sketch says; `typed` are the numbers of the
elements that a text was put into. -/
structure Resembles (typed : List Nat) (e : Element Nat Handler)
    (s : Element (Option Slot) Handler) : Prop where
  tag : e.tag = s.tag
  attributes : ∀ name, name ≠ "class" → e.attribute? name = s.attribute? name
  classes : e.classes.filter (· != Handler.hoverClass) =
    s.classes.filter (· != Handler.hoverClass)
  value : e.mark ∉ typed → e.value = s.value
  listeners : e.listeners = s.listeners

namespace Resembles

variable {typed : List Nat} {e : Element Nat Handler} {s : Element (Option Slot) Handler}

/-- An element resembles another that bears another mark only. -/
theorem of_setMark {M : Type} (e : Element M Handler) (n : Nat) (x : Option Slot) :
    Resembles typed (e.setMark n) (e.setMark x) :=
  ⟨rfl, fun _ _ => rfl, rfl, fun _ => rfl, rfl⟩

theorem mono {typed' : List Nat} (h : Resembles typed e s) (hsub : typed ⊆ typed') :
    Resembles typed' e s :=
  ⟨h.tag, h.attributes, h.classes, fun he => h.value fun hmem => he (hsub hmem), h.listeners⟩

theorem isWord_hoverClass : Page.IsWord Handler.hoverClass :=
  Page.isWord_of_all (by decide) (by decide)

/-- Writing class names that differ in the class of hovered blocks only. -/
theorem setClasses (h : Resembles typed e s) {names : List String}
    (hnames : (e.setClasses names).classes.filter (· != Handler.hoverClass) =
      e.classes.filter (· != Handler.hoverClass)) : Resembles typed (e.setClasses names) s := by
  have hattribute : ∀ name, name ≠ "class" →
      (e.setClasses names).attribute? name = e.attribute? name :=
    fun name hname => e.attribute?_setClasses names hname
  obtain ⟨attributes, heq⟩ := e.exists_setClasses names
  rw [heq] at hnames hattribute ⊢
  exact ⟨h.tag, fun name hname => (hattribute name hname).trans (h.attributes name hname),
    hnames.trans h.classes, h.value, h.listeners⟩

theorem addHover (h : Resembles typed e s) :
    Resembles typed (e.addClass Handler.hoverClass) s := by
  refine h.setClasses ?_
  show (e.addClass Handler.hoverClass).classes.filter _ = _
  rw [e.classes_addClass isWord_hoverClass]
  split
  · rfl
  · simp

theorem removeHover (h : Resembles typed e s) :
    Resembles typed (e.removeClass Handler.hoverClass) s := by
  refine h.setClasses ?_
  show (e.removeClass Handler.hoverClass).classes.filter _ = _
  rw [e.classes_removeClass, List.filter_filter]
  simp

theorem fill (h : Resembles typed e s) (hmem : e.mark ∈ typed) (text : String) :
    Resembles typed (e.fill text) s := by
  unfold Element.fill
  split
  · exact ⟨h.tag, h.attributes, h.classes, fun he => absurd hmem he, h.listeners⟩
  · exact h

/-! ## Controls -/

/-- The class names of an element once it is shown as disabled or enabled, that of hovered blocks
left aside. -/
theorem filter_classes_setDisabled {M : Type} (e : Element M Handler) (disabled : Bool) :
    (e.setDisabled disabled).classes.filter (· != Handler.hoverClass) =
      if disabled then
        if Element.disabledClass ∈ e.classes.filter (· != Handler.hoverClass) then
          e.classes.filter (· != Handler.hoverClass)
        else e.classes.filter (· != Handler.hoverClass) ++ [Element.disabledClass]
      else (e.classes.filter (· != Handler.hoverClass)).filter (· != Element.disabledClass) := by
  have hmem : Element.disabledClass ∈ e.classes.filter (· != Handler.hoverClass) ↔
      Element.disabledClass ∈ e.classes := by
    rw [List.mem_filter]
    exact and_iff_left (by decide)
  have hkept : [Element.disabledClass].filter (· != Handler.hoverClass) =
      [Element.disabledClass] := by decide
  rw [Element.classes_setDisabled]
  cases disabled with
  | true =>
    simp only [if_true, hmem]
    split
    · rfl
    · rw [List.filter_append, hkept]
  | false =>
    simp only [Bool.false_eq_true, if_false, List.filter_filter]
    exact List.filter_congr fun w _ => Bool.and_comm _ _

section Control

variable {latched : Control → Bool} {c : Control}

theorem dress_of_control (hmark : s.mark = some (.control c)) :
    Sketch.dress latched s = if latched c then s.setDisabled true else s := by
  unfold Sketch.dress
  rw [hmark]

theorem disabled_notMem_filter (hneat : Sketch.Neat s) (hmark : s.mark = some (.control c)) :
    Element.disabledClass ∉ s.classes.filter (· != Handler.hoverClass) := by
  intro hmem
  exact hneat.classes c hmark (List.mem_filter.1 hmem).1

/-- The class names of a control in a sketch that is dressed. -/
theorem filter_classes_dress (hneat : Sketch.Neat s) (hmark : s.mark = some (.control c)) :
    (Sketch.dress latched s).classes.filter (· != Handler.hoverClass) =
      s.classes.filter (· != Handler.hoverClass) ++
        if latched c then [Element.disabledClass] else [] := by
  rw [dress_of_control hmark]
  split
  · rw [filter_classes_setDisabled, if_pos rfl, if_neg (disabled_notMem_filter hneat hmark)]
  · rw [List.append_nil]

/-- A control is shown as disabled if it is latched. -/
theorem isDisabled (h : Resembles typed e (Sketch.dress latched s)) (hneat : Sketch.Neat s)
    (hmark : s.mark = some (.control c)) : e.isDisabled = latched c := by
  have hmem : e.isDisabled = true ↔
      Element.disabledClass ∈ e.classes.filter (· != Handler.hoverClass) := by
    rw [List.mem_filter]
    exact List.contains_iff_mem.trans (and_iff_left (by decide)).symm
  have hnone := disabled_notMem_filter hneat hmark
  rw [h.classes, filter_classes_dress hneat hmark, List.mem_append] at hmem
  refine Bool.eq_iff_iff.2 (hmem.trans ?_)
  cases latched c with
  | true => simp
  | false => simpa using hnone

theorem attribute?_dress (hneat : Sketch.Neat s) (hmark : s.mark = some (.control c))
    {name : String} (hname : name ≠ "class") :
    (Sketch.dress latched s).attribute? name =
      if name = "disabled" then (if latched c then some "disabled" else none)
      else s.attribute? name := by
  rw [dress_of_control hmark]
  split
  · rw [Element.attribute?_setDisabled _ _ hname]
    rfl
  · split
    · next heq => rw [heq, hneat.disabled c hmark]
    · rfl

/-- Showing a control as latched or free. -/
theorem setDisabled {latched' : Control → Bool}
    (h : Resembles typed e (Sketch.dress latched s)) (hneat : Sketch.Neat s)
    (hmark : s.mark = some (.control c)) :
    Resembles typed (e.setDisabled (latched' c)) (Sketch.dress latched' s) := by
  have hattribute : ∀ name, name ≠ "class" →
      (e.setDisabled (latched' c)).attribute? name =
        (Sketch.dress latched' s).attribute? name := by
    intro name hname
    rw [Element.attribute?_setDisabled _ _ hname, attribute?_dress hneat hmark hname]
    split
    · rfl
    · next hne => rw [h.attributes name hname, attribute?_dress hneat hmark hname, if_neg hne]
  have hclasses : (e.setDisabled (latched' c)).classes.filter (· != Handler.hoverClass) =
      (Sketch.dress latched' s).classes.filter (· != Handler.hoverClass) := by
    have hnone := disabled_notMem_filter hneat hmark
    rw [filter_classes_setDisabled, h.classes, filter_classes_dress hneat hmark,
      filter_classes_dress hneat hmark]
    generalize s.classes.filter (· != Handler.hoverClass) = names at hnone
    have hkept : names.filter (· != Element.disabledClass) = names :=
      List.filter_eq_self.2 fun w hw => bne_iff_ne.2 fun heq => hnone (heq ▸ hw)
    cases latched' c <;> cases latched c <;> simp [hnone, hkept]
  have hsame : ∀ L : Control → Bool, (Sketch.dress L s).tag = s.tag ∧
      (Sketch.dress L s).value = s.value ∧ (Sketch.dress L s).listeners = s.listeners := by
    intro L
    rw [dress_of_control hmark]
    split
    · obtain ⟨attributes, heq⟩ := s.exists_setDisabled true
      rw [heq]
      exact ⟨rfl, rfl, rfl⟩
    · exact ⟨rfl, rfl, rfl⟩
  obtain ⟨htag, hvalue, hlisteners⟩ := hsame latched
  obtain ⟨htag', hvalue', hlisteners'⟩ := hsame latched'
  obtain ⟨attributes, heq⟩ := e.exists_setDisabled (latched' c)
  rw [heq] at hattribute hclasses ⊢
  exact ⟨h.tag.trans (htag.trans htag'.symm), hattribute, hclasses,
    fun he => (h.value he).trans (hvalue.trans hvalue'.symm),
    h.listeners.trans (hlisteners.trans hlisteners'.symm)⟩

end Control

end Resembles

/-! ## Elements that are remembered -/

/-- An element on the page stands for an element of a sketch: it shows what that says once it is
dressed, and it is what is remembered under the slot of that. -/
structure Stands (slots : SlotMap Nat) (latched : Control → Bool) (typed : List Nat)
    (e : Element Nat Handler) (s : Element (Option Slot) Handler) : Prop where
  slot : ∀ x, s.mark = some x ↔ slots.get? x = some e.mark
  neat : Sketch.Neat s
  resembles : Resembles typed e (Sketch.dress latched s)

namespace Stands

variable {slots : SlotMap Nat} {latched latched' : Control → Bool} {typed : List Nat}
  {e e' : Element Nat Handler} {s : Element (Option Slot) Handler}

theorem hasMark_eq (h : Stands slots latched typed e s) {x : Slot} {n : Nat}
    (hx : slots.get? x = some n) : Page.Document.hasMark n e = (s.mark == some x) := by
  refine Bool.eq_iff_iff.2 ?_
  rw [Page.Document.hasMark, beq_iff_eq, beq_iff_eq, h.slot x, hx, Option.some.injEq]
  exact eq_comm

theorem id_eq_none (h : Stands slots latched typed e s) : e.attribute? "id" = none := by
  rw [h.resembles.attributes "id" (by decide), ← h.neat.id]
  unfold Sketch.dress
  split
  · split
    · exact s.attribute?_setDisabled true (by decide)
    · rfl
  · rfl

/-- Only what is found under slots matters of a slot map. -/
theorem of_slots (h : Stands slots latched typed e s) {slots' : SlotMap Nat}
    (hslots : ∀ x, slots'.get? x = some e.mark ↔ slots.get? x = some e.mark) :
    Stands slots' latched typed e s :=
  ⟨fun x => (h.slot x).trans (hslots x).symm, h.neat, h.resembles⟩

/-- A change of the element that keeps its number. -/
theorem change (h : Stands slots latched typed e s) (hmark : e'.mark = e.mark) {typed' : List Nat}
    (hresembles : Resembles typed' e' (Sketch.dress latched' s)) :
    Stands slots latched' typed' e' s :=
  ⟨fun x => by rw [hmark]; exact h.slot x, h.neat, hresembles⟩

theorem mono (h : Stands slots latched typed e s) {typed' : List Nat} (hsub : typed ⊆ typed') :
    Stands slots latched typed' e s :=
  h.change rfl (h.resembles.mono hsub)

/-- What an element says once it is dressed depends on the latch of one control at most. -/
theorem dress_congr {latched latched' : Control → Bool} {s : Element (Option Slot) Handler}
    (h : ∀ c, s.mark = some (.control c) → latched c = latched' c) :
    Sketch.dress latched s = Sketch.dress latched' s := by
  unfold Sketch.dress
  split
  · next c hc => rw [h c hc]
  · rfl

end Stands

end RosterPanel
