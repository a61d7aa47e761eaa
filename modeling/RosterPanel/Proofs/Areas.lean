import RosterPanel.Proofs.Page.Like
import RosterPanel.Proofs.Page.Classes
import RosterPanel.Proofs.Page.Listeners

/-!
# What is to be drawn into the two containers

The sketches of a whole container, first with all controls free and without the property panel,
then dressed with the latches and with the property panel in its place. Results:

* `Shown.area`, `Panel.area`: the sketches in a container, from what is shown of a panel and from
  the panel itself.
* `Panel.area_eq`: the second is the first, with the property panel mounted and then dressed.
* `Sketch.Neat`: what all elements in these sketches have in common, block by block.
* `Shown.slots_area_group`, `Shown.slots_area_user`: the slots in a container.
-/

namespace RosterPanel

open Page (Element Node)

/-- No control is latched. -/
abbrev unlatched : Control → Bool := fun _ => false

/-- The control that a message of a gesture belongs to. -/
def Message.control? : Message → Option Control
  | .requestCreateGroup => some .addGroup
  | .requestCreateUser => some .addUser
  | .requestDelete e => some (.delete e.ref)
  | _ => none

namespace Page.Node

variable {M H : Type}

/-- The children of an element that holds just a text. -/
def texts (text : String) : List (Node M H) := if text.isEmpty then [] else [.text text]

@[simp] theorem selves_texts (text : String) :
    (texts text : List (Node M H)).flatMap selves = [] := by
  unfold texts
  split <;> rfl

end Page.Node

open Page.Node (LikeAll) in
/-- What is drawn of a text is that text. -/
theorem texts_of_like {R : Element Nat Handler → Element (Option Slot) Handler → Prop}
    {cs : List (Node Nat Handler)} {text : String} (h : LikeAll R cs (Sketch.textNodes text)) :
    cs = Node.texts text := by
  unfold Sketch.textNodes at h
  unfold Node.texts
  split at h
  · next hempty =>
    rw [if_pos hempty]
    exact List.forall₂_nil_right_iff.1 h
  · next hempty =>
    rw [if_neg hempty]
    cases h with
    | cons hfirst hrest =>
      cases hfirst
      rw [List.forall₂_nil_right_iff.1 hrest]

namespace Sketch

/-! ## Parts of sketches -/

@[simp] theorem mark_styled (tag className : String) : (styled tag className).mark = none := rfl

@[simp] theorem mark_plain (tag : String) : (plain tag).mark = none := rfl

@[simp] theorem mark_on (e : Element (Option Slot) Handler) (event : String) (h : Handler) :
    (on e event h).mark = e.mark := rfl

@[simp] theorem mark_inSlot (e : Element (Option Slot) Handler) (s : Slot) :
    (inSlot e s).mark = some s := rfl

@[simp] theorem mark_icon (source className title : String) :
    (icon source className title).mark = none := by
  unfold icon
  split <;> rfl

@[simp] theorem mark_controlled (e : Element (Option Slot) Handler) (c : Control)
    (latched : Control → Bool) (m : Message) (question : Option String) :
    (controlled e c latched m question).mark = some (.control c) := rfl

@[simp] theorem mark_setAttribute (e : Element (Option Slot) Handler) (name value : String) :
    (e.setAttribute name value).mark = e.mark := rfl

@[simp] theorem attribute?_styled (tag className name : String) :
    (styled tag className).attribute? name = if "class" = name then some className else none :=
  Table.find?_insert ∅ "class" className name

@[simp] theorem attribute?_plain (tag name : String) : (plain tag).attribute? name = none := rfl

@[simp] theorem attribute?_on (e : Element (Option Slot) Handler) (event : String) (h : Handler)
    (name : String) : (on e event h).attribute? name = e.attribute? name := rfl

@[simp] theorem attribute?_inSlot (e : Element (Option Slot) Handler) (s : Slot) (name : String) :
    (inSlot e s).attribute? name = e.attribute? name := rfl

@[simp] theorem attribute?_fill (e : Element (Option Slot) Handler) (text name : String) :
    (e.fill text).attribute? name = e.attribute? name := by
  unfold Element.fill
  split <;> rfl

theorem tag_icon (source className title : String) : (icon source className title).tag = "img" := by
  unfold icon
  split <;> rfl

theorem attribute?_icon (source className title : String) {name : String}
    (h : name ≠ "class" ∧ name ≠ "src" ∧ name ≠ "title" ∧ name ≠ "alt") :
    (icon source className title).attribute? name = none := by
  obtain ⟨hclass, hsrc, htitle, halt⟩ := h
  unfold icon
  split <;> simp [Element.attribute?_setAttribute, Ne.symm hclass, Ne.symm hsrc, Ne.symm htitle,
    Ne.symm halt]

theorem classes_icon (source className title : String) :
    (icon source className title).classes = (styled "img" className).classes := by
  unfold icon
  split
  · exact Element.classes_setAttribute _ (by decide) _
  · rw [Element.classes_setAttribute _ (by decide), Element.classes_setAttribute _ (by decide),
      Element.classes_setAttribute _ (by decide)]

@[simp] theorem flatMap_selves_textNodes (text : String) :
    (textNodes text).flatMap Node.selves = [] := by
  unfold textNodes
  split <;> simp

@[simp] theorem flatMap_marks_textNodes (text : String) :
    (textNodes text).flatMap Node.marks = [] := by
  unfold textNodes
  split <;> simp

@[simp] theorem map_mapSelf_textNodes (text : String)
    (f : Element (Option Slot) Handler → Element (Option Slot) Handler) :
    (textNodes text).map (Node.mapSelf f) = textNodes text := by
  unfold textNodes
  split <;> simp

/-! ## Dressing -/

/-- Shows a control as latched if it is. -/
def dress (latched : Control → Bool) (e : Element (Option Slot) Handler) :
    Element (Option Slot) Handler :=
  match e.mark with
  | some (.control c) => if latched c then e.setDisabled true else e
  | _ => e

section

variable (latched : Control → Bool)

theorem dress_of_none {e : Element (Option Slot) Handler} (h : e.mark = none) :
    dress latched e = e := by
  unfold dress
  rw [h]

@[simp] theorem mark_dress (e : Element (Option Slot) Handler) :
    (dress latched e).mark = e.mark := by
  unfold dress
  split
  · split
    · obtain ⟨attributes, heq⟩ := e.exists_setDisabled true
      rw [heq]
    · rfl
  · rfl

theorem setClasses_with (e : Element (Option Slot) Handler) (mark : Option Slot)
    (listeners : List (Page.Listener Handler)) (names : List String) :
    ({ e with mark, listeners } : Element (Option Slot) Handler).setClasses names =
      { e.setClasses names with mark, listeners } := by
  show (if names.isEmpty && (e.attribute? "class").isNone then _ else _) = _
  unfold Element.setClasses
  split <;> rfl

theorem setDisabled_with (e : Element (Option Slot) Handler) (mark : Option Slot)
    (listeners : List (Page.Listener Handler)) :
    ({ e with mark, listeners } : Element (Option Slot) Handler).setDisabled true =
      { e.setDisabled true with mark, listeners } := by
  show (({ e with mark, listeners } : Element (Option Slot) Handler).setClasses
    (if e.hasClass Element.disabledClass then e.classes
      else e.classes ++ [Element.disabledClass])).setAttribute "disabled" "disabled" = _
  rw [setClasses_with]
  rfl

theorem dress_controlled (e : Element (Option Slot) Handler) (c : Control) (m : Message)
    (question : Option String) :
    dress latched (controlled e c unlatched m question) = controlled e c latched m question := by
  unfold controlled dress
  simp only [Bool.false_eq_true, if_false, inSlot, on]
  split
  · rw [setDisabled_with e, Element.listeners_setDisabled]
  · rfl

theorem map_dress_label (source nameClass name id : String) (target : Target) :
    (label source nameClass name id target).map (Node.mapSelf (dress latched)) =
      label source nameClass name id target := by
  simp only [label, List.map_cons, List.map_nil, Node.mapSelf_element, map_mapSelf_textNodes,
    dress_of_none latched (mark_icon source "typeIcon" "")]
  rfl

theorem dress_groupBlock (g : Group) :
    (groupBlock unlatched g).mapSelf (dress latched) = groupBlock latched g := by
  simp only [groupBlock, Node.mapSelf_element, List.map_append, map_dress_label, List.map_cons,
    List.map_nil, dress_controlled]
  rfl

theorem dress_memberBlock (groupId : String) (u : User) :
    (memberBlock groupId u).mapSelf (dress latched) = memberBlock groupId u := by
  simp only [memberBlock, Node.mapSelf_element, List.map_append, map_dress_label, List.map_cons,
    List.map_nil]
  rw [dress_of_none latched (e := on _ _ _) (by simp)]
  rfl

theorem dress_userBlock (u : User) :
    (userBlock unlatched u).mapSelf (dress latched) = userBlock latched u := by
  simp only [userBlock, Node.mapSelf_element, List.map_append, map_dress_label, List.map_cons,
    List.map_nil, dress_controlled]
  rfl

theorem dress_addGroupButton :
    (addGroupButton unlatched).mapSelf (dress latched) = addGroupButton latched := by
  simp [addGroupButton, addButton, dress_controlled, dress_of_none]

theorem dress_addUserButton :
    (addUserButton unlatched).mapSelf (dress latched) = addUserButton latched := by
  simp [addUserButton, addButton, dress_controlled, dress_of_none]

end

/-! ## What all elements in sketches have in common -/

/-- An element in a sketch has no `id`. If it is a control it is free, and if it has the listener of
a control it is that control. -/
structure Neat (e : Element (Option Slot) Handler) : Prop where
  id : e.attribute? "id" = none
  classes : ∀ c, e.mark = some (.control c) → Element.disabledClass ∉ e.classes
  disabled : ∀ c, e.mark = some (.control c) → e.attribute? "disabled" = none
  control : ∀ l ∈ e.listeners, ∀ m question, l.handler = .control m question →
    ∃ c, m.control? = some c ∧ e.mark = some (.control c)

theorem neat_of_not_control {e : Element (Option Slot) Handler} (hid : e.attribute? "id" = none)
    (hmark : ∀ c, e.mark ≠ some (.control c))
    (hlisteners : ∀ l ∈ e.listeners, ∀ m question, l.handler ≠ .control m question) : Neat e :=
  ⟨hid, fun c hc => absurd hc (hmark c), fun c hc => absurd hc (hmark c),
    fun l hl m question h => absurd h (hlisteners l hl m question)⟩

theorem neat_controlled {e : Element (Option Slot) Handler} {c : Control} {m : Message}
    {question : Option String} (hid : e.attribute? "id" = none)
    (hclasses : Element.disabledClass ∉ e.classes) (hdisabled : e.attribute? "disabled" = none)
    (hlisteners : e.listeners = []) (hm : m.control? = some c) :
    Neat (controlled e c unlatched m question) := by
  refine ⟨hid, fun _ _ => hclasses, fun _ _ => hdisabled, fun l hl m' question' h => ?_⟩
  rw [listeners_controlled, hlisteners, List.nil_append, List.mem_singleton] at hl
  subst hl
  cases h
  exact ⟨c, hm, rfl⟩

theorem disabled_notMem_deleteClass (source title : String) :
    Element.disabledClass ∉ (icon source deleteClass title).classes := by
  rw [classes_icon]
  decide

theorem neat_icon (source className title : String) : Neat (icon source className title) :=
  neat_of_not_control (attribute?_icon _ _ _ (by decide)) (by simp) (by simp)

theorem neat_label (source nameClass name id : String) (target : Target) :
    ∀ e ∈ (label source nameClass name id target).flatMap Node.selves, Neat e := by
  intro e he
  simp only [label, List.flatMap_cons, List.flatMap_nil, Node.selves_element,
    flatMap_selves_textNodes, List.append_nil, List.cons_append, List.nil_append, List.mem_cons,
    List.not_mem_nil, or_false] at he
  rcases he with rfl | rfl | rfl
  · exact neat_icon _ _ _
  · exact neat_of_not_control (by simp) (by simp) (by simp)
  · exact neat_of_not_control (by simp) (by simp) (by simp)

theorem neat_groupBlock (g : Group) : ∀ e ∈ (groupBlock unlatched g).selves, Neat e := by
  intro e he
  simp only [groupBlock, Node.selves_element, List.flatMap_append, List.mem_cons,
    List.mem_append, List.flatMap_cons, List.flatMap_nil, List.append_nil] at he
  rcases he with rfl | he | rfl | he
  · exact neat_of_not_control (by simp) (by simp) (by simp)
  · exact neat_label _ _ _ _ _ e he
  · exact neat_controlled (attribute?_icon _ _ _ (by decide)) (disabled_notMem_deleteClass _ _)
      (attribute?_icon _ _ _ (by decide)) (listeners_icon _ _ _) rfl
  · cases he

theorem neat_memberBlock (groupId : String) (u : User) :
    ∀ e ∈ (memberBlock groupId u).selves, Neat e := by
  intro e he
  simp only [memberBlock, Node.selves_element, List.flatMap_append, List.mem_cons,
    List.mem_append, List.flatMap_cons, List.flatMap_nil, List.append_nil] at he
  rcases he with rfl | he | rfl | he
  · exact neat_of_not_control (by simp) (by simp) (by simp)
  · exact neat_label _ _ _ _ _ e he
  · exact neat_of_not_control (attribute?_icon _ _ _ (by decide)) (by simp) (by simp)
  · cases he

theorem neat_userBlock (u : User) : ∀ e ∈ (userBlock unlatched u).selves, Neat e := by
  intro e he
  simp only [userBlock, Node.selves_element, List.flatMap_append, List.mem_cons,
    List.mem_append, List.flatMap_cons, List.flatMap_nil, List.append_nil] at he
  rcases he with rfl | he | rfl | he
  · refine neat_of_not_control ?_ (by simp) (by simp)
    simp [Element.attribute?_setAttribute]
  · exact neat_label _ _ _ _ _ e he
  · exact neat_controlled (attribute?_icon _ _ _ (by decide)) (disabled_notMem_deleteClass _ _)
      (attribute?_icon _ _ _ (by decide)) (listeners_icon _ _ _) rfl
  · cases he

theorem neat_addGroupButton : ∀ e ∈ (addGroupButton unlatched).selves, Neat e := by
  intro e he
  simp only [addGroupButton, addButton, Node.selves_element, List.flatMap_cons, List.flatMap_nil,
    Node.selves_text, List.append_nil, List.mem_cons, List.not_mem_nil, or_false] at he
  rcases he with rfl | rfl
  · exact neat_controlled (by simp) (by decide) (by simp) rfl rfl
  · exact neat_icon _ _ _

theorem neat_addUserButton : ∀ e ∈ (addUserButton unlatched).selves, Neat e := by
  intro e he
  simp only [addUserButton, addButton, Node.selves_element, List.flatMap_cons, List.flatMap_nil,
    Node.selves_text, List.append_nil, List.mem_cons, List.not_mem_nil, or_false] at he
  rcases he with rfl | rfl
  · exact neat_controlled (by simp) (by decide) (by simp) rfl rfl
  · exact neat_icon _ _ _

/-- The elements of the property panel have no slots either. -/
theorem neat_propertyRow (id : String) (property : String × Json.Value) :
    ∀ e ∈ (propertyRow id property).selves, Neat e ∧ e.mark = none := by
  intro e he
  have hplain : ∀ tag, Neat (plain tag) := fun tag =>
    neat_of_not_control (by simp) (by simp) (by simp)
  have hstyled : ∀ tag className, Neat (styled tag className) := fun tag className =>
    neat_of_not_control (by simp) (by simp) (by simp)
  simp only [propertyRow, Node.selves_element, List.flatMap_cons, List.flatMap_nil,
    List.append_nil, List.cons_append, flatMap_selves_textNodes, List.nil_append,
    List.mem_cons] at he
  rcases he with rfl | rfl | rfl | he
  · exact ⟨hplain _, rfl⟩
  · exact ⟨hstyled _ _, rfl⟩
  · exact ⟨hstyled _ _, rfl⟩
  · split at he
    · rw [flatMap_selves_textNodes] at he
      cases he
    · simp only [List.flatMap_cons, List.flatMap_nil, Node.selves_element, List.append_nil,
        List.mem_cons, List.not_mem_nil, or_false] at he
      subst he
      refine ⟨neat_of_not_control ?_ (by simp) (by simp), by simp⟩
      simp [Element.attribute?_setAttribute]

theorem neat_propertyPanel (e : Editor) :
    ∀ x ∈ (propertyPanel e).selves, Neat x ∧ x.mark = none := by
  intro x hx
  simp only [propertyPanel, Node.selves_element, List.flatMap_cons, List.flatMap_nil,
    List.append_nil, List.cons_append, List.nil_append, List.mem_cons] at hx
  rcases hx with rfl | rfl | hx
  · exact ⟨neat_of_not_control (by simp) (by simp) (by simp), rfl⟩
  · exact ⟨neat_of_not_control (attribute?_icon _ _ _ (by decide)) (by simp) (by simp), by simp⟩
  · split at hx
    · simp only [Node.selves_element, List.flatMap_cons, List.flatMap_nil, Node.selves_text,
        List.append_nil, List.mem_cons, List.not_mem_nil, or_false] at hx
      subst hx
      exact ⟨neat_of_not_control (by simp) (by simp) (by simp), rfl⟩
    · simp only [Node.selves_element, List.flatMap_map, List.mem_cons, List.mem_flatMap] at hx
      rcases hx with rfl | ⟨property, -, hx⟩
      · exact ⟨neat_of_not_control (by simp) (by simp) (by simp), rfl⟩
      · exact neat_propertyRow _ _ x hx

/-! ## Slots -/

/-- The slots in sketches, in document order. -/
def slots (l : List Sketch) : List Slot := (l.flatMap Node.marks).filterMap id

@[simp] theorem slots_nil : slots [] = [] := rfl

@[simp] theorem slots_append (l m : List Sketch) : slots (l ++ m) = slots l ++ slots m := by
  simp [slots]

theorem slots_cons (s : Sketch) (l : List Sketch) : slots (s :: l) = slots [s] ++ slots l :=
  slots_append [s] l

theorem mem_slots {l : List Sketch} {x : Slot} :
    x ∈ slots l ↔ ∃ e ∈ l.flatMap Node.selves, e.mark = some x := by
  simp only [slots, List.mem_filterMap, id, exists_eq_right, List.mem_flatMap]
  constructor
  · rintro ⟨s, hs, hx⟩
    obtain ⟨e, he, hmark⟩ := List.mem_map.1 hx
    exact ⟨e, ⟨s, hs, he⟩, hmark⟩
  · rintro ⟨e, ⟨s, hs, he⟩, hmark⟩
    exact ⟨s, hs, hmark ▸ List.mem_map_of_mem he⟩

theorem mem_slots_iff {l : List Sketch} {x : Slot} :
    x ∈ slots l ↔ some x ∈ l.flatMap Node.marks := by
  simp [slots]

theorem slots_element (self : Element (Option Slot) Handler) (children : List Sketch) :
    slots [.element self children] = self.mark.toList ++ slots children := by
  cases hmark : self.mark <;> simp [slots, hmark]

theorem slots_flatMap {α : Type} (f : α → Sketch) (l : List α) :
    slots (l.map f) = l.flatMap fun a => slots [f a] := by
  induction l with
  | nil => rfl
  | cons a rest ih => rw [List.map_cons, slots_cons, ih, List.flatMap_cons]

@[simp] theorem flatMap_marks_label (source nameClass name id : String) (target : Target) :
    (label source nameClass name id target).flatMap Node.marks = [none, none, none] := by
  simp [label]

@[simp] theorem slots_groupBlock (latched : Control → Bool) (g : Group) :
    slots [groupBlock latched g] = [.group g.id, .control (.delete ⟨g.id, .group⟩)] := by
  simp [slots, groupBlock]
  rfl

@[simp] theorem slots_memberBlock (groupId : String) (u : User) :
    slots [memberBlock groupId u] = [.member groupId u.id] := by
  simp [slots, memberBlock]

@[simp] theorem slots_userBlock (latched : Control → Bool) (u : User) :
    slots [userBlock latched u] = [.user u.id, .control (.delete ⟨u.id, .user⟩)] := by
  simp [slots, userBlock]
  rfl

@[simp] theorem slots_addGroupButton (latched : Control → Bool) :
    slots [addGroupButton latched] = [.control .addGroup] := by
  simp [slots, addGroupButton, addButton]

@[simp] theorem slots_addUserButton (latched : Control → Bool) :
    slots [addUserButton latched] = [.control .addUser] := by
  simp [slots, addUserButton, addButton]

/-- A sketch with more children. -/
def under (s : Sketch) (more : List Sketch) : Sketch :=
  match s with
  | .text content => .text content
  | .element self children => .element self (children ++ more)

@[simp] theorem under_element (self : Element (Option Slot) Handler) (children more : List Sketch) :
    under (.element self children) more = .element self (children ++ more) := rfl

end Sketch

/-! ## Areas -/

/-- What is shown of a panel, the latches and the property panel aside. -/
structure Shown where
  groups : List Group
  users : List User
  /-- The users in each group, by the group's id. -/
  members : String → List User

namespace Shown

/-- The block of a group with the blocks of its members. -/
def block (σ : Shown) (g : Group) : Sketch :=
  (Sketch.groupBlock unlatched g).under ((σ.members g.id).map (Sketch.memberBlock g.id))

/-- The sketches in the container for entities of a kind: a block for each, and behind them a button
if there are any. -/
def area (σ : Shown) : EntityKind → List Sketch
  | .group => σ.groups.map σ.block ++
      if σ.groups.isEmpty then [] else [Sketch.addGroupButton unlatched]
  | .user => σ.users.map (Sketch.userBlock unlatched) ++
      if σ.users.isEmpty then [] else [Sketch.addUserButton unlatched]

@[simp] theorem slots_block (σ : Shown) (g : Group) :
    Sketch.slots [σ.block g] = .group g.id :: .control (.delete ⟨g.id, .group⟩) ::
      (σ.members g.id).map fun u => .member g.id u.id := by
  have hunder : Sketch.slots [σ.block g] = Sketch.slots [Sketch.groupBlock unlatched g] ++
      Sketch.slots ((σ.members g.id).map (Sketch.memberBlock g.id)) := by
    simp [Sketch.slots, block, Sketch.groupBlock]
  rw [hunder, Sketch.slots_groupBlock, Sketch.slots_flatMap]
  simp [List.map_eq_flatMap]

theorem slots_area_group (σ : Shown) :
    Sketch.slots (σ.area .group) = (σ.groups.flatMap fun g => Sketch.slots [σ.block g]) ++
      if σ.groups.isEmpty then [] else [.control .addGroup] := by
  rw [area, Sketch.slots_append, Sketch.slots_flatMap]
  split <;> simp

theorem slots_area_user (σ : Shown) :
    Sketch.slots (σ.area .user) =
      (σ.users.flatMap fun u => [.user u.id, .control (.delete ⟨u.id, .user⟩)]) ++
        if σ.users.isEmpty then [] else [.control .addUser] := by
  rw [area, Sketch.slots_append, Sketch.slots_flatMap]
  split <;> simp

end Shown

/-! ## The property panel in its place -/

namespace Sketch

/-- The property panel, if it is open for what is in a slot. -/
def panelAt (editor : Option Editor) (s : Slot) : List Sketch :=
  match editor with
  | none => []
  | some e => if s = Slot.ofTarget e.target then [propertyPanel e] else []

/-- The property panel behind the children of the element in its slot. -/
def mountAt (editor : Option Editor) (l : List Sketch) : List Sketch :=
  match editor with
  | none => l
  | some e =>
    l.map (Node.adjust (fun s => s.mark == some (Slot.ofTarget e.target))
      fun s ds => .element s (ds ++ [propertyPanel e]))

end Sketch

/-- Whether a slot is in the container for entities of a kind. -/
def Slot.within : EntityKind → Slot → Bool
  | .group => inGroups
  | .user => inUsers

theorem Slot.within_unique {k k' : EntityKind} {x : Slot} (h : within k x = true)
    (h' : within k' x = true) : k = k' := by
  cases k <;> cases k' <;> first
    | rfl
    | (exfalso
       rcases x with _ | _ | _ | _ | _ | ⟨_, _ | _⟩ <;>
         simp [within, inGroups, inUsers] at h h')

theorem Slot.ofTarget_ne_control (t : Target) (c : Control) : Slot.ofTarget t ≠ .control c := by
  unfold Slot.ofTarget
  split <;> simp

namespace Sketch

@[simp] theorem under_nil (s : Sketch) : s.under [] = s := by
  cases s <;> simp [under]

/-- Adding to a block in which only the root can be meant. -/
theorem adjust_under {x : Option Slot} {more : List Sketch}
    {self : Element (Option Slot) Handler} {children : List Sketch}
    (h : ∀ e ∈ children.flatMap Node.selves, e.mark ≠ x) :
    Node.adjust (fun s => s.mark == x) (fun s ds => .element s (ds ++ more))
        (.element self children) =
      Sketch.under (.element self children) (if self.mark = x then more else []) := by
  unfold Node.adjust
  by_cases hself : self.mark = x
  · rw [if_pos (by simp [hself]), if_pos hself]
    rfl
  · rw [if_neg (by simp [hself]), if_neg hself, under_nil, Node.adjustAmong_eq,
      Node.adjustAmong_eq_self fun e he => beq_eq_false_iff_ne.2 (h e he)]

theorem mark_of_mem_label {source nameClass name id : String} {target : Target}
    {e : Element (Option Slot) Handler}
    (he : e ∈ (label source nameClass name id target).flatMap Node.selves) : e.mark = none := by
  simp only [label, List.flatMap_cons, List.flatMap_nil, Node.selves_element,
    flatMap_selves_textNodes, List.append_nil, List.cons_append, List.nil_append, List.mem_cons,
    List.not_mem_nil, or_false] at he
  rcases he with rfl | rfl | rfl <;> simp

theorem mapSelf_under (f : Element (Option Slot) Handler → Element (Option Slot) Handler)
    (s : Sketch) (more : List Sketch) :
    Node.mapSelf f (under s more) = under (Node.mapSelf f s) (more.map (Node.mapSelf f)) := by
  cases s <;> simp [under]

theorem dress_propertyPanel (latched : Control → Bool) (e : Editor) :
    (propertyPanel e).mapSelf (dress latched) = propertyPanel e :=
  Node.mapSelf_eq_self fun x hx => dress_of_none latched (neat_propertyPanel e x hx).2

theorem map_dress_panelAt (latched : Control → Bool) (editor : Option Editor) (s : Slot) :
    (panelAt editor s).map (Node.mapSelf (dress latched)) = panelAt editor s := by
  unfold panelAt
  split
  · rfl
  · split
    · simp [dress_propertyPanel]
    · rfl

section

variable (e : Editor)

/-- Adds the property panel to the element in its slot. -/
abbrev mountIn (s : Sketch) : Sketch :=
  s.adjust (fun x => x.mark == some (Slot.ofTarget e.target))
    fun x ds => .element x (ds ++ [propertyPanel e])

theorem mountIn_memberBlock (groupId : String) (u : User) :
    mountIn e (memberBlock groupId u) =
      (memberBlock groupId u).under (panelAt (some e) (.member groupId u.id)) := by
  unfold mountIn memberBlock
  rw [adjust_under]
  · simp [panelAt]
  · intro x hx
    rw [List.flatMap_append, List.mem_append] at hx
    rcases hx with hx | hx
    · rw [mark_of_mem_label hx]
      simp
    · have hx : x = on (icon "icon/user_delete.png" deleteClass
          ("Remove user " ++ u.id ++ " from group " ++ groupId)) "click"
            (.post (.removeUser u.id groupId)) := by simpa using hx
      rw [hx]
      simp

theorem mountIn_userBlock (u : User) :
    mountIn e (userBlock unlatched u) =
      (userBlock unlatched u).under (panelAt (some e) (.user u.id)) := by
  unfold mountIn userBlock
  rw [adjust_under]
  · simp [panelAt]
  · intro x hx
    rw [List.flatMap_append, List.mem_append] at hx
    rcases hx with hx | hx
    · rw [mark_of_mem_label hx]
      simp
    · simp only [List.flatMap_cons, List.flatMap_nil, Node.selves_element, List.append_nil,
        List.mem_cons, List.not_mem_nil, or_false] at hx
      rw [hx, mark_controlled]
      exact fun h => Slot.ofTarget_ne_control e.target _ (Option.some.inj h).symm

theorem mountIn_block (σ : Shown) (g : Group) :
    mountIn e (σ.block g) = (groupBlock unlatched g).under
      (((σ.members g.id).map fun u =>
        (memberBlock g.id u).under (panelAt (some e) (.member g.id u.id))) ++
          panelAt (some e) (.group g.id)) := by
  have hlabel : ∀ x ∈ (label "icon/group.png" "name" g.name g.id
      ⟨(Entity.group g).ref, none⟩).flatMap Node.selves,
      (x.mark == some (Slot.ofTarget e.target)) = false := by
    intro x hx
    rw [mark_of_mem_label hx]
    rfl
  have hcontrol : ∀ c, ((some (.control c) : Option Slot) ==
      some (Slot.ofTarget e.target)) = false :=
    fun c => beq_eq_false_iff_ne.2 fun h =>
      Slot.ofTarget_ne_control e.target c (Option.some.inj h).symm
  unfold mountIn Shown.block groupBlock
  simp only [under_element]
  unfold Node.adjust
  by_cases hself : Slot.group g.id = Slot.ofTarget e.target
  · have hmember : ∀ u : User, panelAt (some e) (.member g.id u.id) = [] := by
      intro u
      rw [panelAt, ← hself]
      simp
    have hmembers : ((σ.members g.id).map fun u =>
        (memberBlock g.id u).under (panelAt (some e) (.member g.id u.id))) =
          (σ.members g.id).map (memberBlock g.id) := by
      refine List.map_congr_left fun u _ => ?_
      rw [hmember u, under_nil]
    rw [if_pos (by simp [hself]), hmembers,
      show panelAt (some e) (.group g.id) = [propertyPanel e] from if_pos hself]
    simp only [List.append_assoc]
  · rw [if_neg (by simp [hself]), Node.adjustAmong_eq, List.map_append, List.map_append,
      Node.adjustAmong_eq_self hlabel]
    simp only [List.map_cons, List.map_nil, List.map_map, Node.adjust, mark_controlled, hcontrol,
      Node.adjustAmong, Bool.false_eq_true, if_false]
    rw [show panelAt (some e) (.group g.id) = [] from if_neg hself, List.append_nil]
    congr 2
    exact List.map_congr_left fun u _ => mountIn_memberBlock e g.id u

/-- Where a slot is not, nothing is added to it. -/
theorem adjust_slot_eq_self {x : Slot} {l : List Sketch} (hx : x ∉ slots l)
    (f : Element (Option Slot) Handler → List Sketch → Sketch) :
    l.map (Node.adjust (fun s => s.mark == some x) f) = l :=
  Node.adjustAmong_eq_self fun s hs =>
    beq_eq_false_iff_ne.2 fun h => hx (mem_slots.2 ⟨s, hs, h⟩)

theorem map_mountIn_button {button : Sketch} {c : Control} (h : slots [button] = [.control c])
    {b : Bool} :
    (if b then [] else [button]).map (mountIn e) = if b then [] else [button] := by
  refine adjust_slot_eq_self (fun hslot => ?_) _
  cases b with
  | true => cases hslot
  | false =>
    rw [if_neg (by decide), h, List.mem_singleton] at hslot
    exact Slot.ofTarget_ne_control _ _ hslot

end

theorem mountAt_area_group (editor : Option Editor) (σ : Shown) :
    mountAt editor (σ.area .group) =
      (σ.groups.map fun g => (groupBlock unlatched g).under
        (((σ.members g.id).map fun u =>
          (memberBlock g.id u).under (panelAt editor (.member g.id u.id))) ++
            panelAt editor (.group g.id))) ++
      if σ.groups.isEmpty then [] else [addGroupButton unlatched] := by
  cases editor with
  | none => simp [mountAt, Shown.area, Shown.block, panelAt]
  | some e =>
    rw [mountAt, Shown.area, List.map_append, List.map_map,
      map_mountIn_button e (slots_addGroupButton _)]
    congr 1
    exact List.map_congr_left fun g _ => mountIn_block e σ g

theorem mountAt_area_user (editor : Option Editor) (σ : Shown) :
    mountAt editor (σ.area .user) =
      (σ.users.map fun u => (userBlock unlatched u).under (panelAt editor (.user u.id))) ++
      if σ.users.isEmpty then [] else [addUserButton unlatched] := by
  cases editor with
  | none => simp [mountAt, Shown.area, panelAt]
  | some e =>
    rw [mountAt, Shown.area, List.map_append, List.map_map,
      map_mountIn_button e (slots_addUserButton _)]
    congr 1
    exact List.map_congr_left fun u _ => mountIn_userBlock e u

end Sketch

namespace Panel

open Sketch

def shown (p : Panel) : Shown := ⟨p.groups, p.users, p.membersOf⟩

/-- The block of a group as it is to be on the page. -/
def groupSketch (p : Panel) (g : Group) : Sketch :=
  (groupBlock p.latches.isLatched g).under <|
    ((p.membersOf g.id).map fun u =>
      (memberBlock g.id u).under (panelAt p.editor (.member g.id u.id))) ++
    panelAt p.editor (.group g.id)

/-- The block of a user as it is to be on the page. -/
def userSketch (p : Panel) (u : User) : Sketch :=
  (userBlock p.latches.isLatched u).under (panelAt p.editor (.user u.id))

/-- What is to be in the container for entities of a kind. -/
def area (p : Panel) : EntityKind → List Sketch
  | .group => p.groups.map p.groupSketch ++
      if p.groups.isEmpty then [] else [addGroupButton p.latches.isLatched]
  | .user => p.users.map p.userSketch ++
      if p.users.isEmpty then [] else [addUserButton p.latches.isLatched]

/-- What is to be in a container: the sketches for what is shown, with the property panel mounted,
dressed with the latches. -/
theorem area_eq (p : Panel) (k : EntityKind) :
    p.area k =
      (mountAt p.editor (p.shown.area k)).map (Node.mapSelf (dress p.latches.isLatched)) := by
  cases k with
  | group =>
    have hmember : ∀ (g : Group) (u : User), Node.mapSelf (dress p.latches.isLatched)
        ((memberBlock g.id u).under (panelAt p.editor (.member g.id u.id))) =
          (memberBlock g.id u).under (panelAt p.editor (.member g.id u.id)) := by
      intro g u
      rw [mapSelf_under, dress_memberBlock, map_dress_panelAt]
    rw [mountAt_area_group, List.map_append, List.map_map, area]
    congr 1
    · refine List.map_congr_left fun g _ => ?_
      rw [Function.comp_apply, mapSelf_under, dress_groupBlock, List.map_append, List.map_map,
        map_dress_panelAt, groupSketch]
      congr 2
      exact List.map_congr_left fun u _ => (hmember g u).symm
    · show _ = List.map _ (if p.groups.isEmpty then [] else [addGroupButton unlatched])
      cases p.groups.isEmpty with
      | true => rfl
      | false => exact congrArg ([·]) (dress_addGroupButton _).symm
  | user =>
    rw [mountAt_area_user, List.map_append, List.map_map, area]
    congr 1
    · refine List.map_congr_left fun u _ => ?_
      rw [Function.comp_apply, mapSelf_under, dress_userBlock, map_dress_panelAt, userSketch]
    · show _ = List.map _ (if p.users.isEmpty then [] else [addUserButton unlatched])
      cases p.users.isEmpty with
      | true => rfl
      | false => exact congrArg ([·]) (dress_addUserButton _).symm

end Panel

end RosterPanel
