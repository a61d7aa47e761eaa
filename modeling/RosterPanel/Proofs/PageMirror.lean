import RosterPanel.Proofs.PageInSync

/-!
# The page mirrors the panel

What it means for a page that it is in sync with the panel, in terms of the page alone: what the
two containers hold, which controls are disabled, whether there is a property panel, and what is
remembered of the page. Results:

* `App.Mirrors`: the page shows what the panel knows.
* `App.mirrors_afterStart`: so it does after `start` on a blank page, whatever happens then.
-/

namespace RosterPanel

open Page (Document Element Node)
open Page.Node (Like LikeAll)

/-! ## Property panels -/

/-- Whether a listener opens or closes a property panel. -/
def Handler.toggles : Handler → Bool
  | .post (.editProperties _) => true
  | _ => false

/-- Whether an element is the icon that closes a property panel; each panel has one. The names that
open it are no images. -/
def closesPanel {M : Type} (e : Element M Handler) : Bool :=
  e.tag == "img" && e.listeners.any (·.handler.toggles)

/-- How many property panels there are in some trees. -/
def panelCount {M : Type} (l : List (Node M Handler)) : Nat :=
  (l.flatMap Node.selves).countP closesPanel

namespace Sketch

theorem panelCount_append (l m : List Sketch) :
    panelCount (l ++ m) = panelCount l + panelCount m := by
  simp [panelCount]

theorem panelCount_cons (s : Sketch) (l : List Sketch) :
    panelCount (s :: l) = panelCount [s] + panelCount l :=
  panelCount_append [s] l

theorem panelCount_element (self : Element (Option Slot) Handler) (children : List Sketch) :
    panelCount [.element self children] =
      panelCount children + if closesPanel self then 1 else 0 := by
  simp only [panelCount, List.flatMap_singleton, Node.selves_element, List.countP_cons]

theorem panelCount_under {s : Sketch} (hs : ∃ self children, s = .element self children)
    (more : List Sketch) : panelCount [s.under more] = panelCount [s] + panelCount more := by
  obtain ⟨self, children, rfl⟩ := hs
  rw [under_element, panelCount_element, panelCount_element, panelCount_append]
  omega

/-- Only images close property panels. -/
theorem closesPanel_of_tag {e : Element (Option Slot) Handler} (t : String) (h : e.tag = t)
    (ht : t ≠ "img") : closesPanel e = false := by
  rw [closesPanel, h, beq_eq_false_iff_ne.2 ht, Bool.false_and]

theorem closesPanel_icon (source className title : String) :
    closesPanel (icon source className title) = false := by
  simp [closesPanel]

/-- An icon with a listener closes a property panel if the listener does. -/
theorem closesPanel_on_icon (source className title event : String) (h : Handler) :
    closesPanel (on (icon source className title) event h) = h.toggles := by
  simp [closesPanel, on, tag_icon]

theorem closesPanel_controlled {e : Element (Option Slot) Handler} (he : closesPanel e = false)
    (c : Control) (m : Message) (question : Option String) :
    closesPanel (controlled e c unlatched m question) = false := by
  have htoggles : (Handler.control m question).toggles = false := rfl
  simpa [closesPanel, controlled, on, inSlot, htoggles] using he

theorem panelCount_label (source nameClass name id : String) (target : Target) :
    panelCount (label source nameClass name id target) = 0 := by
  have hname : closesPanel (on (styled "b" nameClass) "click" (.post (.editProperties target))) =
      false := closesPanel_of_tag "b" rfl (by decide)
  have hid : closesPanel (styled "span" "id") = false := closesPanel_of_tag "span" rfl (by decide)
  simp [label, panelCount, closesPanel_icon, hname, hid]

/-- The number of property panels in a block with a label and an icon. -/
theorem panelCount_block {self e : Element (Option Slot) Handler} (hself : self.tag = "div")
    (he : closesPanel e = false) (source nameClass name id : String) (target : Target) :
    panelCount [.element self (label source nameClass name id target ++ [.element e []])] = 0 := by
  rw [panelCount_element, panelCount_append, panelCount_label, panelCount_element, he,
    closesPanel_of_tag "div" hself (by decide)]
  rfl

theorem panelCount_groupBlock (g : Group) : panelCount [groupBlock unlatched g] = 0 :=
  panelCount_block rfl (closesPanel_controlled (closesPanel_icon _ _ _) _ _ _) _ _ _ _ _

theorem panelCount_memberBlock (groupId : String) (u : User) :
    panelCount [memberBlock groupId u] = 0 :=
  panelCount_block rfl (closesPanel_on_icon _ _ _ _ _) _ _ _ _ _

theorem panelCount_userBlock (u : User) : panelCount [userBlock unlatched u] = 0 :=
  panelCount_block rfl (closesPanel_controlled (closesPanel_icon _ _ _) _ _ _) _ _ _ _ _

theorem panelCount_addButton (className source caption : String) (c : Control) (m : Message) :
    panelCount [addButton className source caption c unlatched m] = 0 := by
  have hbutton : closesPanel (styled "button" (className ++ " button")) = false :=
    closesPanel_of_tag "button" rfl (by decide)
  unfold addButton
  rw [panelCount_element, closesPanel_controlled hbutton]
  simp [panelCount, closesPanel_icon]

theorem panelCount_propertyRow (id : String) (property : String × Json.Value) :
    panelCount [propertyRow id property] = 0 := by
  have hfield : ∀ text, closesPanel (on (((plain "input").setAttribute "name" property.1).fill
      text) "change" (.commit id property.1)) = false := by
    intro text
    refine closesPanel_of_tag "input" ?_ (by decide)
    unfold Element.fill
    split <;> rfl
  have hkey : closesPanel (styled "td" "key") = false := closesPanel_of_tag "td" rfl (by decide)
  have hvalue : closesPanel (styled "td" "value") = false :=
    closesPanel_of_tag "td" rfl (by decide)
  have hrow : closesPanel (plain "tr") = false := closesPanel_of_tag "tr" rfl (by decide)
  unfold propertyRow
  simp only
  split <;> simp [panelCount, hrow, hkey, hvalue, hfield]

/-- Each property panel is one. -/
theorem panelCount_propertyPanel (e : Editor) : panelCount [propertyPanel e] = 1 := by
  have hroot : closesPanel (styled "div" "properties") = false :=
    closesPanel_of_tag "div" rfl (by decide)
  have hclose : closesPanel (on (icon "icon/delete.png" deleteClass "Close properties") "click"
      (.post (.editProperties e.target))) = true := closesPanel_on_icon _ _ _ _ _
  have hloading : closesPanel (styled "span" "loading") = false :=
    closesPanel_of_tag "span" rfl (by decide)
  have htable : closesPanel (plain "table") = false := closesPanel_of_tag "table" rfl (by decide)
  have hrows : ∀ l : List (String × Json.Value),
      panelCount (l.map (propertyRow e.target.entity.id)) = 0 := by
    intro l
    induction l with
    | nil => rfl
    | cons property rest ih =>
      rw [List.map_cons, panelCount_cons, panelCount_propertyRow, ih]
  unfold propertyPanel
  rw [panelCount_element, hroot, panelCount_cons, panelCount_element, hclose, if_pos rfl]
  split
  · rw [panelCount_element, hloading]
    rfl
  · rw [panelCount_element, htable, hrows]
    rfl

/-! ## Property panels in areas -/

/-- Whether the property panel is open for what is in a slot. -/
def isAnchor (editor : Option Editor) (x : Slot) : Bool :=
  editor.any fun e => Slot.ofTarget e.target == x

theorem isAnchor_control (editor : Option Editor) (c : Control) :
    isAnchor editor (.control c) = false := by
  cases editor with
  | none => rfl
  | some e => exact beq_eq_false_iff_ne.2 (Slot.ofTarget_ne_control e.target c)

theorem panelCount_panelAt (editor : Option Editor) (x : Slot) :
    panelCount (panelAt editor x) = [x].countP (isAnchor editor) := by
  cases editor with
  | none => rfl
  | some e =>
    have hanchor : isAnchor (some e) x = decide (x = Slot.ofTarget e.target) := by
      rw [isAnchor, Option.any_some, Bool.eq_iff_iff, beq_iff_eq, decide_eq_true_iff]
      exact eq_comm
    rw [panelAt, List.countP_singleton, hanchor]
    by_cases hx : x = Slot.ofTarget e.target
    · simp [hx, panelCount_propertyPanel]
    · simp [hx, panelCount]

/-- There are as many property panels in a list of blocks as there are slots in it for which the
property panel is open. -/
theorem panelCount_blocks {α : Type} {editor : Option Editor} {f : α → Sketch}
    {slots : α → List Slot} (h : ∀ a, panelCount [f a] = (slots a).countP (isAnchor editor))
    (l : List α) : panelCount (l.map f) = (l.flatMap slots).countP (isAnchor editor) := by
  induction l with
  | nil => rfl
  | cons a rest ih =>
    rw [List.map_cons, panelCount_cons, ih, h, List.flatMap_cons, List.countP_append]

theorem panelCount_mountAt (editor : Option Editor) (σ : Shown) (k : EntityKind) :
    panelCount (mountAt editor (σ.area k)) =
      (slots (σ.area k)).countP (isAnchor editor) := by
  have hbutton : ∀ (b : Bool) (button : Sketch) (c : Control), panelCount [button] = 0 →
      panelCount (if b then [] else [button]) =
        (if b then [] else [Slot.control c]).countP (isAnchor editor) := by
    intro b button c hzero
    cases b with
    | true => rfl
    | false => simp [hzero, isAnchor_control]
  cases k with
  | user =>
    rw [mountAt_area_user, Shown.slots_area_user, panelCount_append, List.countP_append,
      hbutton _ (addUserButton unlatched) .addUser (panelCount_addButton _ _ _ _ _),
      panelCount_blocks fun u => ?_]
    rw [panelCount_under (s := userBlock unlatched u) ⟨_, _, rfl⟩, panelCount_userBlock,
      panelCount_panelAt]
    simp [List.countP_cons, isAnchor_control]
  | group =>
    have hmembers : ∀ g : Group, panelCount ((σ.members g.id).map fun u =>
        (memberBlock g.id u).under (panelAt editor (.member g.id u.id))) =
          ((σ.members g.id).flatMap fun u => [.member g.id u.id]).countP (isAnchor editor) := by
      intro g
      refine panelCount_blocks (fun u => ?_) _
      rw [panelCount_under (s := memberBlock g.id u) ⟨_, _, rfl⟩, panelCount_memberBlock,
        panelCount_panelAt, Nat.zero_add]
    rw [mountAt_area_group, Shown.slots_area_group, panelCount_append, List.countP_append,
      hbutton _ (addGroupButton unlatched) .addGroup (panelCount_addButton _ _ _ _ _),
      panelCount_blocks fun g => ?_]
    rw [panelCount_under (s := groupBlock unlatched g) ⟨_, _, rfl⟩, panelCount_groupBlock,
      panelCount_append, hmembers, panelCount_panelAt, Shown.slots_block, ← List.map_eq_flatMap]
    simp only [List.countP_cons, List.countP_nil, isAnchor_control, Bool.false_eq_true, if_false]
    omega

end Sketch

/-! ## Blocks that are drawn -/

/-- Whether a block is to be on the page. -/
def Panel.HasBlock (p : Panel) : Slot → Prop
  | .group id => ∃ g ∈ p.groups, g.id = id
  | .user id => ∃ u ∈ p.users, u.id = id
  | .member groupId id => (∃ g ∈ p.groups, g.id = groupId) ∧ ∃ u ∈ p.membersOf groupId, u.id = id
  | .control _ => False

/-- The blocks that are to be on the page are in one of the two containers. -/
theorem Panel.hasBlock_iff {p : Panel} {x : Slot} (hx : ∀ c, x ≠ .control c) :
    p.HasBlock x ↔ x ∈ Sketch.slots (p.shown.area .group) ++ Sketch.slots (p.shown.area .user) := by
  have hbutton : ∀ (b : Bool) (c : Control), x ∉ if b then [] else [Slot.control c] := by
    intro b c hmem
    split at hmem
    · cases hmem
    · exact hx c (List.mem_singleton.1 hmem)
  rw [List.mem_append, Shown.slots_area_group, Shown.slots_area_user, List.mem_append,
    List.mem_append, or_iff_left (hbutton _ _), or_iff_left (hbutton _ _)]
  simp only [List.mem_flatMap, Shown.slots_block, List.mem_cons, List.mem_map, List.not_mem_nil,
    or_false]
  cases x with
  | control c => exact absurd rfl (hx c)
  | group id => simp [HasBlock, shown, eq_comm]
  | user id => simp [HasBlock, shown, eq_comm]
  | member groupId id =>
    have hgroup : (∃ g ∈ p.groups, Slot.member groupId id = .group g.id ∨
        Slot.member groupId id = .control (.delete ⟨g.id, .group⟩) ∨
          ∃ u ∈ p.membersOf g.id, Slot.member g.id u.id = .member groupId id) ↔
        (∃ g ∈ p.groups, g.id = groupId) ∧ ∃ u ∈ p.membersOf groupId, u.id = id := by
      constructor
      · rintro ⟨g, hg, h | h | ⟨u, hu, heq⟩⟩
        · cases h
        · cases h
        · cases heq
          exact ⟨⟨g, hg, rfl⟩, u, hu, rfl⟩
      · rintro ⟨⟨g, hg, rfl⟩, u, hu, rfl⟩
        exact ⟨g, hg, Or.inr (Or.inr ⟨u, hu, rfl⟩)⟩
    rw [HasBlock, ← hgroup]
    refine (or_iff_left ?_).symm
    rintro ⟨u, -, h | h⟩ <;> cases h

/-! ## Labels -/

/-- A block on the page begins with a name and an id, `name` and ` [id]`; `behind` is what follows
in it. -/
def Labels (name id : String) (block : Node Nat Handler) (behind : List (Node Nat Handler)) :
    Prop :=
  ∃ root icon title tag, block = .element root (.element icon [] ::
      .element title (Node.texts name) :: .element tag (Node.texts (" [" ++ id ++ "]")) :: behind) ∧
    icon.tag = "img" ∧ title.tag = "b" ∧ tag.tag = "span"

section

variable {R : Element Nat Handler → Element (Option Slot) Handler → Prop}

/-- Whatever is drawn with a label begins with that label. -/
theorem labels_of_like (hR : ∀ e s, R e s → e.tag = s.tag)
    {self : Element (Option Slot) Handler} {source nameClass name id : String} {target : Target}
    {more : List Sketch} {block : Node Nat Handler}
    (h : Like R block (.element self (Sketch.label source nameClass name id target ++ more))) :
    ∃ behind, Labels name id block behind ∧ LikeAll R behind more := by
  cases h with
  | element _ hchildren =>
    cases hchildren with
    | cons hicon hrest =>
      cases hicon with
      | element hicon hnone =>
        cases hnone
        cases hrest with
        | cons htitle hrest =>
          cases htitle with
          | element htitle hname =>
            cases hrest with
            | cons htag hmore =>
              cases htag with
              | element htag hid =>
                obtain rfl := texts_of_like hname
                obtain rfl := texts_of_like hid
                exact ⟨_, ⟨_, _, _, _, rfl, (hR _ _ hicon).trans (Sketch.tag_icon _ _ _),
                  hR _ _ htitle, hR _ _ htag⟩, hmore⟩

/-- What is drawn of two lists one after the other comes in two parts. -/
theorem exists_append_of_likeAll {l : List (Node Nat Handler)} {m m' : List Sketch}
    (h : LikeAll R l (m ++ m')) : ∃ k k', l = k ++ k' ∧ LikeAll R k m ∧ LikeAll R k' m' :=
  ⟨_, _, (List.take_append_drop m.length l).symm, List.forall₂_take_append l m m' h,
    List.forall₂_drop_append l m m' h⟩

theorem labels_of_memberSketch (hR : ∀ e s, R e s → e.tag = s.tag) (groupId : String) {u : User}
    {more : List Sketch} {block : Node Nat Handler}
    (h : Like R block ((Sketch.memberBlock groupId u).under more)) :
    ∃ behind, Labels u.displayName u.id block behind := by
  rw [Sketch.memberBlock, Sketch.under_element, List.append_assoc] at h
  obtain ⟨behind, hlabels, -⟩ := labels_of_like hR h
  exact ⟨behind, hlabels⟩

theorem labels_of_userSketch (hR : ∀ e s, R e s → e.tag = s.tag) {p : Panel} {u : User}
    {block : Node Nat Handler} (h : Like R block (p.userSketch u)) :
    ∃ behind, Labels u.displayName u.id block behind := by
  rw [Panel.userSketch, Sketch.userBlock, Sketch.under_element, List.append_assoc] at h
  obtain ⟨behind, hlabels, -⟩ := labels_of_like hR h
  exact ⟨behind, hlabels⟩

end

/-- The block of a group begins with its name, and behind the icon that deletes the group are the
blocks of its members, each with the name of that user. -/
def LabelsGroup (p : Panel) (g : Group) (block : Node Nat Handler) : Prop :=
  ∃ icon members panel, Labels g.name g.id block (.element icon [] :: members ++ panel) ∧
    List.Forall₂ (fun u member => ∃ behind, Labels u.displayName u.id member behind)
      (p.membersOf g.id) members

theorem labelsGroup_of_groupSketch {R : Element Nat Handler → Element (Option Slot) Handler → Prop}
    (hR : ∀ e s, R e s → e.tag = s.tag) {p : Panel} {g : Group} {block : Node Nat Handler}
    (h : Like R block (p.groupSketch g)) : LabelsGroup p g block := by
  rw [Panel.groupSketch, Sketch.groupBlock, Sketch.under_element, List.append_assoc] at h
  obtain ⟨behind, hlabels, hbehind⟩ := labels_of_like hR h
  cases hbehind with
  | cons hicon hrest =>
    cases hicon with
    | element _ hnone =>
      cases hnone
      obtain ⟨members, panel, rfl, hmembers, -⟩ := exists_append_of_likeAll hrest
        (m := (p.membersOf g.id).map _)
      refine ⟨_, members, panel, hlabels, ?_⟩
      rw [LikeAll, List.forall₂_map_right_iff] at hmembers
      exact hmembers.flip.imp fun u member hlike => labels_of_memberSketch hR g.id hlike

section

variable {R : Element Nat Handler → Element (Option Slot) Handler → Prop} {p : Panel}
  {content : List (Node Nat Handler)}

theorem labels_of_area_group (hR : ∀ e s, R e s → e.tag = s.tag)
    (h : LikeAll R content (p.area .group)) :
    ∃ blocks rest, content = blocks ++ rest ∧ List.Forall₂ (LabelsGroup p) p.groups blocks := by
  obtain ⟨blocks, rest, rfl, hblocks, -⟩ := exists_append_of_likeAll h
  rw [LikeAll, List.forall₂_map_right_iff] at hblocks
  exact ⟨blocks, rest, rfl, hblocks.flip.imp fun _ _ => labelsGroup_of_groupSketch hR⟩

theorem labels_of_area_user (hR : ∀ e s, R e s → e.tag = s.tag)
    (h : LikeAll R content (p.area .user)) :
    ∃ blocks rest, content = blocks ++ rest ∧
      List.Forall₂ (fun u block => ∃ behind, Labels u.displayName u.id block behind)
        p.users blocks := by
  obtain ⟨blocks, rest, rfl, hblocks, -⟩ := exists_append_of_likeAll h
  rw [LikeAll, List.forall₂_map_right_iff] at hblocks
  exact ⟨blocks, rest, rfl, hblocks.flip.imp fun _ _ => labels_of_userSketch hR⟩

end

/-! ## The page -/

/-- The page of an application shows what its panel knows: `view` is what is remembered of the page,
`content` what is in the two containers, and `typed` are the numbers of the elements that a text was
put into. -/
structure App.Mirrors (typed : List Nat) (view : View) (content : Contents) (a : App) : Prop where
  known : a.shell.view = some view
  /-- There is one container for the entities of each kind. -/
  container : ∀ k, ∃ self, a.shell.document.elements.filter
    (·.test fun e => e.attribute? "id" == some (EntityKind.containerId k)) =
      [.element self (content k)]
  /-- In it is what is to be there, and what is in a slot is remembered under it. -/
  area : ∀ k, LikeAll (fun e s => (∀ x, s.mark = some x ↔ view.slots.get? x = some e.mark) ∧
    Resembles typed e s) (content k) (a.panel.area k)
  /-- The blocks begin with the names of their entities, in the order of the lists. -/
  labels : (∃ blocks rest, content .group = blocks ++ rest ∧
      List.Forall₂ (LabelsGroup a.panel) a.panel.groups blocks) ∧
    ∃ blocks rest, content .user = blocks ++ rest ∧
      List.Forall₂ (fun u block => ∃ behind, Labels u.displayName u.id block behind)
        a.panel.users blocks
  /-- Nothing else is remembered. -/
  slots : ∀ x n, view.slots.get? x = some n → ∃ k, n ∈ (content k).flatMap Node.marks
  /-- The controls that are latched are disabled, and no others. -/
  control : ∀ e ∈ a.shell.document.trees.flatMap Node.selves, ∀ l ∈ e.listeners, ∀ m question,
    l.handler = .control m question →
      ∃ c, m.control? = some c ∧ e.isDisabled = a.panel.latches.isLatched c
  /-- There is one property panel if it is open for a block that is on the page, and else none. -/
  panel : panelCount (content .group ++ content .user) ≤ 1 ∧
    (panelCount (content .group ++ content .user) = 1 ↔
      ∃ e, a.panel.editor = some e ∧ a.panel.HasBlock (Slot.ofTarget e.target))

/-! ## What is on the page -/

theorem filter_elements_eq_nil {p : Element Nat Handler → Bool} {l : List (Node Nat Handler)}
    (h : ∀ e ∈ l.flatMap Node.selves, p e = false) :
    (l.flatMap Node.elements).filter (·.test p) = [] := by
  refine List.filter_eq_nil_iff.2 fun node hnode htest => ?_
  obtain ⟨tree, htree, hnode⟩ := List.mem_flatMap.1 hnode
  cases node with
  | text content => cases htest
  | element self children =>
    have hself : self ∈ tree.selves := List.mem_filterMap.2 ⟨_, hnode, rfl⟩
    have htest : p self = true := htest
    rw [h self (List.mem_flatMap.2 ⟨tree, htree, hself⟩)] at htest
    cases htest

namespace Scene

variable {away : List Nat} {c : Canvas} {B : Backdrop} {content : Contents}

/-- Of the elements on the page only the container has its `id`. -/
theorem filter_container (h : Scene away c B content)
    (hcontent : ∀ k, ∀ e ∈ (content k).flatMap Node.selves, e.attribute? "id" = none)
    (k : EntityKind) :
    c.document.elements.filter (·.test fun e => e.attribute? "id" == some k.containerId) =
      [.element (B.container k) (content k)] := by
  generalize hp : (fun e : Element Nat Handler => e.attribute? "id" == some k.containerId) = p
  have hothers : ∀ e ∈ B.others, p e = false := by
    intro e he
    rw [← hp]
    exact beq_eq_false_iff_ne.2 ((h.plain.others e he).id k)
  have haround : ∀ l : List (Node Nat Handler), (∀ e ∈ l.flatMap Node.selves, e ∈ B.others) →
      (l.flatMap Node.elements).filter (·.test p) = [] := fun l hl =>
    filter_elements_eq_nil fun e he => hothers e (hl e he)
  have hinside : ∀ k', ((content k').flatMap Node.elements).filter (·.test p) = [] := by
    intro k'
    refine filter_elements_eq_nil fun e he => ?_
    rw [← hp]
    show (e.attribute? "id" == some k.containerId) = false
    rw [hcontent k' e he]
    rfl
  have hcontainer : ∀ k', p (B.container k') = decide (k' = k) := by
    intro k'
    rw [← hp]
    show ((B.container k').attribute? "id" == some k.containerId) = _
    rw [h.plain.id k']
    cases k' <;> cases k <;> decide
  have hhead := hothers B.head (by simp [Backdrop.others])
  have hbody := hothers B.body (by simp [Backdrop.others])
  have hmain := hothers B.main (by simp [Backdrop.others])
  have hinHead := haround B.inHead fun e he => by
    simp only [Backdrop.others, List.flatMap_append, List.mem_append]
    exact Or.inr (Or.inl (Or.inl he))
  have hheading := haround B.heading fun e he => by
    simp only [Backdrop.others, List.flatMap_append, List.mem_append]
    exact Or.inr (Or.inl (Or.inr he))
  have hrest := haround B.rest fun e he => by
    simp only [Backdrop.others, List.flatMap_append, List.mem_append]
    exact Or.inr (Or.inr he)
  have htest : ∀ self children, Node.test p (.element self children) = p self := fun _ _ => rfl
  simp only [Document.elements, Node.elementsAmong_eq, Document.trees, h.head, h.body,
    Option.toList_some, Backdrop.headTree, Backdrop.bodyTree, Node.elements, List.flatMap_cons,
    List.flatMap_nil, List.flatMap_append, List.append_nil, List.filter_append, List.filter_cons,
    htest, hhead, hbody, hmain, hinHead, hheading, hrest, hinside, hcontainer]
  cases k <;> simp

/-- What listens on the page is in one of the containers. -/
theorem exists_of_listener (h : Scene away c B content) {e : Element Nat Handler}
    (he : e ∈ c.document.trees.flatMap Node.selves) (hlistens : e.listeners ≠ []) :
    ∃ k, e ∈ (content k).flatMap Node.selves := by
  have hothers : e ∉ B.others := fun hmem => hlistens (h.plain.others e hmem).silent
  have hcontainer : ∀ k, e ≠ B.container k := by
    rintro k rfl
    exact hlistens (h.plain.silent k)
  simp only [Backdrop.others, List.flatMap_append, List.mem_append, List.mem_cons,
    List.not_mem_nil, or_false, not_or] at hothers
  simp only [Document.trees, h.head, h.body, Option.toList_some, Backdrop.headTree,
    Backdrop.bodyTree, List.flatMap_append, List.flatMap_cons, List.flatMap_nil,
    Node.selves_element, List.append_nil, List.mem_append, List.mem_cons] at he
  have hgroup := hcontainer .group
  have huser := hcontainer .user
  by_cases hin : e ∈ (content .group).flatMap Node.selves
  · exact ⟨.group, hin⟩
  · refine ⟨.user, ?_⟩
    tauto

end Scene

/-! ## From the invariant to the page -/

section

variable {away : List Nat} {latched : Control → Bool} {typed : List Nat} {slots : SlotMap Nat}

/-- Elements with distinct numbers stand for elements in distinct slots. -/
theorem nodup_of_stands {es : List (Element Nat Handler)}
    {ss : List (Element (Option Slot) Handler)}
    (h : List.Forall₂ (Stands slots latched typed) es ss) (hes : (es.map (·.mark)).Nodup) :
    (ss.filterMap (·.mark)).Nodup := by
  induction h with
  | nil => exact List.nodup_nil
  | @cons e s es ss hstands hrest ih =>
    rw [List.map_cons, List.nodup_cons] at hes
    cases hmark : s.mark with
    | none =>
      rw [List.filterMap_cons_none hmark]
      exact ih hes.2
    | some x =>
      rw [List.filterMap_cons_some hmark, List.nodup_cons]
      refine ⟨fun hmem => hes.1 ?_, ih hes.2⟩
      obtain ⟨s', hs', hmark'⟩ := List.mem_filterMap.1 hmem
      obtain ⟨e', he', hstands'⟩ := Node.exists_of_forall₂_right hrest hs'
      have hsame : e.mark = e'.mark := by
        rw [← Option.some.injEq, ← (hstands.slot x).1 hmark, (hstands'.slot x).1 hmark']
      rw [hsame]
      exact List.mem_map_of_mem he'

/-- No slot is drawn twice. -/
theorem Bearing.nodup_slots {l : Sketches} {c : Canvas} {B : Backdrop} {content : Contents}
    (h : Bearing away latched typed l c B content) :
    (Sketch.slots (l .group) ++ Sketch.slots (l .user)).Nodup := by
  have hbare : ∀ m : List (Node Nat Handler),
      ((c.view.bare m).flatMap Node.selves).Sublist (m.flatMap Node.selves) := by
    intro m
    unfold View.bare
    split
    · exact List.Sublist.refl _
    · exact Node.selves_pruneAmong_sublist _ m
  have hmarks : (((c.view.bare (content .group) ++
      c.view.bare (content .user)).flatMap Node.selves).map (·.mark)).Nodup := by
    have hnodup := (List.nodup_append.1 h.toScene.nodup).2.1
    rw [← Scene.map_mark_selves, ← Scene.map_mark_selves, ← List.map_append] at hnodup
    rw [List.flatMap_append]
    exact hnodup.sublist (((hbare _).append (hbare _)).map _)
  have hslots : ∀ m : List Sketch,
      Sketch.slots m = (m.flatMap Node.selves).filterMap (·.mark) := by
    intro m
    rw [Sketch.slots, show m.flatMap Node.marks = (m.flatMap Node.selves).map (·.mark) from ?_,
      List.filterMap_map]
    · rfl
    · rw [List.map_flatMap]
      rfl
  rw [hslots, hslots, ← List.filterMap_append, ← List.flatMap_append]
  exact nodup_of_stands ((h.like .group).append (h.like .user)).selves hmarks

/-- Dressing changes attributes only. -/
theorem exists_dress (latched : Control → Bool) (s : Element (Option Slot) Handler) :
    ∃ attributes, Sketch.dress latched s = { s with attributes } := by
  unfold Sketch.dress
  split
  · split
    · exact s.exists_setDisabled true
    · exact ⟨s.attributes, rfl⟩
  · exact ⟨s.attributes, rfl⟩

theorem tag_of_stands {e : Element Nat Handler} {s : Element (Option Slot) Handler}
    (h : Stands slots latched typed e s) : e.tag = s.tag := by
  obtain ⟨attributes, heq⟩ := exists_dress latched s
  rw [h.resembles.tag, heq]

theorem listeners_of_stands {e : Element Nat Handler} {s : Element (Option Slot) Handler}
    (h : Stands slots latched typed e s) : e.listeners = s.listeners := by
  obtain ⟨attributes, heq⟩ := exists_dress latched s
  rw [h.resembles.listeners, heq]

theorem panelCount_eq {l : List (Node Nat Handler)} {m : List Sketch}
    (h : LikeAll (Stands slots latched typed) l m) : panelCount l = panelCount m := by
  rw [panelCount, panelCount, List.countP_eq_length_filter, List.countP_eq_length_filter]
  refine (Node.forall₂_filter h.selves fun e s hstands => ?_).length_eq
  rw [closesPanel, closesPanel, tag_of_stands hstands, listeners_of_stands hstands]

/-- In distinct slots there is at most one for which the property panel is open. -/
theorem countP_isAnchor {l : List Slot} (hl : l.Nodup) (editor : Option Editor) :
    l.countP (Sketch.isAnchor editor) ≤ 1 ∧ (l.countP (Sketch.isAnchor editor) = 1 ↔
      ∃ e, editor = some e ∧ Slot.ofTarget e.target ∈ l) := by
  cases editor with
  | none =>
    have hzero : l.countP (Sketch.isAnchor none) = 0 :=
      List.countP_eq_zero.2 fun _ _ h => by cases h
    simp [hzero]
  | some e =>
    have hcount : l.countP (Sketch.isAnchor (some e)) = l.count (Slot.ofTarget e.target) := by
      rw [List.count]
      refine List.countP_congr fun x _ => ?_
      simp only [Sketch.isAnchor, Option.any_some, beq_iff_eq]
      exact eq_comm
    rw [hcount]
    refine ⟨List.nodup_iff_count_le_one.1 hl _, ?_⟩
    simp only [Option.some.injEq, exists_eq_left']
    constructor
    · intro h
      exact List.count_pos_iff.1 (by omega)
    · exact List.count_eq_one_of_mem hl

end

namespace App

/-- A page that is in sync with the panel shows what it knows. -/
theorem InSync.mirrors {typed : List Nat} {a : App} (h : a.InSync typed) :
    ∃ view content, a.Mirrors typed view content := by
  obtain ⟨view, hview, B, content, hbearing, hmounted⟩ := h.displays.shows
  have hscene := hbearing.toScene
  have hcontent : ∀ k, ∀ e ∈ (content k).flatMap Node.selves, e.attribute? "id" = none := by
    intro k e he
    obtain ⟨s, -, hstands⟩ := Node.exists_of_forall₂_left (hmounted k).selves he
    exact hstands.id_eq_none
  have harea : ∀ k, LikeAll (fun e s => (∀ x, s.mark = some x ↔ view.slots.get? x = some e.mark) ∧
      Resembles typed e s) (content k) (a.panel.area k) := by
    intro k
    rw [Panel.area_eq]
    refine (hmounted k).mapSelf_right fun e s hstands => ⟨fun x => ?_, hstands.resembles⟩
    rw [Sketch.mark_dress]
    exact hstands.slot x
  refine ⟨view, content, hview, fun k => ⟨_, hscene.filter_container hcontent k⟩, harea,
    ⟨labels_of_area_group (fun _ _ h => h.2.tag) (harea .group),
      labels_of_area_user (fun _ _ h => h.2.tag) (harea .user)⟩,
    fun x n hx => ?_, fun e he l hl m question hhandler => ?_, ?_⟩
  · obtain ⟨k, -, hmem⟩ := hbearing.exists_of_get? hx
    exact ⟨k, hmem⟩
  · obtain ⟨k, hk⟩ := hscene.exists_of_listener he (List.ne_nil_of_mem hl)
    obtain ⟨s, -, hstands⟩ := Node.exists_of_forall₂_left (hmounted k).selves hk
    rw [listeners_of_stands hstands] at hl
    obtain ⟨c, hc, hmark⟩ := hstands.neat.control l hl m question hhandler
    exact ⟨c, hc, hstands.resembles.isDisabled hstands.neat hmark⟩
  · have hcount : panelCount (content .group ++ content .user) =
        (Sketch.slots (a.panel.shown.area .group) ++
          Sketch.slots (a.panel.shown.area .user)).countP (Sketch.isAnchor a.panel.editor) := by
      rw [panelCount_eq ((hmounted .group).append (hmounted .user)), Sketch.panelCount_append,
        List.countP_append]
      exact congrArg₂ (· + ·) (Sketch.panelCount_mountAt _ _ _) (Sketch.panelCount_mountAt _ _ _)
    have hanchor := countP_isAnchor hbearing.nodup_slots a.panel.editor
    rw [hcount]
    refine ⟨hanchor.1, hanchor.2.trans (exists_congr fun e => and_congr_right fun _ => ?_)⟩
    exact (Panel.hasBlock_iff (Slot.ofTarget_ne_control e.target)).symm

/-- After `start` on a blank page and any happenings `xs` whose lists name nothing twice, `Mirrors`
holds: `#groups` and `#users` contain what `render_groups` and `render_users` would draw of the
state now, labels and the one property panel included; a control has the class `disabled` if and
only if `is_disabled` holds of it; and the registry of `AdminView` names just what is on the
page. -/
theorem mirrors_afterStart (words : Words) (b : Browser) (hwindow : b.window = true)
    (hdocument : b.document = true) (htimers : b.timers = []) (endpoint : Option Endpoint)
    (xs : List Happening) (hxs : ∀ x ∈ xs, x.Distinct) :
    ∃ view content, (afterStart words b .blank endpoint xs).Mirrors
      (xs.filterMap Happening.filled?) view content :=
  ((inSync_start words b hwindow hdocument htimers endpoint).runAll xs hxs).mirrors

/-- The socket opens, two groups are listed, the property panel of the first is opened by a click,
and then that group is deleted. -/
theorem mirrors_afterStart_listing :
    let b : Browser := { host := some "panel", protocol := some "http:" }
    let groups : List Entity := [.group ⟨"1", "Staff"⟩, .group ⟨"2", "Guests"⟩]
    let listing : Frame := ⟨.list, none, none, none, none, none, some (groups.map Entity.json)⟩
    let deletion : Frame := ⟨.delete, some "1", none, none, none, none, none⟩
    let xs : List Happening := [.socket 0 .opened, .receive listing,
      .gesture 10 { event := "click", kind := .mouse }, .receive deletion]
    (b.window = true ∧ b.document = true ∧ b.timers = []) ∧ (∀ x ∈ xs, x.Distinct) ∧
      ∃ view content, (afterStart { ahead := [] } b .blank none xs).Mirrors
        (xs.filterMap Happening.filled?) view content := by
  intro b groups listing deletion xs
  have hxs : ∀ x ∈ xs, x.Distinct := by
    intro x hx
    simp only [xs, List.mem_cons, List.not_mem_nil, or_false] at hx
    rcases hx with rfl | rfl | rfl | rfl
    · trivial
    · exact ⟨fun _ => by decide, nofun⟩
    · trivial
    · exact ⟨nofun, nofun⟩
  exact ⟨⟨rfl, rfl, rfl⟩, hxs, mirrors_afterStart _ b rfl rfl rfl none xs hxs⟩

end App

end RosterPanel
