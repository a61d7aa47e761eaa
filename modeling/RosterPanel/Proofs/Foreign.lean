import RosterPanel.Proofs.DrawingTwice
import RosterPanel.Proofs.Relaying

/-!
# What is foreign to property panels

Nothing but the property panel brings tables onto a page, and nothing else listens to changes of
fields or asks to update properties. Results:

* `Page.Element.Foreign`, `Page.Node.Foreign`, `Page.Document.Foreign`: that an element, a tree or
  a page is foreign to property panels.
* `Panel.foreign_areaPlacements`: blocks and buttons are foreign.
* `Canvas.foreign_putAll`, `Layout.foreign_mount`: what is foreign may be put on a page, and a page
  may be laid out.
-/

namespace RosterPanel

open Page (Document Element Node)
open Page.Node (Like)

/-! ## Foreign elements -/

/-- Whether a listener asks to update a property. -/
def Handler.updates : Handler → Bool
  | .commit _ _ | .post (.updateProperty _ _ _) | .control (.updateProperty _ _ _) _ => true
  | _ => false

namespace Page

variable {M : Type} {tables : List M}

/-- An element is foreign to property panels: it is no table, those with the marks in `tables`
aside, and nothing is updated there. -/
def Element.Foreign (tables : List M) (e : Element M Handler) : Prop :=
  (e.tag = "table" → e.mark ∈ tables) ∧
    ∀ l ∈ e.listeners, l.event ≠ "change" ∧ l.handler.updates = false

/-- Everything in a tree is foreign to property panels. -/
def Node.Foreign (tables : List M) (node : Node M Handler) : Prop :=
  ∀ e ∈ node.selves, e.Foreign tables

@[simp] theorem Node.foreign_text (content : String) :
    (Node.text content : Node M Handler).Foreign tables := by
  simp [Node.Foreign]

@[simp] theorem Node.foreign_element (self : Element M Handler) (children : List (Node M Handler)) :
    (Node.element self children).Foreign tables ↔
      self.Foreign tables ∧ ∀ child ∈ children, child.Foreign tables := by
  simp only [Node.Foreign, Node.selves_element, List.forall_mem_cons, List.mem_flatMap]
  exact and_congr_right fun _ =>
    ⟨fun h child hchild e he => h e ⟨child, hchild, he⟩,
      fun h e ⟨child, hchild, he⟩ => h child hchild e he⟩

/-- An element without listeners is foreign if it is no table. -/
theorem Element.foreign_of_silent {e : Element M Handler} (htag : e.tag ≠ "table")
    (hsilent : e.listeners = []) : e.Foreign tables :=
  ⟨fun htable => absurd htable htag, by simp [hsilent]⟩

/-- An element with the tag and the listeners of one that is no table. -/
theorem Element.Foreign.congr {N : Type} {e : Element N Handler} {e' : Element M Handler}
    (h : e.Foreign []) (htag : e'.tag = e.tag) (hlisteners : e'.listeners = e.listeners) :
    e'.Foreign tables := by
  refine ⟨fun htable => ?_, hlisteners ▸ h.2⟩
  cases h.1 (htag.symm.trans htable)

theorem Element.Foreign.setAttribute {e : Element M Handler} (h : e.Foreign tables)
    (name value : String) : (e.setAttribute name value).Foreign tables :=
  h

end Page

namespace Sketch

theorem foreign_textNodes (text : String) : ∀ s ∈ textNodes text, s.Foreign [] := by
  intro s hs
  unfold textNodes at hs
  split at hs
  · cases hs
  · rw [List.mem_singleton.1 hs]
    exact Node.foreign_text _

theorem foreign_icon (source className title : String) : (icon source className title).Foreign [] :=
  Element.foreign_of_silent (by rw [tag_icon]; decide) (listeners_icon _ _ _)

/-- A listener that updates nothing may be added. -/
theorem foreign_on {e : Element (Option Slot) Handler} (h : e.Foreign []) {event : String}
    (handler : Handler) (hchange : event ≠ "change") (hupdates : handler.updates = false) :
    (on e event handler).Foreign [] := by
  refine ⟨h.1, fun l hl => ?_⟩
  rcases List.mem_append.1 hl with hl | hl
  · exact h.2 l hl
  · rw [List.mem_singleton.1 hl]
    exact ⟨hchange, hupdates⟩

theorem foreign_controlled {e : Element (Option Slot) Handler} (h : e.Foreign []) (c : Control)
    (latched : Control → Bool) {m : Message} {question : Option String}
    (hupdates : (Handler.control m question).updates = false) :
    (controlled e c latched m question).Foreign [] := by
  refine ⟨fun htable => ?_, fun l hl => ?_⟩
  · cases h.1 ((look_controlled e c latched m question).1.symm.trans htable)
  rw [listeners_controlled, List.mem_append, List.mem_singleton] at hl
  rcases hl with hl | rfl
  · exact h.2 l hl
  · exact ⟨by simp, hupdates⟩

theorem foreign_styled {tag : String} (htag : tag ≠ "table") (className : String) :
    (styled tag className).Foreign [] :=
  Element.foreign_of_silent htag rfl

theorem foreign_inSlot {e : Element (Option Slot) Handler} (h : e.Foreign []) (x : Slot) :
    (inSlot e x).Foreign [] :=
  h.congr rfl rfl

theorem foreign_label (source nameClass name id : String) (target : Target) :
    ∀ s ∈ label source nameClass name id target, s.Foreign [] := by
  intro s hs
  rcases List.mem_cons.1 hs with rfl | hs
  · exact (Node.foreign_element _ _).2 ⟨foreign_icon _ _ _, List.forall_mem_nil _⟩
  rcases List.mem_cons.1 hs with rfl | hs
  · refine (Node.foreign_element _ _).2 ⟨?_, foreign_textNodes name⟩
    exact foreign_on (foreign_styled (by decide) _) (.post (.editProperties target)) (by decide) rfl
  · rw [List.mem_singleton.1 hs]
    exact (Node.foreign_element _ _).2 ⟨foreign_styled (by decide) _, foreign_textNodes _⟩

/-- A block that consists of a label and an icon. -/
theorem foreign_block {root e : Element (Option Slot) Handler} (hroot : root.Foreign [])
    (he : e.Foreign []) (source nameClass name id : String) (target : Target) :
    Node.Foreign [] (.element root (label source nameClass name id target ++ [.element e []])) := by
  refine (Node.foreign_element _ _).2 ⟨hroot, fun s hs => ?_⟩
  rcases List.mem_append.1 hs with hs | hs
  · exact foreign_label _ _ _ _ _ s hs
  · rw [List.mem_singleton.1 hs]
    exact (Node.foreign_element _ _).2 ⟨he, List.forall_mem_nil _⟩

theorem foreign_groupBlock (latched : Control → Bool) (g : Group) :
    (groupBlock latched g).Foreign [] := by
  have hroot := foreign_styled (by decide : "div" ≠ "table") ("nested top group " ++ g.id ++ "_")
  have hover := foreign_on hroot .hover (by decide : "dragover" ≠ "change") rfl
  have hleave := foreign_on hover .leave (by decide : "dragleave" ≠ "change") rfl
  have hdrop := foreign_on hleave (.dropOn g.id) (by decide : "drop" ≠ "change") rfl
  have hicon := foreign_icon "icon/group_delete.png" deleteClass ("Delete Group " ++ g.id)
  exact foreign_block (foreign_inSlot hdrop _) (foreign_controlled hicon _ _ rfl) _ _ _ _ _

theorem foreign_memberBlock (groupId : String) (u : User) : (memberBlock groupId u).Foreign [] := by
  have hroot := foreign_styled (by decide : "div" ≠ "table") ("nested user " ++ u.id ++ "_")
  have hicon := foreign_icon "icon/user_delete.png" deleteClass
    ("Remove user " ++ u.id ++ " from group " ++ groupId)
  have hclick := foreign_on hicon (.post (.removeUser u.id groupId))
    (by decide : "click" ≠ "change") rfl
  exact foreign_block (foreign_inSlot hroot _) hclick _ _ _ _ _

theorem foreign_userBlock (latched : Control → Bool) (u : User) :
    (userBlock latched u).Foreign [] := by
  have hroot := foreign_styled (by decide : "div" ≠ "table") ("nested user " ++ u.id ++ "_")
  have hdrag := foreign_on (hroot.setAttribute "draggable" "true") (.carryUser u.id)
    (by decide : "dragstart" ≠ "change") rfl
  have hicon := foreign_icon "icon/delete.png" deleteClass ("Delete user " ++ u.id)
  exact foreign_block (foreign_inSlot hdrag _) (foreign_controlled hicon _ _ rfl) _ _ _ _ _

theorem foreign_addButton (className source caption : String) (c : Control)
    (latched : Control → Bool) {m : Message}
    (hupdates : (Handler.control m none).updates = false) :
    (addButton className source caption c latched m).Foreign [] := by
  refine (Node.foreign_element _ _).2 ⟨?_, fun s hs => ?_⟩
  · exact foreign_controlled (foreign_styled (by decide) _) c latched hupdates
  · rcases List.mem_cons.1 hs with rfl | hs
    · exact (Node.foreign_element _ _).2 ⟨foreign_icon _ _ _, List.forall_mem_nil _⟩
    · rw [List.mem_singleton.1 hs]
      exact Node.foreign_text _

end Sketch

namespace Panel

theorem foreign_memberPlacements (p : Panel) (groupId : String) :
    ∀ x ∈ p.memberPlacements groupId, x.sketch.Foreign [] := by
  intro x hx
  obtain ⟨u, -, rfl⟩ := List.mem_map.1 hx
  exact Sketch.foreign_memberBlock groupId u

/-- All that is drawn into the containers, the property panel aside, is foreign to it. -/
theorem foreign_areaPlacements (p : Panel) (k : EntityKind) :
    ∀ x ∈ p.areaPlacements k, x.sketch.Foreign [] := by
  intro x hx
  cases k with
  | group =>
    rcases List.mem_append.1 hx with hx | hx
    · obtain ⟨g, -, hx⟩ := List.mem_flatMap.1 hx
      rcases List.mem_cons.1 hx with rfl | hx
      · exact Sketch.foreign_groupBlock _ g
      · exact p.foreign_memberPlacements g.id x hx
    · split at hx
      · cases hx
      · rw [List.mem_singleton.1 hx]
        exact Sketch.foreign_addButton _ _ _ _ _ rfl
  | user =>
    rcases List.mem_append.1 hx with hx | hx
    · obtain ⟨u, -, rfl⟩ := List.mem_map.1 hx
      exact Sketch.foreign_userBlock _ u
    · split at hx
      · cases hx
      · rw [List.mem_singleton.1 hx]
        exact Sketch.foreign_addButton _ _ _ _ _ rfl

end Panel

/-! ## Pages without a property panel -/

namespace Page

variable {M : Type} {tables : List M}

theorem Node.Foreign.prune {node : Node M Handler} (h : node.Foreign tables)
    (p : Element M Handler → Bool) : (node.prune p).Foreign tables :=
  fun e he => h e ((Node.selves_prune_sublist p node).subset he)

/-- Adding what is foreign to the children of an element, when all that will not be taken out is
foreign. -/
theorem Node.Foreign.prune_adjust {node added : Node M Handler} {p q : Element M Handler → Bool}
    (h : (node.prune p).Foreign tables) (hadded : added.Foreign tables)
    {g : List (Node M Handler) → List (Node M Handler)}
    (hg : ∀ l, ∀ x ∈ g l, x ∈ l ∨ x = added) :
    ((node.adjust q fun self children => .element self (g children)).prune p).Foreign tables := by
  induction node with
  | text content => exact h
  | element self children ih =>
    rw [Node.prune, pruneAmong_eq, foreign_element] at h
    have hkept : ∀ child ∈ children, child.test p = false → (child.prune p).Foreign tables :=
      fun child hchild htest =>
        h.2 _ (List.mem_map_of_mem (List.mem_filter.2 ⟨hchild, by simp [htest]⟩))
    unfold Node.adjust
    split
    all_goals
      rw [Node.prune, pruneAmong_eq, foreign_element]
      refine ⟨h.1, fun child hchild => ?_⟩
      obtain ⟨x, hx, rfl⟩ := List.mem_map.1 hchild
      obtain ⟨hx, htest⟩ := List.mem_filter.1 hx
    · rcases hg _ x hx with hx | rfl
      · exact hkept x hx (by simpa using htest)
      · exact hadded.prune p
    · rw [adjustAmong_eq] at hx
      obtain ⟨old, hold, rfl⟩ := List.mem_map.1 hx
      refine ih old hold (hkept old hold ?_)
      cases old with
      | text content => rfl
      | element root inner =>
        unfold Node.adjust at htest
        split at htest <;> simpa [Node.test] using htest

theorem Node.Foreign.adjust_children {node added : Node M Handler} (h : node.Foreign tables)
    (hadded : added.Foreign tables) {p : Element M Handler → Bool}
    {g : List (Node M Handler) → List (Node M Handler)}
    (hg : ∀ l, ∀ x ∈ g l, x ∈ l ∨ x = added) :
    (node.adjust p fun self children => .element self (g children)).Foreign tables := by
  have hnone : ∀ tree : Node M Handler, tree.prune (fun _ => false) = tree := fun tree =>
    Node.prune_eq_self fun _ _ => rfl
  rw [← hnone (node.adjust _ _)]
  exact Node.Foreign.prune_adjust ((hnone node).symm ▸ h) hadded hg

theorem Node.Foreign.mapSelf {node : Node M Handler} (h : node.Foreign tables)
    {g : Element M Handler → Element M Handler}
    (hg : ∀ e, e.Foreign tables → (g e).Foreign tables) :
    (node.mapSelf g).Foreign tables := by
  intro e he
  rw [Node.selves_mapSelf] at he
  obtain ⟨x, hx, rfl⟩ := List.mem_map.1 he
  exact hg x (h x hx)

/-- Everything on a page is foreign to property panels. -/
def Document.Foreign (tables : List Nat) (d : Document Handler) : Prop :=
  ∀ tree ∈ d.trees, tree.Foreign tables

/-- A page without listeners is foreign to property panels, with the tables that are on it. -/
theorem Document.Silent.foreign {d : Document Handler} (h : d.Silent) : d.Foreign d.numbers := by
  intro tree htree e he
  have hin : tree ∈ d.all := List.mem_append_left _ htree
  refine ⟨fun _ => List.mem_flatMap.2 ⟨tree, hin, List.mem_map_of_mem he⟩, fun l hl => ?_⟩
  exact (h tree hin l.handler (List.mem_flatMap.2 ⟨e, he, List.mem_map_of_mem hl⟩)).elim

theorem Document.Foreign.mapTrees {tables : List Nat} {d : Document Handler} (h : d.Foreign tables)
    {f : Node Nat Handler → Node Nat Handler} (hf : ∀ tree : Node Nat Handler,
      tree.Foreign tables → (f tree).Foreign tables) : (d.mapTrees f).Foreign tables := by
  intro tree htree
  rw [trees_mapTrees] at htree
  obtain ⟨old, hold, rfl⟩ := List.mem_map.1 htree
  exact hf old (h old hold)

end Page

theorem Page.Document.foreign_entered {tables : List Nat} (d : Document Handler) {s : Sketch}
    (hs : s.Foreign []) :
    ((d.enter s).1.mapMark (·.2)).Foreign tables := by
  have hlike : Like (fun e s => e.tag = s.tag ∧ e.listeners = s.listeners)
      ((d.enter s).1.mapMark (·.2)) s := Node.like_number s d.fresh fun e _ => ⟨rfl, rfl⟩
  intro e he
  obtain ⟨x, hx, htag, hlisteners⟩ := Node.exists_of_forall₂_left hlike.selves he
  exact (hs x hx).congr htag hlisteners

namespace Canvas

variable {c : Canvas} {tables : List Nat}

theorem foreign_put (h : c.document.Foreign tables) {x : Placement} (hx : x.sketch.Foreign []) :
    (c.put x).document.Foreign tables := by
  unfold put
  split
  · exact h
  · have hentered : Document.Foreign tables { c.document with
        fresh := (x.sketch.number c.document.fresh).2 } := h
    refine hentered.mapTrees fun tree htree => ?_
    exact htree.adjust_children (c.document.foreign_entered hx) fun l y hy =>
      (List.mem_append.1 hy).imp_right List.mem_singleton.1

theorem foreign_putAll (h : c.document.Foreign tables) {xs : List Placement}
    (hxs : ∀ x ∈ xs, x.sketch.Foreign []) : (c.putAll xs).document.Foreign tables := by
  induction xs generalizing c with
  | nil => exact h
  | cons x rest ih =>
    rw [List.forall_mem_cons] at hxs
    exact ih (foreign_put h hxs.1) hxs.2

end Canvas

/-! ## Laying out a page -/

namespace Layout

variable {d d' : Document Handler} {tables : List Nat}

theorem foreign_put (h : d.Foreign tables) (parent : Nat) {s : Sketch} (hs : s.Foreign []) :
    (put d parent s).2.Foreign tables := by
  have hentered : (d.enter s).2.Foreign tables := h
  refine hentered.mapTrees fun tree htree => ?_
  exact htree.adjust_children (d.foreign_entered hs) fun l y hy =>
    (List.mem_append.1 hy).imp_right List.mem_singleton.1

theorem foreign_ensureStyles (h : d.Foreign tables) {id : String} {rules : List StyleRule}
    (hd' : ensureStyles? d id rules = some d') : d'.Foreign tables := by
  unfold ensureStyles? at hd'
  split at hd'
  · exact Option.some.inj hd' ▸ h
  · obtain ⟨parent, -, rfl⟩ := Option.map_eq_some_iff.1 hd'
    refine foreign_put h parent ((Node.foreign_element _ _).2 ⟨?_, by simp⟩)
    exact Element.foreign_of_silent (by decide : "style" ≠ "table") rfl

theorem foreign_ensureMain (h : d.Foreign tables) {main : Nat}
    (hd' : ensureMain? d = some (main, d')) : d'.Foreign tables := by
  unfold ensureMain? at hd'
  split at hd'
  · cases hd'
    exact h
  · obtain ⟨parent, -, heq⟩ := Option.map_eq_some_iff.1 hd'
    have harea : mainArea.Foreign [] := by
      intro e he
      have hsilent : ∀ e ∈ mainArea.selves, e.tag ≠ "table" ∧ e.listeners.isEmpty = true := by
        decide
      exact Element.foreign_of_silent (hsilent e he).1 (List.isEmpty_iff.1 (hsilent e he).2)
    have hput := foreign_put h parent harea
    rwa [heq] at hput

theorem foreign_ensureContainer (h : d.Foreign tables) (main : Nat) (id : String) :
    (ensureContainer d main id).2.Foreign tables := by
  unfold ensureContainer
  split
  · exact h
  · refine foreign_put h main ((Node.foreign_element _ _).2 ⟨?_, List.forall_mem_nil _⟩)
    exact Element.foreign_of_silent (by decide : "div" ≠ "table") rfl

/-- Nothing that a page is laid out with is like a property panel. -/
theorem foreign_mount (h : d.Foreign tables) : (mount d).2.Foreign tables := by
  unfold mount
  split
  · exact h
  · next d₁ hstyles =>
    have h₁ := foreign_ensureStyles h hstyles
    split
    · exact h₁
    · next main d₂ hmain =>
      have h₂ := foreign_ensureMain h₁ hmain
      exact foreign_ensureContainer (foreign_ensureContainer h₂ main "groups") main "users"

end Layout

end RosterPanel
