import RosterPanel.Proofs.Decoration
import RosterPanel.Proofs.Foreign
import RosterPanel.Proofs.Page.Hanging
import RosterPanel.Proofs.RepeatedDrawing

/-!
# The mounted property panel

Whatever is drawn, and in whatever order, the property panel that is on the page hangs below the
block of its target and shows the properties that the panel knows, and nothing else on the page is
like it. Lists that name something twice make no difference here. Results:

* `Canvas.Holds`: a canvas holds the property panel for an editor as far as its block is there.
* `Canvas.Holds.draw`: drawing keeps that, and drawing the property panel brings it about.
* `Canvas.Holds.adjust`, `Canvas.Holds.display`, `Canvas.Holds.dismiss`: so does what else happens
  on a page: changing an element, notices, and taking them off.
-/

namespace RosterPanel

open Page (Document Element Node)
open Page.Document (hasMark)
open Page.Node (Like)

theorem Layout.exists_root {tree : Option (Node Nat Handler)} {n : Nat}
    (h : rootNumber? tree = some n) :
    ∃ root, tree = some root ∧ root.element?.map (·.mark) = some n := by
  cases tree with
  | none => cases h
  | some root => exact ⟨root, rfl, h⟩

/-- What is put into a root is on the page. -/
theorem Layout.mem_put {d : Document Handler} {tree : Node Nat Handler} (htree : tree ∈ d.trees)
    {parent : Nat} (hparent : tree.element?.map (·.mark) = some parent)
    (self : Element (Option Slot) Handler) (children : List Sketch) :
    self.setMark d.fresh ∈
      (put d parent (.element self children)).2.trees.flatMap Node.selves := by
  have hin : parent ∈ tree.marks := by
    cases tree with
    | text content => cases hparent
    | element root inner =>
      rw [← Option.some.inj hparent, Node.marks_element]
      exact List.mem_cons_self
  have hhangs := Node.hangs_adjust_append
    ((d.enter (.element self children)).1.mapMark (·.2)) hin
  refine List.mem_flatMap.2 ⟨_, ?_, hhangs.selves_subset ?_⟩
  · exact (Document.trees_mapTrees _ _).symm ▸ List.mem_map_of_mem htree
  · exact List.mem_cons_self

theorem Notice.foreign_sketch (kind : NoticeKind) (text : String) :
    (Notice.sketch kind text).Foreign [] := by
  refine (Node.foreign_element _ _).2 ⟨?_, Sketch.foreign_textNodes text⟩
  exact Element.foreign_of_silent (by cases kind <;> decide) (by cases kind <;> rfl)

namespace Canvas

variable {c : Canvas}

theorem trees_unmount (c : Canvas) : c.unmount.document.trees =
    c.document.trees.map (Node.prune fun e => c.view.editor.toList.contains e.mark) :=
  Document.trees_mapTrees _ _

theorem foreign_unmount_iff {tables : List Nat} : c.unmount.document.Foreign tables ↔
    ∀ tree ∈ c.document.trees,
      (tree.prune fun e => c.view.editor.toList.contains e.mark).Foreign tables := by
  rw [Document.Foreign, trees_unmount, List.forall_mem_map]

theorem mem_shown_iff {n : Nat} : n ∈ c.shown ↔ ∃ tree ∈ c.document.trees, n ∈ tree.marks :=
  List.mem_flatMap

/-- What is on a page all of whose trees are changed. -/
theorem mem_shown_of_trees {c' : Canvas} {f : Node Nat Handler → Node Nat Handler}
    (htrees : c'.document.trees = c.document.trees.map f) {n : Nat} :
    n ∈ c'.shown ↔ ∃ tree ∈ c.document.trees, n ∈ (f tree).marks := by
  rw [shown, htrees, List.flatMap_map, List.mem_flatMap]

/-- Putting something new among the children of an element brings nothing back. -/
theorem mem_shown_of_insert {c' : Canvas} {s : Sketch} {parent : Nat}
    {g : List (Node Nat Handler) → List (Node Nat Handler)}
    (hg : ∀ l, ∀ x ∈ g l, x ∈ l ∨ x = c.entered s)
    (htrees : c'.document.trees = c.document.trees.map
      (Node.adjust (hasMark parent) fun self children => .element self (g children)))
    {n : Nat} (hn : n < c.document.fresh) (hmem : n ∈ c'.shown) : n ∈ c.shown := by
  obtain ⟨tree, htree, hmem⟩ := (mem_shown_of_trees htrees).1 hmem
  obtain ⟨x, hx, rfl⟩ := List.mem_map.1 hmem
  have hnew : ∀ self children, x ∈ (Node.element self (g children)).selves →
      x ∈ (Node.element self children).selves ∨ x ∈ (c.entered s).selves := by
    intro self children hx
    rw [Node.selves_element, List.mem_cons, List.mem_flatMap] at hx ⊢
    rcases hx with hx | ⟨y, hy, hx⟩
    · exact Or.inl (Or.inl hx)
    · rcases hg children y hy with hy | rfl
      · exact Or.inl (Or.inr ⟨y, hy, hx⟩)
      · exact Or.inr hx
  rcases Node.mem_selves_adjust hnew hx with hx | hx
  · exact mem_shown_iff.2 ⟨tree, htree, List.mem_map_of_mem hx⟩
  · exact absurd hn (Nat.not_lt_of_le (le_of_mem_entered (List.mem_map_of_mem hx)))

theorem fresh_le_mounted (c : Canvas) (p : Panel) :
    c.document.fresh ≤ (c.mounted p).document.fresh := by
  unfold mounted
  split
  · exact Nat.le_refl _
  · next e _ =>
    split
    · exact Nat.le_refl _
    · exact Node.le_number (Sketch.propertyPanel e) c.document.fresh

/-! ## The property panel on a canvas -/

/-- The property panel for an editor is on the page, below the element with the number `anchor`: it
is the tree `t`, whose numbers nothing else goes by. -/
structure Carries (typed away : List Nat) (e : Editor) (anchor : Nat) (t : Node Nat Handler)
    (c : Canvas) : Prop where
  like : Like (Resembles typed) t (Sketch.propertyPanel e)
  root : t.element?.map (·.mark) = c.view.editor
  hangs : ∃ tree ∈ c.document.trees, Node.Hangs anchor t tree
  apart : ∀ n ∈ away, n ∉ t.marks
  slots : ∀ x ∈ c.view.slots.entries, x.2 ∉ t.marks

/-- A canvas holds the property panel for an editor: it is on the page if the block for its target
is, and all else on the page, some old tables aside, is foreign to it. The numbers in `away` are of
elements that will be taken off. -/
structure Holds (tables typed away : List Nat) (editor : Option Editor) (c : Canvas) : Prop where
  orderly : c.Orderly
  bound : ∀ n ∈ away, n < c.document.fresh
  foreign : c.unmount.document.Foreign tables
  carries : ∀ e anchor, editor = some e → c.slot? (Slot.ofTarget e.target) = some anchor →
    anchor ∈ c.shown → ∃ t, c.Carries typed away e anchor t

namespace Carries

variable {typed away : List Nat} {e : Editor} {anchor : Nat} {t : Node Nat Handler}

/-- A property panel that was just put on a page. -/
theorem of_place {base : Canvas} (hbase : base.Orderly) (hanchor : anchor ∈ base.shown)
    (haway : ∀ n ∈ away, n < base.document.fresh)
    (htrees : c.document.trees = (base.place anchor (Sketch.propertyPanel e)).2.document.trees)
    (heditor : c.view.editor = some base.document.fresh) (hslots : c.view.slots = base.view.slots) :
    c.Carries typed away e anchor (base.entered (Sketch.propertyPanel e)) := by
  have hnew : ∀ n < base.document.fresh, n ∉ (base.entered (Sketch.propertyPanel e)).marks :=
    fun n hn hmem => absurd hn (Nat.not_lt_of_le (le_of_mem_entered hmem))
  obtain ⟨tree, htree, hmem⟩ := mem_shown_iff.1 hanchor
  refine ⟨?_, heditor.symm, ⟨tree.adjust (hasMark anchor) fun self children =>
    .element self (children ++ [base.entered (Sketch.propertyPanel e)]), ?_,
    Node.hangs_adjust_append _ hmem⟩, fun n hn => hnew n (haway n hn), fun x hx => ?_⟩
  · show Like _ (((Sketch.propertyPanel e).number base.document.fresh).1.mapMark (·.2)) _
    exact Node.like_number _ _ fun e _ => Resembles.of_setMark e _ _
  · rw [htrees]
    exact (Document.trees_mapTrees _ _).symm ▸ List.mem_map_of_mem htree
  · exact hnew x.2 (hbase.view.slots x (hslots ▸ hx))

/-- The roots of a page are not in the property panel. -/
theorem notMem_root (h : c.Carries typed away e anchor t) (hsound : c.document.Sound) {n : Nat}
    (hn : ∃ tree ∈ c.document.trees, tree.element?.map (·.mark) = some n) : n ∉ t.marks := by
  obtain ⟨tree, htree, hhangs⟩ := h.hangs
  obtain ⟨tree', htree', hroot⟩ := hn
  obtain ⟨self, hself, rfl⟩ := Option.map_eq_some_iff.1 hroot
  cases tree' with
  | text content => cases hself
  | element root children =>
    cases hself
    intro hmem
    obtain rfl := Node.eq_of_mem_marks hsound.nodup_trees htree htree'
      (hhangs.marks_subset hmem) (by simp)
    exact hhangs.root_notMem (hsound.nodup_tree htree) hmem

/-- Elements with an `id` are not in the property panel. -/
theorem notMem_of_id (h : c.Carries typed away e anchor t) (hsound : c.document.Sound)
    {x : Element Nat Handler} (hx : x ∈ c.document.trees.flatMap Node.selves)
    (hid : (x.attribute? "id").isSome) : x.mark ∉ t.marks := by
  intro hmem
  obtain ⟨tree, htree, hhangs⟩ := h.hangs
  obtain ⟨y, hy, hmark⟩ := List.mem_map.1 hmem
  have hin : y ∈ c.document.trees.flatMap Node.selves :=
    List.mem_flatMap.2 ⟨tree, htree, hhangs.selves_subset hy⟩
  have hnodup : ((c.document.trees.flatMap Node.selves).map (·.mark)).Nodup := by
    rw [List.map_flatMap]
    exact hsound.nodup_trees
  obtain rfl := List.inj_on_of_nodup_map hnodup hin hx hmark
  obtain ⟨s, hs, hres⟩ := Node.exists_of_forall₂_left h.like.selves hy
  rw [hres.attributes "id" (by decide), (Sketch.neat_propertyPanel e s hs).1.id] at hid
  cases hid

/-- Only the property panel bears the number that is remembered for it. -/
theorem eq_of_test (h : c.Carries typed away e anchor t) (hsound : c.document.Sound)
    {tree inner : Node Nat Handler} (htree : tree ∈ c.document.trees)
    (hinner : inner ∈ tree.elements)
    (htest : inner.test (fun e => c.view.editor.toList.contains e.mark) = true) : inner = t := by
  obtain ⟨home, hhome, hhangs⟩ := h.hangs
  cases inner with
  | text content => cases htest
  | element self children =>
    have hself : c.view.editor = some self.mark :=
      Option.mem_toList.1 (List.contains_iff_mem.1 htest)
    obtain ⟨root, hroot, hmark⟩ := Option.map_eq_some_iff.1 (h.root.trans hself)
    cases t with
    | text content => cases hroot
    | element root' inside =>
      obtain rfl : root' = root := Option.some.inj hroot
      have hmem : Node.element root' inside ∈ home.elements :=
        hhangs.elements_subset List.mem_cons_self
      have hsame : self.mark ∈ home.marks := hmark ▸ Node.mark_mem_marks hmem
      obtain rfl := Node.eq_of_mem_marks hsound.nodup_trees htree hhome
        (Node.mark_mem_marks hinner) hsame
      exact Node.eq_of_mark_eq (hsound.nodup_tree htree) hinner hmem (congrArg some hmark.symm)

/-- Changing elements all over a page, their children aside. -/
theorem mapSelf (h : c.Carries typed away e anchor t) {c' : Canvas} {typed' : List Nat}
    {g : Element Nat Handler → Element Nat Handler} (hg : ∀ x, (g x).mark = x.mark)
    (hview : c'.view = c.view)
    (htrees : c'.document.trees = c.document.trees.map (Node.mapSelf g))
    (hresembles : ∀ x ∈ t.selves, ∀ s, Resembles typed x s → Resembles typed' (g x) s) :
    c'.Carries typed' away e anchor (t.mapSelf g) := by
  refine ⟨?_, ?_, ?_, fun n hn => ?_, fun x hx => ?_⟩
  · have hlike : Like (fun x s => Resembles typed' (g x) s) t (Sketch.propertyPanel e) :=
      h.like.imp_of_mem fun x hx s _ hres => hresembles x hx s hres
    have hmap := hlike.mapSelf (f := g) (g := fun s => s) fun x s hres => hres
    rwa [Node.mapSelf_eq_self fun _ _ => rfl] at hmap
  · rw [hview, ← h.root]
    cases t with
    | text content => simp
    | element self children => simpa [Node.element?] using hg self
  · obtain ⟨tree, htree, hhangs⟩ := h.hangs
    exact ⟨_, htrees ▸ List.mem_map_of_mem htree, hhangs.mapSelf hg⟩
  · rw [Node.marks_mapSelf hg]
    exact h.apart n hn
  · rw [Node.marks_mapSelf hg]
    exact h.slots x (hview ▸ hx)

/-- What takes nothing of the property panel and not the block above it leaves it where it is. -/
theorem hangs_prune (h : c.Carries typed away e anchor t) (hsound : c.document.Sound)
    {c' : Canvas} {p : Element Nat Handler → Bool}
    (htrees : c'.document.trees = c.document.trees.map (Node.prune p))
    (hspared : ∀ x ∈ t.selves, p x = false) (hanchor : anchor ∈ c'.shown) :
    ∃ tree ∈ c'.document.trees, Node.Hangs anchor t tree := by
  obtain ⟨tree, htree, hhangs⟩ := h.hangs
  obtain ⟨other, hother, hin⟩ := (mem_shown_of_trees htrees).1 hanchor
  have hsub := List.map_subset (·.mark) (Node.selves_prune_sublist p other).subset
  obtain rfl := Node.eq_of_mem_marks hsound.nodup_trees hother htree (hsub hin) hhangs.mem_marks
  exact ⟨_, htrees ▸ List.mem_map_of_mem htree,
    hhangs.prune (hsound.nodup_tree htree) hspared hin⟩

end Carries

namespace Holds

variable {tables typed away : List Nat} {editor : Option Editor}

/-- Nothing is said of a property panel that is not there. -/
theorem closed (h : c.Holds tables typed away editor) : c.Holds tables typed away none :=
  ⟨h.orderly, h.bound, h.foreign, nofun⟩

/-! ### Drawing -/

/-- Mounting the property panel on a page without one. -/
theorem of_mounted {base : Canvas} {p : Panel} (horderly : c.Orderly)
    (hpage : c.page = base.mounted p) (hbase : base.Orderly) (hnone : base.view.editor = none)
    (hforeign : base.document.Foreign tables) (haway : ∀ n ∈ away, n < base.document.fresh) :
    c.Holds tables typed away p.editor := by
  have hview : c.view = (base.mounted p).view := congrArg (·.view) hpage
  have htrees : c.document.trees = (base.mounted p).document.trees :=
    congrArg (·.document.trees) hpage
  have hfresh : c.document.fresh = (base.mounted p).document.fresh :=
    congrArg (·.document.fresh) hpage
  refine ⟨horderly, fun n hn => ?_, ?_, fun e anchor heditor hslot hanchor => ?_⟩
  · rw [hfresh]
    exact Nat.lt_of_lt_of_le (haway n hn) (base.fresh_le_mounted p)
  · obtain ⟨gap, hgap⟩ := hbase.unmount_mounted hnone p
    have hpage' : c.page.unmount.document.trees = (base.ahead gap).document.trees := by
      rw [hpage, hgap]
    have hsame : c.unmount.document.trees = base.document.trees := hpage'
    rw [Document.Foreign, hsame]
    exact hforeign
  · have hslots : c.view.slots = base.view.slots := by rw [hview, slots_mounted]
    have hbaseSlot : base.slot? (Slot.ofTarget e.target) = some anchor := by
      rw [slot?, ← hslots]
      exact hslot
    have hlt : anchor < base.document.fresh := hbase.view.slots _ (SlotMap.mem_of_get? hbaseSlot)
    have hmounted : base.mounted p = { (base.place anchor (Sketch.propertyPanel e)).2 with
        view := { (base.place anchor (Sketch.propertyPanel e)).2.view with
          editor := some base.document.fresh } } := by
      simp only [mounted, heditor, hbaseSlot]
      rfl
    refine ⟨_, .of_place hbase ?_ haway ?_ ?_ hslots⟩
    · rw [← mem_shown_mounted hlt p, shown, ← htrees]
      exact hanchor
    · rw [htrees, hmounted]
    · rw [hview, hmounted]

theorem drawProperties (h : c.Holds tables typed away editor) (p : Panel) :
    (c.drawProperties p).Holds tables typed away p.editor :=
  of_mounted (h.orderly.drawProperties p) (page_drawProperties h.orderly.sound p)
    h.orderly.page.unmount rfl h.foreign h.bound

theorem drawArea (h : c.Holds tables typed away editor) (p : Panel) (k : EntityKind) :
    (c.drawArea p k).Holds tables typed away p.editor := by
  have hemptied : (c.page.unmount.emptied k).document.Foreign tables :=
    h.foreign.mapTrees fun tree htree =>
      htree.adjust_children (Node.foreign_text "") fun l x hx => by cases hx
  refine of_mounted (h.orderly.drawArea p k) (h.orderly.page_drawArea p k)
    ((h.orderly.page.unmount.emptied k).putAll _) (editor_putAll _ _)
    (foreign_putAll hemptied (p.foreign_areaPlacements k)) fun n hn => ?_
  exact Nat.lt_of_lt_of_le (h.bound n hn) (fresh_le_putAll (c.page.unmount.emptied k) _)

theorem drawMembers (h : c.Holds tables typed away editor) (p : Panel) (groupId : String)
    {n : Nat} (hn : c.slot? (.group groupId) = some n) :
    (c.drawMembers p groupId).Holds tables typed away p.editor := by
  have hstripped : (c.page.unmount.stripped groupId).document.Foreign tables :=
    h.foreign.mapTrees fun tree htree => htree.prune _
  refine of_mounted (h.orderly.drawMembers p groupId) (h.orderly.page_drawMembers p hn)
    ((h.orderly.page.unmount.stripped groupId).putAll _) (editor_putAll _ _)
    (foreign_putAll hstripped (p.foreign_memberPlacements groupId)) fun n hn => ?_
  exact Nat.lt_of_lt_of_le (h.bound n hn) (fresh_le_putAll (c.page.unmount.stripped groupId) _)

/-! ### What else happens on a page -/

/-- A step that leaves what is remembered alone. -/
theorem step {c' : Canvas} {typed' away' : List Nat} (h : c.Holds tables typed away editor)
    (horderly : c'.Orderly) (hbound : ∀ n ∈ away', n < c'.document.fresh)
    (hforeign : c'.unmount.document.Foreign tables) (hview : c'.view = c.view)
    (hshown : ∀ n < c.document.fresh, n ∈ c'.shown → n ∈ c.shown)
    (hcarries : ∀ e anchor t, c.Carries typed away e anchor t → anchor ∈ c'.shown →
      ∃ t', c'.Carries typed' away' e anchor t') : c'.Holds tables typed' away' editor := by
  refine ⟨horderly, hbound, hforeign, fun e anchor heditor hslot hanchor => ?_⟩
  rw [slot?, hview] at hslot
  have hlt := h.orderly.view.slots _ (SlotMap.mem_of_get? hslot)
  obtain ⟨t, ht⟩ := h.carries e anchor heditor hslot (hshown anchor hlt hanchor)
  exact hcarries e anchor t ht hanchor

/-- Changing an element, its children aside, so that it still shows what it should, unless it is
remembered and so in no property panel. -/
theorem adjust (h : c.Holds tables typed away editor) {typed' : List Nat} (n : Nat)
    {f : Element Nat Handler → Element Nat Handler} (hmark : ∀ e, (f e).mark = e.mark)
    (hforeign : ∀ e, e.Foreign tables → (f e).Foreign tables) (hsub : typed ⊆ typed')
    (hresembles : (∀ x ∈ c.view.slots.entries, x.2 ≠ n) → ∀ e s, e.mark = n →
      Resembles typed' e s → Resembles typed' (f e) s) :
    Canvas.Holds tables typed' away editor { c with document := c.document.adjustElement n f } := by
  let g : Element Nat Handler → Element Nat Handler := fun e => if e.mark = n then f e else e
  have hg : ∀ e, (g e).mark = e.mark := Document.mark_ite hmark
  have htrees := h.orderly.sound.trees_adjustElement n f
  refine h.step (h.orderly.adjustElement n hmark) h.bound ?_ rfl (fun m _ hm => ?_)
    fun e anchor t ht _ => ⟨t.mapSelf g, ht.mapSelf hg rfl htrees fun x hx s hres => ?_⟩
  · rw [foreign_unmount_iff, htrees, List.forall_mem_map]
    intro tree htree
    rw [Node.prune_mapSelf fun e => by rw [hg e]]
    refine (foreign_unmount_iff.1 h.foreign tree htree).mapSelf fun e he => ?_
    show Element.Foreign tables (if e.mark = n then f e else e)
    split
    · exact hforeign e he
    · exact he
  · obtain ⟨tree, htree, hm⟩ := (mem_shown_of_trees htrees).1 hm
    exact mem_shown_iff.2 ⟨tree, htree, Node.marks_mapSelf hg tree ▸ hm⟩
  · show Resembles typed' (if x.mark = n then f x else x) s
    split
    · next hn =>
      refine hresembles (fun y hy heq => ht.slots y hy ?_) x s hn (hres.mono hsub)
      rw [heq, ← hn]
      exact List.mem_map_of_mem hx
    · exact hres.mono hsub

/-- Showing a control as latched or free. -/
theorem drawControl (h : c.Holds tables typed away editor) (control : Control) (disabled : Bool) :
    (c.drawControl control disabled).Holds tables typed away editor := by
  unfold Canvas.drawControl
  split
  · exact h
  · next n hn =>
    refine h.adjust n (fun e => ?_) (fun e he => ?_) (List.Subset.refl _) fun hnone => ?_
    · obtain ⟨attributes, heq⟩ := e.exists_setDisabled disabled
      rw [heq]
    · obtain ⟨attributes, heq⟩ := e.exists_setDisabled disabled
      rw [heq]
      exact he
    · exact absurd rfl (hnone _ (SlotMap.mem_of_get? hn))

/-- Drawing leaves the page with the property panel that was there, or with the one that the panel
knows. -/
theorem exists_draw (h : c.Holds tables typed away editor) (p : Panel) (part : Drawing) :
    ∃ editor', (c.draw p part).Holds tables typed away editor' ∧
      (editor' = p.editor ∨ editor' = editor ∧ part ≠ .properties) := by
  cases part with
  | groups =>
    show ∃ editor', (c.drawGroups p).Holds tables typed away editor' ∧ _
    rw [drawGroups_eq]
    exact ⟨_, h.drawArea p .group, Or.inl rfl⟩
  | users =>
    show ∃ editor', (c.drawUsers p).Holds tables typed away editor' ∧ _
    rw [drawUsers_eq]
    exact ⟨_, h.drawArea p .user, Or.inl rfl⟩
  | properties => exact ⟨_, h.drawProperties p, Or.inl rfl⟩
  | control control disabled => exact ⟨_, h.drawControl control disabled, Or.inr ⟨rfl, nofun⟩⟩
  | members groupId =>
    show ∃ editor', (c.drawMembers p groupId).Holds tables typed away editor' ∧ _
    cases hn : c.slot? (.group groupId) with
    | none =>
      rw [drawMembers_eq, if_pos (by simp [hn])]
      exact ⟨_, h, Or.inr ⟨rfl, nofun⟩⟩
    | some n => exact ⟨_, h.drawMembers p groupId hn, Or.inl rfl⟩

/-- Drawing keeps the property panel on the page if what the panel knows of it is what is shown, or
if it is the property panel that is drawn. -/
theorem draw (h : c.Holds tables typed away editor) {p : Panel} {part : Drawing}
    (heditor : editor = p.editor ∨ part = .properties) :
    (c.draw p part).Holds tables typed away p.editor := by
  obtain ⟨editor', hdrawn, rfl | ⟨rfl, hpart⟩⟩ := h.exists_draw p part
  · exact hdrawn
  · rwa [heditor.resolve_right hpart] at hdrawn

theorem draw_closed (h : c.Holds tables typed away editor) (p : Panel) (part : Drawing) :
    (c.draw p part).Holds tables typed away none :=
  (h.exists_draw p part).elim fun _ hdrawn => hdrawn.1.closed

/-- Fewer elements may be away. -/
theorem mono (h : c.Holds tables typed away editor) {away' : List Nat} (hsub : away' ⊆ away) :
    c.Holds tables typed away' editor :=
  h.step h.orderly (fun n hn => h.bound n (hsub hn)) h.foreign rfl (fun _ _ hn => hn)
    fun _ _ t ht _ => ⟨t, ht.like, ht.root, ht.hangs, fun n hn => ht.apart n (hsub hn), ht.slots⟩

/-! ### Notices -/

/-- Putting something foreign among the children of an element outside of the property panel. -/
theorem insert (h : c.Holds tables typed away editor) {s : Sketch} (hs : s.Foreign [])
    {parent : Nat} {g : List (Node Nat Handler) → List (Node Nat Handler)}
    (hg : ∀ l, ∀ x ∈ g l, x ∈ l ∨ x = c.entered s) (hkeeps : ∀ l, l ⊆ g l)
    (hgrows : c.document.Grows ((c.document.enter s).2.adjustChildren parent g))
    (hparent : ∀ e anchor t, c.Carries typed away e anchor t → parent ∉ t.marks)
    {away' : List Nat} (hsub : away' ⊆ away ++ [c.document.fresh])
    (hbound : ∀ n ∈ away', n < (c.document.enter s).2.fresh) :
    Canvas.Holds tables typed away' editor
      { c with document := (c.document.enter s).2.adjustChildren parent g } := by
  have htrees : ((c.document.enter s).2.adjustChildren parent g).trees = c.document.trees.map
      (Node.adjust (hasMark parent) fun self children => .element self (g children)) :=
    Document.trees_mapTrees _ _
  refine h.step ⟨hgrows.sound, h.orderly.view.mono hgrows.fresh⟩ hbound ?_ rfl
    (fun n hn hmem => mem_shown_of_insert hg htrees hn hmem) fun e anchor t ht _ =>
      ⟨t, ht.like, ht.root, ?_, fun n hn hmem => ?_, ht.slots⟩
  · rw [foreign_unmount_iff, htrees, List.forall_mem_map]
    exact fun tree htree => (foreign_unmount_iff.1 h.foreign tree htree).prune_adjust
      (c.document.foreign_entered hs) hg
  · obtain ⟨tree, htree, hhangs⟩ := ht.hangs
    refine ⟨_, htrees ▸ List.mem_map_of_mem htree, hhangs.adjust_children hkeeps ?_⟩
    exact fun x hx => beq_eq_false_iff_ne.2 fun heq =>
      hparent e anchor t ht (heq ▸ List.mem_map_of_mem hx)
  · rcases List.mem_append.1 (hsub hn) with hn | hn
    · exact ht.apart n hn hmem
    · obtain ⟨tree, htree, hhangs⟩ := ht.hangs
      have hshown : n ∈ c.document.numbers := List.mem_flatMap.2
        ⟨tree, List.mem_append_left _ htree, hhangs.marks_subset hmem⟩
      exact absurd (h.orderly.sound.bound n hshown) (by simp [List.mem_singleton.1 hn])

/-- Putting something foreign behind the children of an element outside of the property panel. -/
theorem put (h : c.Holds tables typed away editor) {s : Sketch} (hs : s.Foreign []) {parent : Nat}
    (hparent : ∀ e anchor t, c.Carries typed away e anchor t → parent ∉ t.marks) :
    Canvas.Holds tables typed away editor
      { c with document := (Layout.put c.document parent s).2 } := by
  have hgrows := Layout.grows_put h.orderly.sound parent s
  exact h.insert hs (fun l x hx => (List.mem_append.1 hx).imp_right List.mem_singleton.1)
    (fun l => List.subset_append_left l _) hgrows hparent (List.subset_append_left _ _)
    fun n hn => Nat.lt_of_lt_of_le (h.bound n hn) hgrows.fresh

/-- Style sheets are put into a root. -/
theorem ensureStyles (h : c.Holds tables typed away editor) {id : String} {rules : List StyleRule}
    {d : Document Handler} (hd : Layout.ensureStyles? c.document id rules = some d) :
    Canvas.Holds tables typed away editor { c with document := d } := by
  unfold Layout.ensureStyles? at hd
  split at hd
  · cases hd
    exact h
  · obtain ⟨parent, hroot, rfl⟩ := Option.map_eq_some_iff.1 hd
    refine h.put ?_ fun e anchor t ht => ht.notMem_root h.orderly.sound ?_
    · refine (Node.foreign_element _ _).2 ⟨?_, by simp⟩
      exact Element.foreign_of_silent (by decide : "style" ≠ "table") rfl
    · rcases Option.or_eq_some_iff.1 hroot with hhead | ⟨-, hbody⟩
      · obtain ⟨tree, htree, hparent⟩ := Layout.exists_root hhead
        exact ⟨tree, by simp [Document.trees, htree], hparent⟩
      · obtain ⟨tree, htree, hparent⟩ := Layout.exists_root hbody
        exact ⟨tree, by simp [Document.trees, htree], hparent⟩

/-- The corner for notices is an element with an `id`, and it is put into a root. -/
theorem ensureRoot (h : c.Holds tables typed away editor) {root : Nat} {d : Document Handler}
    (hd : Notice.ensureRoot? c.document = some (root, d)) :
    Canvas.Holds tables typed away editor { c with document := d } ∧
      ∃ x ∈ d.trees.flatMap Node.selves, x.mark = root ∧ (x.attribute? "id").isSome := by
  unfold Notice.ensureRoot? at hd
  split at hd
  · next n hn =>
    cases hd
    obtain ⟨x, hx, hmark, hid⟩ := Document.exists_of_byId? hn
    exact ⟨h, x, hx, hmark, by rw [hid]; rfl⟩
  · obtain ⟨parent, hbody, heq⟩ := Option.map_eq_some_iff.1 hd
    obtain ⟨tree, htree, hparent⟩ := Layout.exists_root hbody
    have hmem : tree ∈ c.document.trees := by simp [Document.trees, htree]
    have hput : Canvas.Holds tables typed away editor
        { c with
          document := (Layout.put c.document parent (.element
            ((Sketch.styled "div" Notice.rootId).setAttribute "id" Notice.rootId) [])).2 } :=
      h.put ((Node.foreign_element _ _).2 ⟨Element.foreign_of_silent (by decide) rfl, by simp⟩)
        fun e anchor t ht => ht.notMem_root h.orderly.sound ⟨tree, hmem, hparent⟩
    have hcorner := Layout.mem_put hmem hparent
      ((Sketch.styled "div" Notice.rootId).setAttribute "id" Notice.rootId) []
    rw [heq] at hput hcorner
    refine ⟨hput, _, hcorner, congrArg Prod.fst heq, ?_⟩
    show (Element.attribute? (Element.setAttribute _ "id" _) "id").isSome
    rw [Element.attribute?_setAttribute, if_pos rfl]
    rfl

/-- Showing a notice, and setting the timer that takes it off. -/
theorem display {b : Browser} (h : c.Holds tables typed b.dismissals editor) (kind : NoticeKind)
    (text : String) : Canvas.Holds tables typed
      (Notice.display kind text c.document b).2.dismissals editor
      { c with document := (Notice.display kind text c.document b).1 } := by
  unfold Notice.display
  split
  · split
    · exact h
    · next d hstyles =>
      have hstyled := h.ensureStyles hstyles
      split
      · exact hstyled
      · next root d' hroot =>
        obtain ⟨hcorner, x, hx, rfl, hid⟩ := hstyled.ensureRoot hroot
        have hshown : ∀ {away' : List Nat}, away' ⊆ b.dismissals ++ [d'.fresh] →
            Canvas.Holds tables typed away' editor
              { c with
                document := (d'.enter (Notice.sketch kind text)).2.prepend x.mark
                  ((d'.enter (Notice.sketch kind text)).1.mapMark (·.2)) } := by
          intro away' hsub
          have hgrows := hcorner.orderly.sound.grows_prepend x.mark (Notice.sketch kind text)
          refine hcorner.insert (Notice.foreign_sketch kind text) (fun l y hy => ?_)
            (fun l => List.subset_cons_self _ l) hgrows (fun e anchor t ht => ?_) hsub
            fun n hn => ?_
          · exact (List.mem_cons.1 hy).symm
          · exact ht.notMem_of_id hcorner.orderly.sound hx hid
          · rcases List.mem_append.1 (hsub hn) with hn | hn
            · exact Nat.lt_of_lt_of_le (hcorner.bound n hn) hgrows.fresh
            · rw [List.mem_singleton.1 hn]
              exact lt_fresh_enter d' _ _
        simp only
        split
        · next hset =>
          rw [Browser.dismissals_setTimer hset]
          exact hshown (List.Subset.refl _)
        · exact hshown (List.subset_append_left _ _)
  · exact h

/-- Taking an element off that is no part of the property panel. -/
theorem dismiss (h : c.Holds tables typed away editor) {n : Nat} (hn : n ∈ away) :
    Canvas.Holds tables typed away editor { c with document := c.document.detach n } := by
  have htrees : (c.document.detach n).trees = c.document.trees.map (Node.prune (hasMark n)) := by
    obtain ⟨hhead, hbody⟩ := h.orderly.sound.samePage_detach n
    rw [← Document.trees_mapTrees, Document.trees, hhead, hbody]
    rfl
  refine h.step ?_ (fun m hm => ?_) ?_ rfl (fun m _ hm => ?_) fun e anchor t ht hanchor =>
    ⟨t, ht.like, ht.root, ht.hangs_prune h.orderly.sound htrees (fun x hx => ?_) hanchor,
      ht.apart, ht.slots⟩
  · refine ⟨h.orderly.sound.detach n, ?_⟩
    show c.view.Issued (c.document.detach n).fresh
    rw [Document.fresh_detach]
    exact h.orderly.view
  · rw [Document.fresh_detach]
    exact h.bound m hm
  · rw [foreign_unmount_iff, htrees, List.forall_mem_map]
    intro tree htree
    rw [Node.prune_comm]
    exact (foreign_unmount_iff.1 h.foreign tree htree).prune _
  · obtain ⟨tree, htree, hm⟩ := (mem_shown_of_trees htrees).1 hm
    exact mem_shown_iff.2 ⟨tree, htree,
      List.map_subset _ (Node.selves_prune_sublist _ tree).subset hm⟩
  · exact beq_eq_false_iff_ne.2 fun heq => ht.apart n hn (heq ▸ List.mem_map_of_mem hx)

/-! ### What is around -/

variable {e : Editor} {anchor : Nat} {t : Node Nat Handler}

/-- All that is not in the property panel is foreign to it. -/
theorem foreign_of_notMem (h : c.Holds tables typed away editor)
    (ht : c.Carries typed away e anchor t) {x : Element Nat Handler}
    (hx : x ∈ c.document.trees.flatMap Node.selves) (hout : x ∉ t.selves) : x.Foreign tables := by
  obtain ⟨tree, htree, hx⟩ := List.mem_flatMap.1 hx
  have hforeign := foreign_unmount_iff.1 h.foreign tree htree
  refine hforeign x (Node.mem_selves_prune hx fun inner hinner htest hmem => hout ?_)
  rwa [← ht.eq_of_test h.orderly.sound htree hinner htest]

/-- The way up from something in the property panel leaves it for elements that are foreign. -/
theorem exists_path (h : c.Holds tables typed away editor) (ht : c.Carries typed away e anchor t)
    {n : Nat} (hn : n ∈ t.marks) : ∃ around,
      c.document.path n = t.pathTo (hasMark n) ++ around ∧ ∀ x ∈ around, x.Foreign tables := by
  obtain ⟨tree, htree, hhangs⟩ := ht.hangs
  obtain ⟨around, hpath, haround⟩ := hhangs.pathTo (h.orderly.sound.nodup_tree htree) hn
  refine ⟨around, ?_, fun x hx => ?_⟩
  · rw [← hpath]
    exact Node.pathAmong_of_mem h.orderly.sound.nodup_trees htree (hhangs.marks_subset hn)
  · obtain ⟨hin, hout⟩ := haround x hx
    exact h.foreign_of_notMem ht (List.mem_flatMap.2 ⟨tree, htree, hin⟩) fun hmem =>
      hout (List.mem_map_of_mem hmem)

/-- The way up from what is at a place in the property panel. -/
theorem exists_path_below (h : c.Holds tables typed away editor)
    (ht : c.Carries typed away e anchor t) {place : List Nat} {inner : Node Nat Handler}
    (hplace : Node.below? place t = some inner) {n : Nat} (hn : n ∈ inner.marks) : ∃ around,
      c.document.path n = inner.pathTo (hasMark n) ++ Node.above place t ++ around ∧
        ∀ x ∈ around, x.Foreign tables := by
  obtain ⟨tree, htree, hhangs⟩ := ht.hangs
  obtain ⟨around, hpath, haround⟩ := h.exists_path ht
    (List.map_subset _ (Node.selves_subset_of_below hplace) hn)
  have hnodup := hhangs.nodup (h.orderly.sound.nodup_tree htree)
  exact ⟨around, by rw [hpath, Node.pathTo_below hnodup hplace hn], haround⟩

end Holds

end Canvas

end RosterPanel
