import RosterPanel.Proofs.Page.Classes
import RosterPanel.Proofs.Scene

/-!
# Notices around the containers

Notices are put on the page around the two containers, and taken off again. Results:

* `Scene.append_head`, `Scene.append_body`, `Scene.prepend_around`: what is put into the head,
  behind the main area, or into an element around the containers.
* `Scene.display`: a notice leaves the contents of the containers alone, and the timer that is set
  for it will take away something around them.
-/

namespace RosterPanel

open Page (Document Element Node)
open Page.Document (hasMark)

/-- The numbers of the elements that pending timers will take off the page. -/
def Browser.dismissals (b : Browser) : List Nat :=
  b.timers.filterMap fun t =>
    match t.task with
    | .dismiss n => some n
    | .reconnect _ => none

theorem Browser.dismissals_setTimer {b b' : Browser} {delay : Int} {n t : Nat}
    (h : b.setTimer delay (.dismiss n) = .ok (t, b')) : b'.dismissals = b.dismissals ++ [n] := by
  unfold setTimer at h
  split at h
  · cases h
  · cases h
    simp [dismissals]

/-- The elements of a sketch that is entered leave the containers alone if those of the sketch
do. -/
theorem inert_entered {d : Document Handler} {s : Sketch} (hs : ∀ u ∈ s.selves, Inert u) :
    ∀ e ∈ ((d.enter s).1.mapMark (·.2)).selves, Inert e := by
  intro e he
  rw [Node.mapMark_eq_mapSelf, Node.selves_mapSelf] at he
  obtain ⟨x, hx, rfl⟩ := List.mem_map.1 he
  have hsketch : x.setMark x.mark.1 ∈ s.selves := by
    rw [← Node.mapMark_number s d.fresh, Node.mapMark_eq_mapSelf, Node.selves_mapSelf]
    exact List.mem_map_of_mem (f := fun e => e.setMark e.mark.1) hx
  obtain ⟨hsilent, hid⟩ := hs _ hsketch
  exact ⟨hsilent, hid⟩

namespace Backdrop

/-- The trees around the main area and the containers. -/
def around (B : Backdrop) : List (Node Nat Handler) := B.inHead ++ B.heading ++ B.rest

/-- A backdrop with other trees around. -/
def withAround (B : Backdrop) (inHead heading rest : List (Node Nat Handler)) : Backdrop :=
  { B with inHead, heading, rest }

theorem plain_withAround {B : Backdrop} (h : B.Plain)
    {inHead heading rest : List (Node Nat Handler)}
    (hnew : ∀ e ∈ (inHead ++ heading ++ rest).flatMap Node.selves, Inert e) :
    (B.withAround inHead heading rest).Plain := by
  refine ⟨fun e he => ?_, h.silent, h.id, h.root⟩
  rcases List.mem_append.1 he with he | he
  · exact h.others e (List.mem_append_left _ he)
  · exact hnew e he

end Backdrop

namespace Scene

variable {away : List Nat} {c : Canvas} {B : Backdrop} {content : Contents}

/-- No number is in both trees of the page. -/
theorem nodup_trees (h : Scene away c B content) :
    (B.headTree.marks ++ (B.bodyTree content).marks).Nodup := by
  have hnodup := h.sound.nodup
  simp only [Document.numbers, Document.all, Document.trees, h.head, h.body, Option.toList_some,
    List.flatMap_append, List.flatMap_cons, List.flatMap_nil, List.append_nil] at hnodup
  exact (List.nodup_append.1 hnodup).1

/-- The number of an element around the containers is of nothing that they depend on, and not in
them. -/
theorem around_ne (h : Scene away c B content) {e : Element Nat Handler}
    (he : e ∈ B.around.flatMap Node.selves) :
    (∀ x ∈ [B.head, B.body, B.main], hasMark e.mark x = false) ∧ B.Spares e.mark ∧
      ∀ k, e.mark ∉ (content k).flatMap Node.marks := by
  have hnodup := (List.nodup_append.1 h.nodup).1
  simp only [Backdrop.marks, Backdrop.elements, Backdrop.others] at hnodup
  rw [List.map_append, List.map_append] at hnodup
  have hmem : e.mark ∈ (B.around.flatMap Node.selves).map (·.mark) := List.mem_map_of_mem he
  have hfixed : ∀ x ∈ [B.head, B.body, B.main], x.mark ≠ e.mark := fun x hx =>
    (List.nodup_append.1 (List.nodup_append.1 hnodup).1).2.2 _ (List.mem_map_of_mem hx) _ hmem
  have hcontainer : ∀ k, e.mark ≠ (B.container k).mark := fun k =>
    (List.nodup_append.1 hnodup).2.2 _ (List.mem_append_right _ hmem) _ (by cases k <;> simp)
  refine ⟨fun x hx => beq_eq_false_iff_ne.2 (hfixed x hx),
    ⟨(hfixed B.main (by simp)).symm, hcontainer⟩, fun k hk => ?_⟩
  refine h.notMem_marks hk (List.mem_map_of_mem ?_)
  exact List.mem_append_left _ (List.mem_append_right _ he)

/-! ## Putting something around -/

variable {s : Sketch} (hs : ∀ u ∈ s.selves, Inert u)

/-- A scene in front of a backdrop with more around. -/
theorem of_around (h : Scene away c B content) {d : Document Handler}
    {inHead heading rest : List (Node Nat Handler)} (hsound : d.Sound)
    (hhead : d.head = some (B.withAround inHead heading rest).headTree)
    (hbody : d.body = some ((B.withAround inHead heading rest).bodyTree content))
    (hfresh : c.document.fresh ≤ d.fresh)
    (hnew : ∀ e ∈ (inHead ++ heading ++ rest).flatMap Node.selves, Inert e) :
    Scene away { c with document := d } (B.withAround inHead heading rest) content :=
  ⟨hsound, hhead, hbody, h.container, Backdrop.plain_withAround h.plain hnew, fun n hn =>
    ⟨Nat.lt_of_lt_of_le (h.away n hn).1 hfresh, (h.away n hn).2⟩⟩

theorem inert_around (h : Scene away c B content) :
    ∀ e ∈ B.around.flatMap Node.selves, Inert e := fun e he =>
  h.plain.others e (List.mem_append_right _ he)

theorem fresh_enter (d : Document Handler) (s : Sketch) : d.fresh ≤ (d.enter s).2.fresh := by
  obtain ⟨count, hfresh, -⟩ := d.entered_marks s
  rw [hfresh]
  exact Nat.le_add_right _ _

include hs in
theorem append_head (h : Scene away c B content) :
    Scene away { c with document := (Layout.put c.document B.head.mark s).2 }
      (B.withAround (B.inHead ++ [c.entered s]) B.heading B.rest) content := by
  have hentered := inert_entered (d := c.document) hs
  have hself : hasMark B.head.mark B.head = true := beq_self_eq_true _
  refine h.of_around (h.sound.append_entered s _) ?_ ?_ (fresh_enter c.document s) fun e he => ?_
  · show c.document.head.map _ = _
    rw [h.head, Option.map_some, Backdrop.headTree, Node.adjust, if_pos hself]
    rfl
  · show c.document.body.map _ = _
    rw [h.body, Option.map_some, Node.adjust_eq_self fun e he => ?_]
    · rfl
    · have hdisjoint := (List.nodup_append.1 h.nodup_trees).2.2 B.head.mark
        (by simp [Backdrop.headTree]) e.mark (List.mem_map_of_mem he)
      exact beq_eq_false_iff_ne.2 hdisjoint.symm
  · have haround := h.inert_around e
    simp only [Backdrop.around, List.flatMap_append, List.flatMap_singleton, List.mem_append]
      at he haround
    rcases he with ((he | he) | he) | he
    · exact haround (Or.inl (Or.inl he))
    · exact hentered e he
    · exact haround (Or.inl (Or.inr he))
    · exact haround (Or.inr he)

include hs in
theorem append_body (h : Scene away c B content) :
    Scene away { c with document := (Layout.put c.document B.body.mark s).2 }
      (B.withAround B.inHead B.heading (B.rest ++ [c.entered s])) content := by
  have hentered := inert_entered (d := c.document) hs
  have hself : hasMark B.body.mark B.body = true := beq_self_eq_true _
  refine h.of_around (h.sound.append_entered s _) ?_ ?_ (fresh_enter c.document s) fun e he => ?_
  · show c.document.head.map _ = _
    rw [h.head, Option.map_some, Node.adjust_eq_self fun e he => ?_]
    · rfl
    · have hdisjoint := (List.nodup_append.1 h.nodup_trees).2.2 e.mark (List.mem_map_of_mem he)
        B.body.mark (by simp [Backdrop.bodyTree])
      exact beq_eq_false_iff_ne.2 hdisjoint
  · show c.document.body.map _ = _
    rw [h.body, Option.map_some, Backdrop.bodyTree, Node.adjust, if_pos hself]
    rfl
  · have haround := h.inert_around e
    simp only [Backdrop.around, List.flatMap_append, List.flatMap_singleton, List.mem_append]
      at he haround
    rcases he with (he | he) | he | he
    · exact haround (Or.inl (Or.inl he))
    · exact haround (Or.inl (Or.inr he))
    · exact haround (Or.inr he)
    · exact hentered e he

include hs in
/-- Putting something before what is in an element around the containers. -/
theorem prepend_around (h : Scene away c B content) {e : Element Nat Handler}
    (he : e ∈ B.around.flatMap Node.selves) :
    ∃ inHead heading rest,
      Scene away { c with document := (c.document.enter s).2.prepend e.mark (c.entered s) }
        (B.withAround inHead heading rest) content := by
  have hentered := inert_entered (d := c.document) hs
  obtain ⟨hfixed, hspares, hcontent⟩ := h.around_ne he
  have hcontainer : ∀ k, hasMark e.mark (B.container k) = false := fun k =>
    beq_eq_false_iff_ne.2 (hspares.2 k).symm
  have hsame : ∀ k, (content k).map (Node.adjust (hasMark e.mark)
      fun self children => .element self (c.entered s :: children)) = content k := fun k =>
    Node.adjustAmong_eq_self (Document.hasMark_eq_false (hcontent k))
  let f : List (Node Nat Handler) → List (Node Nat Handler) :=
    List.map (Node.adjust (hasMark e.mark)
      fun self children => .element self (c.entered s :: children))
  refine ⟨f B.inHead, f B.heading, f B.rest, h.of_around (h.sound.prepend_entered s _) ?_ ?_
    (fresh_enter c.document s) fun x hx => ?_⟩
  · show c.document.head.map _ = _
    rw [h.head, Option.map_some, Backdrop.headTree, Node.adjust,
      if_neg (by simp [hfixed B.head (by simp)]), Node.adjustAmong_eq]
    rfl
  · show c.document.body.map _ = _
    rw [h.body, Option.map_some, Backdrop.bodyTree, Node.adjust,
      if_neg (by simp [hfixed B.body (by simp)]), Node.adjustAmong_eq, List.map_cons, Node.adjust,
      if_neg (by simp [hfixed B.main (by simp)]), Node.adjustAmong_eq, List.map_append,
      List.map_cons, List.map_singleton, Node.adjust, if_neg (by simp [hcontainer]),
      Node.adjustAmong_eq, hsame, Node.adjust, if_neg (by simp [hcontainer]),
      Node.adjustAmong_eq, hsame]
    rfl
  · rw [← List.map_append, ← List.map_append] at hx
    rcases Node.mem_selves_map_adjust (g := fun children => c.entered s :: children)
      (fun l y hy => (List.mem_cons.1 hy).symm) hx with hx | hx
    · exact h.inert_around x hx
    · exact hentered x hx

/-! ## Notices -/

/-- A number of an element that is somewhere else may be added to those that are. -/
theorem also (h : Scene away c B content) {n : Nat} (hlt : n < c.document.fresh)
    (hspares : B.Spares n) (hcontent : ∀ k, n ∉ (content k).flatMap Node.marks) :
    Scene (away ++ [n]) c B content := by
  refine ⟨h.sound, h.head, h.body, h.container, h.plain, fun m hm => ?_⟩
  rcases List.mem_append.1 hm with hm | hm
  · exact h.away m hm
  · rw [List.mem_singleton] at hm
    subst hm
    exact ⟨hlt, hspares, hcontent⟩

theorem inert_of_attribute {e : Element (Option Slot) Handler} {id : String}
    (hsilent : e.listeners = []) (hid : e.attribute? "id" = some id)
    (hne : ∀ k, id ≠ EntityKind.containerId k) : Inert e := by
  refine ⟨hsilent, fun k heq => hne k ?_⟩
  rw [hid, Option.some.injEq] at heq
  exact heq

/-- A style sheet is there or can be put on the page. -/
theorem exists_ensureStyles (h : Scene away c B content) {id : String}
    (hid : ∀ k, id ≠ EntityKind.containerId k) (rules : List StyleRule) :
    ∃ d inHead heading rest, Layout.ensureStyles? c.document id rules = some d ∧
      Scene away { c with document := d } (B.withAround inHead heading rest) content ∧
        c.document.fresh ≤ d.fresh := by
  let sheet : Sketch := .element ((Sketch.plain "style").setAttribute "id" id)
    [.text (StyleRule.sheet rules)]
  have hs : ∀ u ∈ sheet.selves, Inert u := by
    intro u hu
    have hu : u = (Sketch.plain "style").setAttribute "id" id := by simpa [sheet] using hu
    subst hu
    refine inert_of_attribute rfl ?_ hid
    rw [Element.attribute?_setAttribute, if_pos rfl]
  unfold Layout.ensureStyles?
  split
  · exact ⟨_, _, _, _, rfl, h, Nat.le_refl _⟩
  · have hroot : (Layout.rootNumber? c.document.head).or (Layout.rootNumber? c.document.body) =
        some B.head.mark := by
      rw [h.head]
      rfl
    rw [hroot]
    exact ⟨_, _, _, _, rfl, h.append_head hs, fresh_enter c.document sheet⟩

/-- The corner for notices is around the containers. -/
theorem mem_around_of_byId (h : Scene away c B content)
    (hcontent : ∀ k, ∀ e ∈ (content k).flatMap Node.selves, e.attribute? "id" = none) {n : Nat}
    (hn : c.document.byId? Notice.rootId = some n) :
    ∃ e ∈ B.around.flatMap Node.selves, e.mark = n := by
  obtain ⟨node, hfind, hmark⟩ := Option.bind_eq_some_iff.1 hn
  have hmem := List.mem_of_find?_eq_some hfind
  have htest := List.find?_some hfind
  cases node with
  | text content => cases htest
  | element e inner =>
    have hid : e.attribute? "id" = some Notice.rootId := beq_iff_eq.1 htest
    refine ⟨e, ?_, Option.some.inj hmark⟩
    rw [Document.elements, Node.elementsAmong_eq, List.mem_flatMap] at hmem
    obtain ⟨tree, htree, hmem⟩ := hmem
    have he : e ∈ tree.selves := List.mem_filterMap.2 ⟨_, hmem, rfl⟩
    have hroot : ∀ x ∈ [B.head, B.body, B.main], e ≠ x := by
      rintro x hx rfl
      exact h.plain.root e hx hid
    have hcontainer : ∀ k, e ≠ B.container k := by
      rintro k rfl
      rw [h.plain.id k, Option.some.injEq] at hid
      cases k <;> exact absurd hid (by decide)
    have hbelow : ∀ k, e ∉ (content k).flatMap Node.selves := by
      intro k hk
      rw [hcontent k e hk] at hid
      cases hid
    have htree : tree = B.headTree ∨ tree = B.bodyTree content := by
      simpa [Document.trees, h.head, h.body] using htree
    simp only [Backdrop.around, List.flatMap_append, List.mem_append]
    rcases htree with rfl | rfl
    · rw [Backdrop.headTree, Node.selves_element, List.mem_cons] at he
      exact Or.inl (Or.inl (he.resolve_left (hroot _ (by simp))))
    · simp only [Backdrop.bodyTree, Node.selves_element, List.flatMap_cons, List.flatMap_append,
        List.flatMap_nil, List.append_nil, List.mem_cons, List.mem_append] at he
      have hbody := hroot B.body (by simp)
      have hmain := hroot B.main (by simp)
      have hgroups := hcontainer .group
      have husers := hcontainer .user
      have hgroup := hbelow .group
      have huser := hbelow .user
      tauto

theorem exists_ensureRoot (h : Scene away c B content)
    (hcontent : ∀ k, ∀ e ∈ (content k).flatMap Node.selves, e.attribute? "id" = none) :
    ∃ e d inHead heading rest, Notice.ensureRoot? c.document = some (e.mark, d) ∧
      Scene away { c with document := d } (B.withAround inHead heading rest) content ∧
        c.document.fresh ≤ d.fresh ∧
          e ∈ (B.withAround inHead heading rest).around.flatMap Node.selves := by
  let corner := (Sketch.styled "div" Notice.rootId).setAttribute "id" Notice.rootId
  have hs : ∀ u ∈ Node.selves (.element corner [] : Sketch), Inert u := by
    intro u hu
    have hu : u = corner := by simpa using hu
    subst hu
    have hid : corner.attribute? "id" = some Notice.rootId := by
      rw [Element.attribute?_setAttribute, if_pos rfl]
    exact inert_of_attribute rfl hid fun k => by cases k <;> decide
  unfold Notice.ensureRoot?
  split
  · next n hn =>
    obtain ⟨e, he, rfl⟩ := h.mem_around_of_byId hcontent hn
    exact ⟨e, _, _, _, _, rfl, h, Nat.le_refl _, he⟩
  · have hroot : Layout.rootNumber? c.document.body = some B.body.mark := by
      rw [h.body]
      rfl
    rw [hroot]
    refine ⟨corner.setMark c.document.fresh, _, _, _, _, rfl, h.append_body hs,
      fresh_enter c.document (.element corner []), ?_⟩
    have hself : corner.setMark c.document.fresh ∈ (c.entered (.element corner [])).selves :=
      List.mem_cons_self
    simp only [Backdrop.around, Backdrop.withAround, List.flatMap_append, List.flatMap_singleton,
      List.mem_append]
    exact Or.inr (Or.inr hself)

theorem styleId_ne_containerId (k : EntityKind) : Notice.styleId ≠ k.containerId := by
  cases k <;> decide

theorem inert_notice (kind : NoticeKind) (text : String) :
    ∀ u ∈ (Notice.sketch kind text).selves, Inert u := by
  intro u hu
  have htext : (Sketch.textNodes text).flatMap Node.selves = [] := by
    unfold Sketch.textNodes
    split <;> simp
  rw [Notice.sketch, Node.selves_element, htext, List.mem_singleton] at hu
  have hid : u.attribute? "id" = none := by
    rw [hu]
    exact Element.attribute?_setClasses _ _ (by decide)
  have hsilent : u.listeners = [] := by
    obtain ⟨attributes, heq⟩ : ∃ attributes, (Sketch.styled "div" "toast").addClass kind.className =
        { Sketch.styled "div" "toast" with attributes } := Element.exists_setClasses _ _
    rw [hu, heq]
    rfl
  refine ⟨hsilent, fun k => ?_⟩
  rw [hid]
  simp

/-- A notice leaves the contents of the containers alone, and so will the timer set for it. -/
theorem display {b : Browser} (h : Scene b.dismissals c B content)
    (hwindow : b.window = true) (hdocument : b.document = true)
    (hcontent : ∀ k, ∀ e ∈ (content k).flatMap Node.selves, e.attribute? "id" = none)
    (kind : NoticeKind) (text : String) :
    ∃ inHead heading rest,
      Scene (Notice.display kind text c.document b).2.dismissals
        { c with document := (Notice.display kind text c.document b).1 }
        (B.withAround inHead heading rest) content ∧
      c.document.fresh ≤ (Notice.display kind text c.document b).1.fresh := by
  obtain ⟨d₁, a₁, b₁, r₁, hstyles, h₁, hfresh₁⟩ :=
    h.exists_ensureStyles styleId_ne_containerId Notice.styles
  obtain ⟨e, d₂, a₂, b₂, r₂, hroot, h₂, hfresh₂, he⟩ := h₁.exists_ensureRoot hcontent
  obtain ⟨a₃, b₃, r₃, h₃⟩ := h₂.prepend_around (inert_notice kind text) he
  have hnew := Canvas.lt_fresh_enter d₂ ((Sketch.styled "div" "toast").addClass kind.className)
    (Sketch.textNodes text)
  have hle : c.document.fresh ≤ (d₂.enter (Notice.sketch kind text)).2.fresh :=
    Nat.le_trans hfresh₁ (Nat.le_trans hfresh₂ (Nat.le_of_lt hnew))
  have hroot : Notice.ensureRoot? d₁ = some (e.mark, d₂) := hroot
  simp only [Notice.display, hwindow, hdocument, Bool.and_self, if_true, hstyles, hroot]
  refine ⟨a₃, b₃, r₃, ?_⟩
  split
  · next t b' hset =>
    refine ⟨?_, hle⟩
    rw [Browser.dismissals_setTimer hset]
    exact h₃.also hnew h₂.spares_fresh fun k hmem => Nat.lt_irrefl _ (h₂.lt_fresh hmem)
  · exact ⟨h₃, hle⟩

end Scene

end RosterPanel
