import Mathlib.Logic.Function.Basic
import RosterPanel.Proofs.Page.Sound
import RosterPanel.View.Notice

/-!
# The page around the two containers

A page that is laid out has the two containers in its main area. What is done in a container leaves
the page around it alone, and what is done elsewhere leaves the containers alone. Results:

* `Backdrop`, `Scene`: a canvas shows given contents of the containers in front of a backdrop.
* `Scene.place_container`, `Scene.place_inside`, `Scene.clear`, `Scene.detach`,
  `Scene.adjustElement`: what each operation on a page does to the contents.
-/

namespace RosterPanel

open Page (Document Element Node)
open Page.Document (hasMark)

/-- The `id` of the container for entities of a kind. -/
def EntityKind.containerId : EntityKind → String
  | .group => "groups"
  | .user => "users"

/-- The number of the container for entities of a kind. -/
def View.container (v : View) : EntityKind → Nat
  | .group => v.groups
  | .user => v.users

/-- Whether an element outside of the containers leaves them alone: it listens to nothing, and it
does not have the `id` of a container. -/
structure Inert {M : Type} (e : Element M Handler) : Prop where
  silent : e.listeners = []
  id : ∀ k, e.attribute? "id" ≠ some (EntityKind.containerId k)

/-- What is in the container for entities of a kind. -/
abbrev Contents := EntityKind → List (Node Nat Handler)

/-- What is on a page around the contents of the two containers. -/
structure Backdrop where
  head : Element Nat Handler
  inHead : List (Node Nat Handler)
  body : Element Nat Handler
  main : Element Nat Handler
  heading : List (Node Nat Handler)
  container : EntityKind → Element Nat Handler
  /-- What is behind the main area. -/
  rest : List (Node Nat Handler)

namespace Backdrop

def headTree (B : Backdrop) : Node Nat Handler := .element B.head B.inHead

def bodyTree (B : Backdrop) (content : Contents) : Node Nat Handler :=
  .element B.body (.element B.main (B.heading ++
    [.element (B.container .group) (content .group),
      .element (B.container .user) (content .user)]) :: B.rest)

/-- The elements outside of the containers. -/
def others (B : Backdrop) : List (Element Nat Handler) :=
  [B.head, B.body, B.main] ++ (B.inHead ++ B.heading ++ B.rest).flatMap Node.selves

def elements (B : Backdrop) : List (Element Nat Handler) :=
  B.others ++ [B.container .group, B.container .user]

/-- The numbers of the elements of a backdrop. -/
def marks (B : Backdrop) : List Nat := B.elements.map (·.mark)

/-- Whether a number is not one of an element that the containers depend on. -/
def Spares (B : Backdrop) (n : Nat) : Prop := n ≠ B.main.mark ∧ ∀ k, n ≠ (B.container k).mark

/-- Nothing in a backdrop listens. Only the containers have their ids, and notices go elsewhere. -/
structure Plain (B : Backdrop) : Prop where
  others : ∀ e ∈ B.others, Inert e
  silent : ∀ k, (B.container k).listeners = []
  id : ∀ k, (B.container k).attribute? "id" = some k.containerId
  root : ∀ e ∈ [B.head, B.body, B.main], e.attribute? "id" ≠ some Notice.rootId

/-- A backdrop with every element changed. -/
def mapSelf (f : Element Nat Handler → Element Nat Handler) (B : Backdrop) : Backdrop where
  head := f B.head
  inHead := B.inHead.map (Node.mapSelf f)
  body := f B.body
  main := f B.main
  heading := B.heading.map (Node.mapSelf f)
  container k := f (B.container k)
  rest := B.rest.map (Node.mapSelf f)

/-- A backdrop with some elements taken out. -/
def prune (p : Element Nat Handler → Bool) (B : Backdrop) : Backdrop :=
  { B with
    inHead := Node.pruneAmong p B.inHead
    heading := Node.pruneAmong p B.heading
    rest := Node.pruneAmong p B.rest }

variable {B : Backdrop} {content : Contents}

theorem headTree_mapSelf (f : Element Nat Handler → Element Nat Handler) :
    B.headTree.mapSelf f = (B.mapSelf f).headTree := by
  simp [headTree, mapSelf]

theorem bodyTree_mapSelf (f : Element Nat Handler → Element Nat Handler) :
    (B.bodyTree content).mapSelf f =
      (B.mapSelf f).bodyTree fun k => (content k).map (Node.mapSelf f) := by
  simp [bodyTree, mapSelf]

theorem headTree_prune (p : Element Nat Handler → Bool) :
    B.headTree.prune p = (B.prune p).headTree := by
  simp [headTree, prune, Node.prune]

theorem bodyTree_prune {p : Element Nat Handler → Bool} (hmain : p B.main = false)
    (hcontainer : ∀ k, p (B.container k) = false) :
    (B.bodyTree content).prune p =
      (B.prune p).bodyTree fun k => Node.pruneAmong p (content k) := by
  simp [bodyTree, prune, Node.prune, Node.test, hmain, hcontainer, List.filter_append]

/-- Changing the children of an element that is a container or in one. -/
theorem bodyTree_adjust {p : Element Nat Handler → Bool}
    {g : List (Node Nat Handler) → List (Node Nat Handler)}
    (hothers : ∀ e ∈ B.others, p e = false) :
    (B.bodyTree content).adjust p (fun self children => .element self (g children)) =
      B.bodyTree fun k =>
        if p (B.container k) then g (content k)
        else (content k).map (Node.adjust p fun self children => .element self (g children)) := by
  have hbody : p B.body = false := hothers _ (by simp [others])
  have hmain : p B.main = false := hothers _ (by simp [others])
  have hheading : ∀ e ∈ B.heading.flatMap Node.selves, p e = false := by
    intro e he
    refine hothers e ?_
    simp only [others, List.flatMap_append, List.mem_append]
    exact Or.inr (Or.inl (Or.inr he))
  have hrest : ∀ e ∈ B.rest.flatMap Node.selves, p e = false := by
    intro e he
    refine hothers e ?_
    simp only [others, List.flatMap_append, List.mem_append]
    exact Or.inr (Or.inr he)
  have hcontainer : ∀ k, Node.adjust p (fun self children => .element self (g children))
      (.element (B.container k) (content k)) = .element (B.container k)
        (if p (B.container k) then g (content k)
          else (content k).map
            (Node.adjust p fun self children => .element self (g children))) := by
    intro k
    unfold Node.adjust
    split
    · rfl
    · rw [Node.adjustAmong_eq]
  unfold bodyTree
  rw [Node.adjust, if_neg (by simp [hbody]), Node.adjustAmong_eq, List.map_cons, Node.adjust,
    if_neg (by simp [hmain]), Node.adjustAmong_eq, List.map_append,
    Node.adjustAmong_eq_self hheading, Node.adjustAmong_eq_self hrest, List.map_cons,
    List.map_singleton, hcontainer, hcontainer]

end Backdrop

/-- A canvas shows the contents of the containers in front of a backdrop; the numbers in `away` are
of elements that are elsewhere. -/
structure Scene (away : List Nat) (c : Canvas) (B : Backdrop) (content : Contents) : Prop where
  sound : c.document.Sound
  head : c.document.head = some B.headTree
  body : c.document.body = some (B.bodyTree content)
  container : ∀ k, (B.container k).mark = c.view.container k
  plain : B.Plain
  away : ∀ n ∈ away, n < c.document.fresh ∧ B.Spares n ∧ ∀ k, n ∉ (content k).flatMap Node.marks

namespace Canvas

/-- The tree that a sketch becomes when it is put on a canvas. -/
def entered (c : Canvas) (sketch : Sketch) : Node Nat Handler :=
  (c.document.enter sketch).1.mapMark (·.2)

/-- The root of a sketch that is put on a page gets the next number. -/
theorem lt_fresh_enter (d : Document Handler) (self : Element (Option Slot) Handler)
    (children : List Sketch) : d.fresh < (d.enter (.element self children)).2.fresh := by
  obtain ⟨count, hfresh, hmarks⟩ := d.entered_marks (.element self children)
  have hroot : d.fresh ∈ ((d.enter (.element self children)).1.mapMark (·.2)).marks := by
    show d.fresh ∈ Node.marks (.element _ _)
    rw [Node.marks_element]
    exact List.mem_cons_self
  rw [hmarks, List.mem_range'_1] at hroot
  rw [hfresh]
  exact hroot.2

theorem place_eq (c : Canvas) (parent : Nat) (sketch : Sketch) :
    (c.place parent sketch).2 =
      { document := (c.document.enter sketch).2.append parent (c.entered sketch)
        view := { c.view with
          slots := register c.view.slots (sketch.number c.document.fresh).1 } } := rfl

end Canvas

namespace Scene

variable {away : List Nat} {c : Canvas} {B : Backdrop} {content : Contents}

/-! ## Numbers -/

/-- What is remembered besides the containers may change. -/
theorem remember (h : Scene away c B content) (slots : SlotMap Nat) (editor : Option Nat) :
    Scene away { c with view := { c.view with slots := slots, editor := editor } } B content :=
  ⟨h.sound, h.head, h.body, h.container, h.plain, h.away⟩

theorem map_mark_selves (l : List (Node Nat Handler)) :
    (l.flatMap Node.selves).map (·.mark) = l.flatMap Node.marks := by
  rw [List.map_flatMap]
  rfl

/-- The numbers of a document are those of the backdrop, of the contents, and of what is off the
page. -/
theorem count_numbers (h : Scene away c B content) (m : Nat) :
    c.document.numbers.count m = (B.marks ++ ((content .group).flatMap Node.marks ++
      (content .user).flatMap Node.marks)).count m +
        (c.document.loose.flatMap Node.marks).count m := by
  simp only [Document.numbers, Document.all, Document.trees, h.head, h.body, Option.toList_some,
    List.flatMap_append, Backdrop.headTree, Backdrop.bodyTree, Node.marks_element,
    List.flatMap_cons, List.flatMap_nil, List.append_nil, List.count_append, List.count_cons,
    Backdrop.marks, Backdrop.elements, Backdrop.others, List.map_append, List.map_cons,
    List.map_nil, map_mark_selves, List.count_nil]
  omega

theorem nodup (h : Scene away c B content) :
    (B.marks ++ ((content .group).flatMap Node.marks ++
      (content .user).flatMap Node.marks)).Nodup := by
  refine List.nodup_iff_count.2 fun m => ?_
  have hle := List.nodup_iff_count.1 h.sound.nodup m
  have hcount := h.count_numbers m
  omega

theorem lt_fresh (h : Scene away c B content) {k : EntityKind} {m : Nat}
    (hm : m ∈ (content k).flatMap Node.marks) : m < c.document.fresh := by
  refine h.sound.bound m (List.count_pos_iff.1 ?_)
  have hpos := List.count_pos_iff.2 hm
  have hcount := h.count_numbers m
  simp only [List.count_append] at hcount
  cases k <;> omega

/-- The next number is of none of the elements that the containers depend on. -/
theorem spares_fresh (h : Scene away c B content) : B.Spares c.document.fresh := by
  have hlt : ∀ m ∈ B.marks, m < c.document.fresh := by
    intro m hm
    refine h.sound.bound m (List.count_pos_iff.1 ?_)
    have hpos := List.count_pos_iff.2 hm
    have hcount := h.count_numbers m
    rw [List.count_append] at hcount
    omega
  constructor
  · have hmain := hlt B.main.mark (by simp [Backdrop.marks, Backdrop.elements, Backdrop.others])
    omega
  · intro k
    have hcontainer := hlt (B.container k).mark (by
      cases k <;> simp [Backdrop.marks, Backdrop.elements])
    omega

theorem notMem_marks (h : Scene away c B content) {k : EntityKind} {m : Nat}
    (hm : m ∈ (content k).flatMap Node.marks) : m ∉ B.marks := by
  intro hB
  have hdisjoint := (List.nodup_append.1 h.nodup).2.2 m hB m
  cases k with
  | group => exact hdisjoint (List.mem_append_left _ hm) rfl
  | user => exact hdisjoint (List.mem_append_right _ hm) rfl

theorem container_mem_marks (k : EntityKind) : (B.container k).mark ∈ B.marks := by
  cases k <;> simp [Backdrop.marks, Backdrop.elements]

theorem container_injective (h : Scene away c B content) {k k' : EntityKind}
    (heq : (B.container k').mark = (B.container k).mark) : k' = k := by
  have hnodup := (List.nodup_append.1 h.nodup).1
  simp only [Backdrop.marks, Backdrop.elements, List.map_append, List.map_cons,
    List.map_nil] at hnodup
  have hne : (B.container .group).mark ≠ (B.container .user).mark := by
    have htail := (List.nodup_append.1 hnodup).2.1
    simpa using htail
  cases k <;> cases k' <;> first
    | rfl
    | exact absurd heq hne
    | exact absurd heq.symm hne

/-- The number of a container is of no other element outside of the containers. -/
theorem hasMark_others_of_container (h : Scene away c B content) (k : EntityKind) :
    ∀ e ∈ B.others, hasMark (B.container k).mark e = false := by
  intro e he
  refine beq_eq_false_iff_ne.2 fun heq => ?_
  have hnodup := (List.nodup_append.1 h.nodup).1
  simp only [Backdrop.marks, Backdrop.elements, List.map_append] at hnodup
  have hdisjoint := (List.nodup_append.1 hnodup).2.2 e.mark (List.mem_map_of_mem he)
    (B.container k).mark (by cases k <;> simp)
  exact hdisjoint heq

theorem hasMark_others_of_content (h : Scene away c B content) {k : EntityKind} {n : Nat}
    (hn : n ∈ (content k).flatMap Node.marks) : ∀ e ∈ B.others, hasMark n e = false := by
  intro e he
  refine beq_eq_false_iff_ne.2 fun heq => h.notMem_marks hn (heq ▸ List.mem_map_of_mem ?_)
  exact List.mem_append_left _ he

theorem hasMark_headTree {n : Nat} (hothers : ∀ e ∈ B.others, hasMark n e = false) :
    ∀ e ∈ B.headTree.selves, hasMark n e = false := by
  intro e he
  refine hothers e ?_
  rw [Backdrop.headTree, Node.selves_element, List.mem_cons] at he
  simp only [Backdrop.others, List.flatMap_append, List.mem_append, List.mem_cons]
  tauto

/-- The numbers in the contents are not those of the elements that the containers depend on. -/
theorem spares (h : Scene away c B content) {k : EntityKind} {n : Nat}
    (hn : n ∈ (content k).flatMap Node.marks) : B.Spares n := by
  have hnot := h.notMem_marks hn
  constructor
  · intro heq
    exact hnot (heq ▸ List.mem_map_of_mem (by simp [Backdrop.elements, Backdrop.others]))
  · intro k' heq
    exact hnot (heq ▸ container_mem_marks k')

/-- Changing the children of a container changes its contents only. -/
theorem contents_container (h : Scene away c B content) (k : EntityKind)
    (g : List (Node Nat Handler) → List (Node Nat Handler)) :
    (fun k' => if hasMark (B.container k).mark (B.container k') then g (content k')
      else (content k').map (Node.adjust (hasMark (B.container k).mark)
        fun self children => .element self (g children))) =
      Function.update content k (g (content k)) := by
  funext k'
  by_cases hk : k' = k
  · subst hk
    have hself : hasMark (B.container k').mark (B.container k') = true := beq_self_eq_true _
    rw [if_pos hself, Function.update_self]
  · have hne : hasMark (B.container k).mark (B.container k') = false :=
      beq_eq_false_iff_ne.2 fun heq => hk (h.container_injective heq)
    have hnot : (B.container k).mark ∉ (content k').flatMap Node.marks :=
      fun hmem => h.notMem_marks hmem (container_mem_marks k)
    rw [if_neg (by simp [hne]), Function.update_of_ne hk,
      Node.adjustAmong_eq_self (Document.hasMark_eq_false hnot)]

/-! ## Adding to the contents -/

/-- Putting a sketch behind the children of an element that is a container or in one. -/
theorem place (h : Scene away c B content) {n : Nat} (hothers : ∀ e ∈ B.others, hasMark n e = false)
    (sketch : Sketch) :
    Scene away (c.place n sketch).2 B fun k =>
      if hasMark n (B.container k) then content k ++ [c.entered sketch]
      else (content k).map
        (Node.adjust (hasMark n) fun self children =>
          .element self (children ++ [c.entered sketch])) := by
  obtain ⟨count, hfresh, hmarks⟩ := c.document.entered_marks sketch
  have hnew : ∀ m ∈ away, m ∉ (c.entered sketch).marks := by
    intro m hm hmem
    rw [Canvas.entered, hmarks, List.mem_range'_1] at hmem
    exact absurd (h.away m hm).1 (Nat.not_lt_of_le hmem.1)
  rw [Canvas.place_eq]
  refine ⟨h.sound.append_entered sketch n, ?_, ?_, h.container, h.plain, fun m hm => ?_⟩
  · show (c.document.enter sketch).2.head.map _ = _
    rw [hfresh, h.head, Option.map_some, Node.adjust_eq_self (hasMark_headTree hothers)]
  · show (c.document.enter sketch).2.body.map _ = _
    rw [hfresh, h.body, Option.map_some]
    exact congrArg some (B.bodyTree_adjust (g := fun children => children ++ [c.entered sketch])
      hothers)
  · refine ⟨?_, (h.away m hm).2.1, fun k hmem => ?_⟩
    · show m < (c.document.enter sketch).2.fresh
      rw [hfresh]
      exact Nat.lt_of_lt_of_le (h.away m hm).1 (Nat.le_add_right _ _)
    · have hold := (h.away m hm).2.2 k
      split at hmem
      · rw [List.flatMap_append, List.flatMap_singleton, List.mem_append] at hmem
        exact hmem.elim hold (hnew m hm)
      · rw [← map_mark_selves] at hmem
        obtain ⟨e, he, rfl⟩ := List.mem_map.1 hmem
        rcases Node.mem_selves_map_adjust (g := fun children => children ++ [c.entered sketch])
          (fun l x hx => by simpa using hx) he with he | he
        · exact hold (map_mark_selves (content k) ▸ List.mem_map_of_mem he)
        · exact hnew _ hm (List.mem_map_of_mem he)

/-- Putting a sketch into a container. -/
theorem place_container (h : Scene away c B content) (k : EntityKind) (sketch : Sketch) :
    Scene away (c.place (c.view.container k) sketch).2 B
      (Function.update content k (content k ++ [c.entered sketch])) := by
  have hplaced := h.place (h.hasMark_others_of_container k) sketch
  rw [h.contents_container k (· ++ [c.entered sketch]), h.container k] at hplaced
  exact hplaced

/-- Putting a sketch into an element in a container. -/
theorem place_inside (h : Scene away c B content) {n : Nat} {k : EntityKind}
    (hn : n ∈ (content k).flatMap Node.marks) (sketch : Sketch) :
    Scene away (c.place n sketch).2 B fun k => (content k).map
      (Node.adjust (hasMark n) fun self children =>
        .element self (children ++ [c.entered sketch])) := by
  have hplaced := h.place (h.hasMark_others_of_content hn) sketch
  have hcontainer : ∀ k, hasMark n (B.container k) = false := fun k =>
    beq_eq_false_iff_ne.2 ((h.spares hn).2 k).symm
  simpa only [hcontainer, Bool.false_eq_true, if_false] using hplaced

/-! ## Taking away -/

/-- Emptying a container. -/
theorem clear (h : Scene away c B content) (k : EntityKind) :
    Scene away (c.clear (c.view.container k)) B (Function.update content k []) := by
  have hothers := h.hasMark_others_of_container k
  have hfresh : (c.document.clear (c.view.container k)).fresh = c.document.fresh := by
    unfold Document.clear
    split <;> rfl
  refine ⟨h.sound.clear _, ?_, ?_, h.container, h.plain, fun n hn => ?_⟩
  · refine (c.document.samePage_clear _).1.trans ?_
    show c.document.head.map _ = _
    rw [h.head, Option.map_some, ← h.container k,
      Node.adjust_eq_self (hasMark_headTree hothers)]
  · refine (c.document.samePage_clear _).2.trans ?_
    show c.document.body.map _ = _
    rw [h.body, Option.map_some, ← h.container k, ← h.contents_container k fun _ => []]
    exact congrArg some (B.bodyTree_adjust (g := fun _ => []) hothers)
  · obtain ⟨hlt, hspares, hnot⟩ := h.away n hn
    refine ⟨hfresh ▸ hlt, hspares, fun k' hmem => ?_⟩
    by_cases hk : k' = k
    · subst hk
      rw [Function.update_self] at hmem
      cases hmem
    · rw [Function.update_of_ne hk] at hmem
      exact hnot k' hmem

theorem plain_prune (h : B.Plain) (p : Element Nat Handler → Bool) : (B.prune p).Plain := by
  have hothers : ∀ e ∈ (B.prune p).others, e ∈ B.others := by
    intro e he
    simp only [Backdrop.others, Backdrop.prune, List.flatMap_append, List.mem_append] at he ⊢
    have hpruned := fun l => Node.mem_selves_pruneAmong (p := p) (e := e) (l := l)
    rcases he with he | (he | he) | he
    · exact Or.inl he
    · exact Or.inr (Or.inl (Or.inl (hpruned _ he)))
    · exact Or.inr (Or.inl (Or.inr (hpruned _ he)))
    · exact Or.inr (Or.inr (hpruned _ he))
  exact ⟨fun e he => h.others e (hothers e he), h.silent, h.id, h.root⟩

/-- Taking an element off the page that the containers do not depend on. -/
theorem detach (h : Scene away c B content) {n : Nat} (hn : B.Spares n) :
    Scene away { c with document := c.document.detach n } (B.prune (hasMark n)) fun k =>
      Node.pruneAmong (hasMark n) (content k) := by
  have hmain : hasMark n B.main = false := beq_eq_false_iff_ne.2 hn.1.symm
  have hcontainer : ∀ k, hasMark n (B.container k) = false := fun k =>
    beq_eq_false_iff_ne.2 (hn.2 k).symm
  have hfresh : (c.document.detach n).fresh = c.document.fresh := by
    unfold Document.detach
    split
    · rfl
    · split <;> rfl
  refine ⟨h.sound.detach n, ?_, ?_, h.container, plain_prune h.plain _, fun m hm => ?_⟩
  · refine (h.sound.samePage_detach n).1.trans ?_
    show c.document.head.map _ = _
    rw [h.head, Option.map_some, Backdrop.headTree_prune]
  · refine (h.sound.samePage_detach n).2.trans ?_
    show c.document.body.map _ = _
    rw [h.body, Option.map_some, Backdrop.bodyTree_prune hmain hcontainer]
  · obtain ⟨hlt, hspares, hnot⟩ := h.away m hm
    exact ⟨hfresh ▸ hlt, hspares, fun k hmem => hnot k (Node.mem_marks_pruneAmong hmem)⟩

/-! ## Changing elements -/

/-- Changes the element with a number. -/
abbrev changeAt (n : Nat) (f : Element Nat Handler → Element Nat Handler)
    (e : Element Nat Handler) : Element Nat Handler := if e.mark = n then f e else e

theorem flatMap_selves_mapSelf (f : Element Nat Handler → Element Nat Handler)
    (l : List (Node Nat Handler)) :
    (l.map (Node.mapSelf f)).flatMap Node.selves = (l.flatMap Node.selves).map f := by
  rw [List.flatMap_map, List.map_flatMap]
  exact List.flatMap_congr fun node _ => Node.selves_mapSelf f node

theorem plain_mapSelf (h : B.Plain) {f : Element Nat Handler → Element Nat Handler}
    (hlisteners : ∀ e, (f e).listeners = e.listeners)
    (hid : ∀ e, (f e).attribute? "id" = e.attribute? "id") : (B.mapSelf f).Plain := by
  have hothers : (B.mapSelf f).others = B.others.map f := by
    simp only [Backdrop.others, Backdrop.mapSelf, ← List.map_append, flatMap_selves_mapSelf]
    rfl
  refine ⟨fun e he => ?_, fun k => (hlisteners _).trans (h.silent k),
    fun k => (hid _).trans (h.id k), fun e he => ?_⟩
  · rw [hothers] at he
    obtain ⟨old, hold, rfl⟩ := List.mem_map.1 he
    obtain ⟨hsilent, hne⟩ := h.others old hold
    exact ⟨(hlisteners old).trans hsilent, fun k => by rw [hid]; exact hne k⟩
  · rw [show [(B.mapSelf f).head, (B.mapSelf f).body, (B.mapSelf f).main] =
      [B.head, B.body, B.main].map f from rfl] at he
    obtain ⟨old, hold, rfl⟩ := List.mem_map.1 he
    rw [hid]
    exact h.root old hold

/-- Changing an element, its children aside. -/
theorem adjustElement (h : Scene away c B content) (n : Nat)
    {f : Element Nat Handler → Element Nat Handler} (hmark : ∀ e, (f e).mark = e.mark)
    (hlisteners : ∀ e, (f e).listeners = e.listeners)
    (hid : ∀ e, (f e).attribute? "id" = e.attribute? "id") :
    Scene away { c with document := c.document.adjustElement n f } (B.mapSelf (changeAt n f))
      fun k => (content k).map (Node.mapSelf (changeAt n f)) := by
  have hmark' : ∀ e, (changeAt n f e).mark = e.mark := by
    intro e
    unfold changeAt
    split
    · exact hmark e
    · rfl
  have htree : ∀ tree ∈ c.document.all,
      tree.adjust (hasMark n) (fun self children => .element (f self) children) =
        tree.mapSelf (changeAt n f) := fun tree hmem =>
    Node.adjust_eq_mapSelf (h.sound.nodup.sublist (Node.sublist_flatMap_of_mem hmem Node.marks))
  have hspares : ∀ m, B.Spares m → (B.mapSelf (changeAt n f)).Spares m := fun m hm =>
    ⟨fun heq => hm.1 (heq.trans (hmark' _)), fun k heq => hm.2 k (heq.trans (hmark' _))⟩
  refine ⟨h.sound.adjustElement n hmark, ?_, ?_, fun k => (hmark' _).trans (h.container k), ?_,
    fun m hm => ?_⟩
  · show c.document.head.map _ = _
    rw [h.head, Option.map_some, htree _ (by simp [Document.all, Document.trees, h.head]),
      Backdrop.headTree_mapSelf]
  · show c.document.body.map _ = _
    rw [h.body, Option.map_some, htree _ (by simp [Document.all, Document.trees, h.body]),
      Backdrop.bodyTree_mapSelf]
  · refine plain_mapSelf h.plain (fun e => ?_) fun e => ?_
    · unfold changeAt
      split
      · exact hlisteners e
      · rfl
    · unfold changeAt
      split
      · exact hid e
      · rfl
  · obtain ⟨hlt, hm, hnot⟩ := h.away m hm
    refine ⟨hlt, hspares m hm, fun k hmem => hnot k ?_⟩
    rw [List.flatMap_map, List.flatMap_congr fun node _ => Node.marks_mapSelf hmark' node] at hmem
    exact hmem

end Scene

end RosterPanel
