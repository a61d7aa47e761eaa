import RosterPanel.Proofs.Drawing
import RosterPanel.Proofs.Renumbering

/-!
# Drawing a part once more

What is taken off the page when a part that has just been drawn is drawn once more. Results:

* `Canvas.Orderly.unmount_mounted`: the property panel that has been mounted is taken out again.
* `Canvas.emptied_putAll`: what has been put into a container, and below what is in it, is taken
  out again.
-/

namespace RosterPanel

open Page (Document Element Node)
open Page.Document (hasMark)

namespace Page.Document

variable {H : Type} {d : Document H}

theorem adjustChildren_adjustChildren (d : Document H) (n : Nat)
    (g k : List (Node Nat H) → List (Node Nat H)) :
    (d.adjustChildren n g).adjustChildren n k = d.adjustChildren n fun l => k (g l) := by
  unfold adjustChildren
  rw [mapTrees_mapTrees]
  exact mapTrees_congr (Node.adjust_children_twice _ g k) d

theorem adjustChildren_append_nil (d : Document H) (n : Nat) :
    d.adjustChildren n (· ++ []) = d := by
  refine mapTrees_eq_self fun tree _ => ?_
  simp only [List.append_nil]
  exact Node.adjust_children_id _ tree

/-- Emptying an element, when something has been put into it, or into one that is not there after
that. -/
theorem adjustChildren_append {n m : Nat} {t : Node Nat H}
    (hn : n = m ∨ n ∉ (d.adjustChildren m fun _ => []).numbers)
    (ht : ∀ e ∈ t.selves, hasMark m e = false) :
    (d.append n t).adjustChildren m (fun _ => []) = d.adjustChildren m fun _ => [] := by
  by_cases heq : n = m
  · subst heq
    exact d.adjustChildren_adjustChildren n _ _
  · have hother : ∀ e : Element Nat H, hasMark n e = true → hasMark m e = false := by
      intro e he
      exact beq_eq_false_iff_ne.2 fun hm => heq ((beq_iff_eq.1 he).symm.trans hm)
    have hcomm := mapTrees_comm (Node.adjust_append_clear hother ht) d
    exact hcomm.trans (adjust_eq_of_notMem (hn.resolve_left heq) _)

/-- Taking out numbers that have not been given out yet changes nothing. -/
theorem Sound.prune_new (h : d.Sound) {numbers : List Nat}
    (hnew : ∀ m ∈ numbers, d.fresh ≤ m) {tree : Node Nat H} (htree : tree ∈ d.all) :
    Node.prune (fun e => numbers.contains e.mark) tree = tree := by
  refine Node.prune_eq_self fun e he => ?_
  have hlt := h.bound e.mark (List.mem_flatMap.2 ⟨tree, htree, List.mem_map_of_mem he⟩)
  rw [List.contains_eq_mem, decide_eq_false_iff_not]
  exact fun hmem => absurd hlt (Nat.not_lt_of_le (hnew _ hmem))

end Page.Document

/-- Forgetting slots that pass, when one of them has been remembered. -/
theorem SlotMap.removeWhere_insert {Handle : Type} (m : SlotMap Handle) {p : Slot → Bool} {x : Slot}
    (hx : p x = true) (h : Handle) :
    ((m.insert x h).2.removeWhere p).2 = (m.removeWhere p).2 := by
  have hother : ∀ e : Slot × Handle, (!p e.1 && !(e.1 == x)) = !p e.1 := by
    intro e
    by_cases he : e.1 = x
    · simp [he, hx]
    · simp [he]
  have hentries : ((m.insert x h).2.removeWhere p).2.entries = (m.removeWhere p).2.entries := by
    rw [entries_removeWhere, entries_removeWhere]
    show List.filter _ ((x, h) :: (m.removeWhere (· == x)).2.entries) = _
    rw [List.filter_cons_of_neg (by simp [hx]), entries_removeWhere, List.filter_filter]
    simp only [hother]
  exact congrArg SlotMap.mk hentries

theorem SlotMap.removeWhere_removeWhere {Handle : Type} (m : SlotMap Handle) (p : Slot → Bool) :
    ((m.removeWhere p).2.removeWhere p).2 = (m.removeWhere p).2 := by
  have hentries : ((m.removeWhere p).2.removeWhere p).2.entries = (m.removeWhere p).2.entries := by
    rw [entries_removeWhere, entries_removeWhere, List.filter_filter]
    simp only [Bool.and_self]
  exact congrArg SlotMap.mk hentries

theorem SlotMap.removeWhere_eq_self {Handle : Type} {m : SlotMap Handle} {p : Slot → Bool}
    (h : ∀ e ∈ m.entries, p e.1 = false) : (m.removeWhere p).2 = m := by
  have hentries : (m.removeWhere p).2.entries = m.entries := by
    rw [entries_removeWhere, List.filter_eq_self]
    exact fun e he => by simp [h e he]
  exact congrArg SlotMap.mk hentries

theorem SlotMap.mem_removed_removeWhere {Handle : Type} {m : SlotMap Handle} {p : Slot → Bool}
    {h : Handle} : h ∈ (m.removeWhere p).1 ↔ ∃ x, (x, h) ∈ m.entries ∧ p x = true := by
  rw [removed_removeWhere]
  simp

/-- Whether a placement is in the container for entities of a kind: a sketch with slots from there
goes into it, or below what is remembered under a slot from there. -/
structure Placement.Local (k : EntityKind) (x : Placement) : Prop where
  anchor : x.anchor = .container k ∨ ∃ s, x.anchor = .slot s ∧ Slot.within k s = true
  slots : ∀ s ∈ Sketch.slots [x.sketch], Slot.within k s = true

namespace Canvas

variable {c : Canvas}

/-! ## The property panel -/

theorem register_of_slots_eq_nil {s : Sketch} (h : Sketch.slots [s] = []) (slots : SlotMap Nat)
    (next : Nat) : register slots (s.number next).1 = slots := by
  rw [← slots_number s next, List.filterMap_eq_nil_iff] at h
  rw [register_eq]
  generalize (s.number next).1.marks = marks at h ⊢
  induction marks with
  | nil => rfl
  | cons mark rest ih =>
    rw [List.forall_mem_cons] at h
    obtain ⟨x, n⟩ := mark
    obtain rfl : x = none := h.1
    exact ih h.2

/-- Skipping the numbers of a sketch. -/
theorem ahead_number (c : Canvas) (s : Sketch) :
    ∃ gap, ({ c with document := { c.document with
      fresh := (s.number c.document.fresh).2 } } : Canvas) = c.ahead gap := by
  obtain ⟨gap, hgap, -⟩ := s.number_marks c.document.fresh
  exact ⟨gap, by rw [hgap]; rfl⟩

/-- Taking a sketch out again that has just been put on a canvas, by the number of its root. -/
theorem Orderly.cut_place_root (h : c.Orderly) (n : Nat) (self : Element (Option Slot) Handler)
    (children : List Sketch) :
    ((c.place n (.element self children)).2.cut [c.document.fresh]).document =
      { c.document with fresh := (Node.number c.document.fresh (.element self children)).2 } := by
  let s : Sketch := .element self children
  let d : Document Handler := { c.document with fresh := (s.number c.document.fresh).2 }
  have hroot : (c.entered s).test (fun e => [c.document.fresh].contains e.mark) = true := by
    show [c.document.fresh].contains c.document.fresh = true
    simp
  have hpruned : ∀ l, Node.pruneAmong (fun e => [c.document.fresh].contains e.mark)
      (l ++ [c.entered s]) = Node.pruneAmong (fun e => [c.document.fresh].contains e.mark) l := by
    intro l
    rw [Node.pruneAmong_append, Node.pruneAmong, if_pos hroot, Node.pruneAmong, List.append_nil]
  show (d.mapTrees (Node.adjust (hasMark n) fun self children =>
    .element self (children ++ [c.entered s]))).mapTrees
      (Node.prune fun e => [c.document.fresh].contains e.mark) = d
  rw [Document.mapTrees_mapTrees]
  refine Document.mapTrees_eq_self fun tree htree => ?_
  rw [Node.prune_adjust_children (k := fun l => l) hpruned, Node.adjust_children_id]
  exact h.sound.prune_new (by simp) htree

theorem Orderly.unmount_mounted (h : c.Orderly) (hnone : c.view.editor = none) (p : Panel) :
    ∃ gap, (c.mounted p).unmount = c.ahead gap := by
  have hsame : ∃ gap, c.unmount = c.ahead gap := ⟨0, unmount_of_none hnone⟩
  unfold Canvas.mounted
  cases p.editor with
  | none => exact hsame
  | some e =>
    simp only
    cases c.slot? (Slot.ofTarget e.target) with
    | none => exact hsame
    | some anchor =>
      obtain ⟨gap, hgap⟩ := c.ahead_number (Sketch.propertyPanel e)
      refine ⟨gap, ?_⟩
      rw [← hgap]
      have hslots := register_of_slots_eq_nil (Bearing.slots_propertyPanel e) c.view.slots
        c.document.fresh
      have hview : ({ c.view with
          slots := register c.view.slots ((Sketch.propertyPanel e).number c.document.fresh).1
          editor := none } : View) = c.view := by
        rw [hslots, ← hnone]
      have htrees : ((c.place anchor (Sketch.propertyPanel e)).2.cut [c.document.fresh]).document =
          { c.document with fresh := ((Sketch.propertyPanel e).number c.document.fresh).2 } :=
        h.cut_place_root anchor _ _
      exact congrArg₂ Canvas.mk htrees hview

/-! ## Containers -/

/-- Forgetting slots that pass, when slots that pass have been remembered since. -/
theorem removeWhere_foldl_note {marks : List (Option Slot × Nat)} {p : Slot → Bool}
    (h : ∀ x ∈ marks.filterMap (·.1), p x = true) (slots : SlotMap Nat) :
    ((marks.foldl note slots).removeWhere p).2 = (slots.removeWhere p).2 := by
  induction marks generalizing slots with
  | nil => rfl
  | cons mark rest ih =>
    obtain ⟨_ | x, n⟩ := mark
    · exact ih h slots
    · have hfirst : ((some x, n) :: rest).filterMap (·.1) = x :: rest.filterMap (·.1) := rfl
      rw [hfirst, List.forall_mem_cons] at h
      rw [List.foldl_cons, ih h.2]
      exact SlotMap.removeWhere_insert slots h.1 n

/-- What a sketch that is put on a canvas takes along is forgotten with it. -/
theorem forget_place {s : Sketch} {p : Slot → Bool} (h : ∀ x ∈ Sketch.slots [s], p x = true)
    (c : Canvas) (n : Nat) :
    ((c.place n s).2.view.slots.removeWhere p).2 = (c.view.slots.removeWhere p).2 := by
  show ((register c.view.slots (s.number c.document.fresh).1).removeWhere p).2 = _
  rw [register_eq]
  exact removeWhere_foldl_note (by rwa [slots_number]) c.view.slots

/-- A canvas after some drawing in a container that had been emptied: emptying the container again
gives the canvas from before, and what is remembered of the container is new. -/
structure Refilled (k : EntityKind) (c d : Canvas) : Prop where
  emptied : ∃ gap, d.emptied k = c.ahead gap
  container : d.view.container k = c.view.container k
  new : ∀ e ∈ d.view.slots.entries, Slot.within k e.1 = true → c.document.fresh ≤ e.2
  fresh : c.document.fresh ≤ d.document.fresh

theorem container_place (d : Canvas) (n : Nat) (s : Sketch) (k : EntityKind) :
    (d.place n s).2.view.container k = d.view.container k := by
  cases k <;> rfl

/-- Emptying the container after a sketch has been put into it, or below something new in it. -/
theorem Refilled.emptied_place {d : Canvas} {k : EntityKind} (hc : c.Orderly)
    (h : Refilled k c d) {s : Sketch} (hs : ∀ x ∈ Sketch.slots [s], Slot.within k x = true)
    {n : Nat} (hn : n = c.view.container k ∨ c.document.fresh ≤ n) :
    ∃ gap, (d.place n s).2.emptied k = c.ahead gap := by
  obtain ⟨gap, hgap⟩ := h.emptied
  let D : Document Handler := { d.document with fresh := (s.number d.document.fresh).2 }
  have hcleared : D.adjustChildren (c.view.container k) (fun _ => []) =
      { c.document with fresh := D.fresh } := by
    have hdocument : d.document.adjustChildren (c.view.container k) (fun _ => []) =
        (c.ahead gap).document := by
      rw [← hgap, ← h.container]
      rfl
    exact congrArg (fun e : Document Handler => { e with fresh := D.fresh }) hdocument
  have hnew : n = c.view.container k ∨
      n ∉ (D.adjustChildren (c.view.container k) fun _ => []).numbers := by
    rw [hcleared]
    exact hn.imp_right fun hle hmem => absurd (hc.sound.bound n hmem) (Nat.not_lt_of_le hle)
  have hdocument := (Document.adjustChildren_append hnew (hasMark_entered_of_lt
    (Nat.lt_of_lt_of_le (hc.view.container k) h.fresh) s)).trans hcleared
  have hview := congrArg Canvas.view hgap
  obtain ⟨gap', hgap'⟩ := Nat.exists_eq_add_of_le
    (Nat.le_trans h.fresh (Node.le_number s d.document.fresh))
  refine ⟨gap', ?_⟩
  have hemptied : (d.place n s).2.emptied k = ⟨(D.append n (d.entered s)).adjustChildren
      ((d.place n s).2.view.container k) fun _ => [], { (d.place n s).2.view with
        slots := ((d.place n s).2.view.slots.removeWhere (Slot.within k)).2 }⟩ := rfl
  rw [hemptied, container_place, h.container, hdocument, forget_place hs]
  exact congrArg₂ Canvas.mk (congrArg (fun fresh => { c.document with fresh }) hgap') hview

/-- Putting a sketch into the container, or below something new in it. -/
theorem Refilled.place {d : Canvas} {k : EntityKind} (hc : c.Orderly) (h : Refilled k c d)
    {s : Sketch} (hs : ∀ x ∈ Sketch.slots [s], Slot.within k x = true) {n : Nat}
    (hn : n = c.view.container k ∨ c.document.fresh ≤ n) : Refilled k c (d.place n s).2 where
  emptied := h.emptied_place hc hs hn
  container := (container_place d n s k).trans h.container
  new e he hin := by
    rcases mem_slots_place he with he | ⟨-, hle, -⟩
    · exact h.new e he hin
    · exact Nat.le_trans h.fresh hle
  fresh := Nat.le_trans h.fresh (Node.le_number s d.document.fresh)

theorem Refilled.put {d : Canvas} {k : EntityKind} (hc : c.Orderly) (h : Refilled k c d)
    {x : Placement} (hx : x.Local k) : Refilled k c (d.put x) := by
  unfold Canvas.put
  split
  · exact h
  · next n hn =>
    refine h.place hc hx.slots ?_
    rcases hx.anchor with hanchor | ⟨s, hanchor, hs⟩
    · rw [hanchor] at hn
      exact Or.inl ((Option.some.inj hn).symm.trans h.container)
    · rw [hanchor] at hn
      exact Or.inr (h.new (s, n) (SlotMap.mem_of_get? hn) hs)

theorem Refilled.putAll {d : Canvas} {k : EntityKind} (hc : c.Orderly) (h : Refilled k c d)
    {xs : List Placement} (hxs : ∀ x ∈ xs, x.Local k) : Refilled k c (d.putAll xs) := by
  induction xs generalizing d with
  | nil => exact h
  | cons x rest ih =>
    rw [List.forall_mem_cons] at hxs
    exact ih (h.put hc hxs.1) hxs.2

theorem emptied_emptied (k : EntityKind) (c : Canvas) : (c.emptied k).emptied k = c.emptied k := by
  have hcontainer : (c.emptied k).view.container k = c.view.container k := by
    cases k <;> rfl
  have hdocument := c.document.adjustChildren_adjustChildren (c.view.container k) (fun _ => [])
    fun _ => []
  have hemptied : (c.emptied k).emptied k = ⟨(c.document.adjustChildren (c.view.container k)
      fun _ => []).adjustChildren ((c.emptied k).view.container k) fun _ => [],
        { c.view with slots := ((c.view.slots.removeWhere (Slot.within k)).2.removeWhere
          (Slot.within k)).2 }⟩ := rfl
  rw [hemptied, hcontainer, hdocument, SlotMap.removeWhere_removeWhere]
  rfl

theorem emptied_putAll (h : c.Orderly) {k : EntityKind} {xs : List Placement}
    (hxs : ∀ x ∈ xs, x.Local k) :
    ∃ gap, ((c.emptied k).putAll xs).emptied k = (c.emptied k).ahead gap := by
  have hstart : Refilled k (c.emptied k) (c.emptied k) := by
    refine ⟨⟨0, emptied_emptied k c⟩, rfl, fun e he hin => ?_, Nat.le_refl _⟩
    have he : e ∈ (c.view.slots.removeWhere (Slot.within k)).2.entries := he
    rw [SlotMap.entries_removeWhere] at he
    exact absurd (List.mem_filter.1 he).2 (by simp [hin])
  exact (hstart.putAll (h.emptied k) hxs).emptied

end Canvas

namespace Panel

theorem local_memberPlacements (p : Panel) (groupId : String) :
    ∀ x ∈ p.memberPlacements groupId, x.Local .group := by
  intro x hx
  obtain ⟨u, -, rfl⟩ := List.mem_map.1 hx
  exact ⟨Or.inr ⟨_, rfl, rfl⟩, by simp [Placement.member, Slot.within, Slot.inGroups]⟩

/-- All that is drawn into a container is local to it. -/
theorem local_areaPlacements (p : Panel) (k : EntityKind) :
    ∀ x ∈ p.areaPlacements k, x.Local k := by
  intro x hx
  cases k with
  | group =>
    rcases List.mem_append.1 hx with hx | hx
    · obtain ⟨g, -, hx⟩ := List.mem_flatMap.1 hx
      rcases List.mem_cons.1 hx with rfl | hx
      · exact ⟨Or.inl rfl, by simp [Slot.within, Slot.inGroups]⟩
      · exact p.local_memberPlacements g.id x hx
    · split at hx
      · cases hx
      · obtain rfl := List.mem_singleton.1 hx
        exact ⟨Or.inl rfl, by simp [Slot.within, Slot.inGroups]⟩
  | user =>
    rcases List.mem_append.1 hx with hx | hx
    · obtain ⟨u, -, rfl⟩ := List.mem_map.1 hx
      exact ⟨Or.inl rfl, by simp [Slot.within, Slot.inUsers]⟩
    · split at hx
      · cases hx
      · obtain rfl := List.mem_singleton.1 hx
        exact ⟨Or.inl rfl, by simp [Slot.within, Slot.inUsers]⟩

end Panel

end RosterPanel
