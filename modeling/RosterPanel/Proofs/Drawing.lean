import Mathlib.Data.List.Nodup
import RosterPanel.Proofs.Resemblance
import RosterPanel.Proofs.Scene

/-!
# Pages that bear sketches

When the contents of the two containers are what some sketches say, and what is remembered of the
page is what is on it; the property panel is left aside at first, since it is mounted last. Results:

* `Bears`: the contents without the property panel are like given sketches.
* `Shows`: the contents are like given sketches with the property panel mounted.
* `Bearing.place_container`, `Bearing.place_inside`, `Bearing.clear`: what the steps of drawing do.
* `Bearing.mount`: the property panel is mounted anew.
-/

namespace RosterPanel

open Page (Document Element Node)
open Page.Node (Like LikeAll)
open Page.Document (hasMark)

/-- The sketches for the container for entities of a kind. -/
abbrev Sketches := EntityKind → List Sketch

/-- The contents without the property panel. -/
def View.bare (v : View) (l : List (Node Nat Handler)) : List (Node Nat Handler) :=
  match v.editor with
  | none => l
  | some n => Node.pruneAmong (hasMark n) l

theorem View.bare_of_none {v : View} (h : v.editor = none) (l : List (Node Nat Handler)) :
    v.bare l = l := by
  unfold bare
  rw [h]

theorem View.bare_of_some {v : View} {n : Nat} (h : v.editor = some n)
    (l : List (Node Nat Handler)) : v.bare l = Node.pruneAmong (hasMark n) l := by
  unfold bare
  rw [h]

/-- The contents of the containers are like sketches, the property panel aside, and what is
remembered is what is there. -/
structure Bearing (away : List Nat) (latched : Control → Bool) (typed : List Nat) (l : Sketches)
    (c : Canvas) (B : Backdrop) (content : Contents) : Prop extends Scene away c B content where
  like : ∀ k, LikeAll (Stands c.view.slots latched typed) (c.view.bare (content k)) (l k)
  known : ∀ x n, c.view.slots.get? x = some n → ∃ k, x ∈ Sketch.slots (l k)
  keyed : c.view.slots.Keyed
  editor : ∀ n, c.view.editor = some n → n < c.document.fresh ∧ B.Spares n

/-- A canvas bears sketches: they are in the containers, the property panel aside. -/
def Bears (away : List Nat) (latched : Control → Bool) (typed : List Nat) (l : Sketches)
    (c : Canvas) : Prop := ∃ B content, Bearing away latched typed l c B content

/-- A canvas shows sketches, with the property panel mounted. -/
def Shows (away : List Nat) (latched : Control → Bool) (typed : List Nat) (l : Sketches)
    (editor : Option Editor) (c : Canvas) : Prop :=
  ∃ B content, Bearing away latched typed l c B content ∧
    ∀ k, LikeAll (Stands c.view.slots latched typed) (content k) (Sketch.mountAt editor (l k))

variable {away : List Nat} {latched : Control → Bool} {typed : List Nat} {l : Sketches}
  {c : Canvas} {B : Backdrop} {content : Contents} {editor : Option Editor}

theorem Shows.bears (h : Shows away latched typed l editor c) : Bears away latched typed l c := by
  obtain ⟨B, content, h, -⟩ := h
  exact ⟨B, content, h⟩

/-! ## Slots of sketches to which one is added -/

namespace Sketch

theorem mem_slots_adjust_new {l : List Sketch} {x y : Slot} {s : Sketch} (hx : x ∈ slots l)
    (hy : y ∈ slots [s]) :
    y ∈ slots (l.map (Node.adjust (fun e => e.mark == some x)
      fun self children => .element self (children ++ [s]))) := by
  obtain ⟨u, hu, hmark⟩ := mem_slots.1 hx
  obtain ⟨tree, htree, hu⟩ := List.mem_flatMap.1 hu
  have hsub := Node.marks_adjust_of_mem (p := fun e => e.mark == some x)
    (g := fun children => children ++ [s]) (a := s.marks) (fun l m hm => by simp [hm]) hu
    (by simp [hmark])
  rw [mem_slots_iff, List.flatMap_singleton] at hy
  rw [mem_slots_iff, List.flatMap_map]
  exact List.mem_flatMap.2 ⟨tree, htree, hsub hy⟩

theorem mem_slots_adjust_old {l : List Sketch} {x y : Slot} {s : Sketch} (hy : y ∈ slots l) :
    y ∈ slots (l.map (Node.adjust (fun e => e.mark == some x)
      fun self children => .element self (children ++ [s]))) := by
  rw [mem_slots_iff] at hy ⊢
  obtain ⟨tree, htree, hy⟩ := List.mem_flatMap.1 hy
  rw [List.flatMap_map]
  refine List.mem_flatMap.2 ⟨tree, htree, ?_⟩
  exact Node.marks_subset_adjust (g := fun children => children ++ [s])
    (fun l m hm => by simp [hm]) tree hy

end Sketch

namespace Bearing

/-! ## What is remembered -/

theorem mem_of_mem_bare {v : View} {l : List (Node Nat Handler)} {m : Nat}
    (hm : m ∈ (v.bare l).flatMap Node.marks) : m ∈ l.flatMap Node.marks := by
  unfold View.bare at hm
  split at hm
  · exact hm
  · exact Node.mem_marks_pruneAmong hm

/-- What is found under a slot stands for an element in that slot. -/
theorem exists_of_get? (h : Bearing away latched typed l c B content) {x : Slot} {n : Nat}
    (hx : c.view.slots.get? x = some n) :
    ∃ k, x ∈ Sketch.slots (l k) ∧ n ∈ (content k).flatMap Node.marks := by
  obtain ⟨k, hk⟩ := h.known x n hx
  obtain ⟨s, hs, hmark⟩ := Sketch.mem_slots.1 hk
  obtain ⟨e, he, hstands⟩ := Node.exists_of_forall₂_right (h.like k).selves hs
  have heq : n = e.mark := by
    have hslot := (hstands.slot x).1 hmark
    rw [hx, Option.some.injEq] at hslot
    exact hslot
  refine ⟨k, hk, mem_of_mem_bare (v := c.view) ?_⟩
  rw [heq, ← Scene.map_mark_selves]
  exact List.mem_map_of_mem he

theorem get?_of_mem_slots (h : Bearing away latched typed l c B content) {x : Slot}
    {k : EntityKind} (hx : x ∈ Sketch.slots (l k)) : ∃ n, c.view.slots.get? x = some n := by
  obtain ⟨s, hs, hmark⟩ := Sketch.mem_slots.1 hx
  obtain ⟨e, -, hstands⟩ := Node.exists_of_forall₂_right (h.like k).selves hs
  exact ⟨e.mark, (hstands.slot x).1 hmark⟩

theorem get?_lt_fresh (h : Bearing away latched typed l c B content) {x : Slot} {n : Nat}
    (hx : c.view.slots.get? x = some n) : n < c.document.fresh := by
  obtain ⟨k, -, hmem⟩ := h.exists_of_get? hx
  exact h.toScene.lt_fresh hmem

/-- Forgetting slots that none of the sketches has. -/
theorem like_removeWhere {slots : SlotMap Nat} {p : Slot → Bool} {m : List (Node Nat Handler)}
    {m' : List Sketch} (h : LikeAll (Stands slots latched typed) m m')
    (hp : ∀ x ∈ Sketch.slots m', p x = false) :
    LikeAll (Stands (slots.removeWhere p).2 latched typed) m m' := by
  refine h.imp_of_mem fun e _ u hu hstands => hstands.of_slots fun x => ?_
  rw [SlotMap.get?_removeWhere]
  split
  · next hx =>
    refine iff_of_false (by simp) fun hget => ?_
    have hslot := Sketch.mem_slots.2 ⟨u, hu, (hstands.slot x).2 hget⟩
    rw [hp x hslot] at hx
    cases hx
  · exact Iff.rfl

/-- What is still remembered after forgetting slots. -/
theorem known_removeWhere (h : Bearing away latched typed l c B content) {p : Slot → Bool}
    {x : Slot} {n : Nat} (hx : (c.view.slots.removeWhere p).2.get? x = some n) :
    p x = false ∧ ∃ k, x ∈ Sketch.slots (l k) := by
  rw [SlotMap.get?_removeWhere] at hx
  split at hx
  · cases hx
  · next hnot => exact ⟨by simpa using hnot, h.known x n hx⟩

/-! ## A sketch is entered -/

section Enter

variable {s : Sketch}

/-- What is remembered once a sketch is entered. -/
abbrev slotsWith (c : Canvas) (s : Sketch) : SlotMap Nat :=
  Canvas.register c.view.slots (s.number c.document.fresh).1

theorem slots_dress (latched : Control → Bool) (s : Sketch) :
    Sketch.slots [Node.mapSelf (Sketch.dress latched) s] = Sketch.slots [s] := by
  simp [Sketch.slots, Node.marks_mapSelf (Sketch.mark_dress latched)]

/-- The new elements have new numbers. -/
theorem fresh_le_of_mem {x : Option Slot} {n : Nat}
    (hmem : (x, n) ∈ (s.number c.document.fresh).1.marks) : c.document.fresh ≤ n := by
  obtain ⟨count, -, hmarks⟩ := s.number_marks c.document.fresh
  have hn : n ∈ (s.number c.document.fresh).1.marks.map (·.2) := List.mem_map_of_mem hmem
  rw [hmarks, List.mem_range'_1] at hn
  exact hn.1

theorem nodup_marks_entered (c : Canvas) (s : Sketch) :
    ((s.number c.document.fresh).1.marks.map (·.2)).Nodup := by
  obtain ⟨count, -, hmarks⟩ := s.number_marks c.document.fresh
  rw [hmarks]
  exact List.nodup_range'

/-- The new elements stand for those of the sketch. -/
theorem like_entered (h : Bearing away latched typed l c B content)
    (hneat : ∀ e ∈ s.selves, Sketch.Neat e) (hnodup : (Sketch.slots [s]).Nodup) :
    Like (Stands (slotsWith c (Node.mapSelf (Sketch.dress latched) s)) latched typed)
      (c.entered (Node.mapSelf (Sketch.dress latched) s)) s := by
  generalize hdressed : Node.mapSelf (Sketch.dress latched) s = t
  have hslots : Sketch.slots [t] = Sketch.slots [s] := hdressed ▸ slots_dress latched s
  -- First for the dressed sketch, of which the entered tree is a copy.
  have hcopy : Like (fun e u : _ => (∀ x, u.mark = some x ↔
      (slotsWith c t).get? x = some e.mark) ∧ Resembles typed e u) (c.entered t) t := by
    refine Node.like_number t c.document.fresh fun e he => ⟨fun x => ?_, .of_setMark e _ _⟩
    have hmem : e.mark ∈ (t.number c.document.fresh).1.marks := List.mem_map_of_mem he
    show e.mark.1 = some x ↔ (slotsWith c t).get? x = some e.mark.2
    rw [slotsWith, Canvas.get?_register (hslots ▸ hnodup)]
    constructor
    · intro heq
      exact Or.inl (heq ▸ hmem)
    · rintro (hx | ⟨-, hold⟩)
      · exact congrArg Prod.fst
          (List.inj_on_of_nodup_map (nodup_marks_entered c t) hmem hx rfl)
      · exact absurd (h.get?_lt_fresh hold) (Nat.not_lt_of_le (fresh_le_of_mem hmem))
  rw [← hdressed] at hcopy ⊢
  refine (Node.Like.of_mapSelf_right hcopy).imp_of_mem fun e _ u hu hR => ?_
  exact ⟨fun x => by rw [← hR.1 x, Sketch.mark_dress], hneat u hu, hR.2⟩

variable (hnodup : (Sketch.slots [s]).Nodup)
  (hnew : ∀ x ∈ Sketch.slots [s], ∀ k, x ∉ Sketch.slots (l k))

include hnodup hnew in
/-- The old elements stand for what they stood for. -/
theorem like_old (h : Bearing away latched typed l c B content) (k : EntityKind) :
    LikeAll (Stands (slotsWith c (Node.mapSelf (Sketch.dress latched) s)) latched typed)
      (c.view.bare (content k)) (l k) := by
  refine (h.like k).imp_of_mem fun e he u _ hstands => hstands.of_slots fun x => ?_
  have hlt : e.mark < c.document.fresh := by
    refine h.toScene.lt_fresh (k := k) (mem_of_mem_bare (v := c.view) ?_)
    rw [← Scene.map_mark_selves]
    exact List.mem_map_of_mem he
  rw [slotsWith, Canvas.get?_register (by rw [slots_dress]; exact hnodup), slots_dress]
  constructor
  · rintro (hmem | ⟨-, hx⟩)
    · exact absurd hlt (Nat.not_lt_of_le (fresh_le_of_mem hmem))
    · exact hx
  · intro hx
    obtain ⟨k', hk'⟩ := h.known x _ hx
    exact Or.inr ⟨fun hmem => hnew x hmem k' hk', hx⟩

include hnodup in
theorem known_with (h : Bearing away latched typed l c B content) {x : Slot} {n : Nat}
    (hx : (slotsWith c (Node.mapSelf (Sketch.dress latched) s)).get? x = some n) :
    x ∈ Sketch.slots [s] ∨ ∃ k, x ∈ Sketch.slots (l k) := by
  rw [slotsWith, Canvas.get?_register (by rw [slots_dress]; exact hnodup), slots_dress] at hx
  rcases hx with hmem | ⟨-, hx⟩
  · rw [← slots_dress latched s, ← Canvas.slots_number _ c.document.fresh]
    exact Or.inl (List.mem_filterMap.2 ⟨_, hmem, rfl⟩)
  · exact Or.inr (h.known x n hx)

theorem keyed_with (h : Bearing away latched typed l c B content) (s : Sketch) :
    (slotsWith c s).Keyed := by
  rw [slotsWith, Canvas.register_eq]
  exact Canvas.keyed_foldl_note h.keyed _

/-- The property panel is not in what is entered. -/
theorem bare_entered (h : Bearing away latched typed l c B content) (s : Sketch) :
    c.view.bare [c.entered s] = [c.entered s] := by
  unfold View.bare
  split
  · rfl
  · next n hn =>
    refine Node.pruneAmong_eq_self (Document.hasMark_eq_false fun hmem => ?_)
    obtain ⟨count, -, hmarks⟩ := c.document.entered_marks s
    rw [List.flatMap_singleton, Canvas.entered, hmarks, List.mem_range'_1] at hmem
    exact absurd (h.editor n hn).1 (Nat.not_lt_of_le hmem.1)

theorem bare_append (v : View) (l m : List (Node Nat Handler)) :
    v.bare (l ++ m) = v.bare l ++ v.bare m := by
  unfold View.bare
  split
  · rfl
  · exact Node.pruneAmong_append _ _ _

/-- The property panel can be left aside before or after a tree is put in. -/
theorem bare_adjust {v : View} {t : Node Nat Handler} (h : v.bare [t] = [t]) (n : Nat)
    (l : List (Node Nat Handler)) :
    v.bare (l.map (Node.adjust (hasMark n) fun self children =>
      .element self (children ++ [t]))) =
        (v.bare l).map (Node.adjust (hasMark n) fun self children =>
          .element self (children ++ [t])) := by
  unfold View.bare at h ⊢
  split at h
  · rfl
  · refine Node.pruneAmong_adjust_children (k := (· ++ [t])) (fun l => ?_) _
    rw [Node.pruneAmong_append, h]

theorem fresh_place (c : Canvas) (n : Nat) (s : Sketch) :
    c.document.fresh ≤ (c.place n s).2.document.fresh := by
  obtain ⟨count, hfresh, -⟩ := c.document.entered_marks s
  rw [Canvas.place_eq]
  show _ ≤ (c.document.enter s).2.fresh
  rw [hfresh]
  exact Nat.le_add_right _ _

end Enter

/-! ## Steps of drawing -/

section Place

variable {s : Sketch} (hneat : ∀ e ∈ s.selves, Sketch.Neat e) (hnodup : (Sketch.slots [s]).Nodup)
  (hnew : ∀ x ∈ Sketch.slots [s], ∀ k, x ∉ Sketch.slots (l k))

include hneat hnodup hnew

/-- Putting a sketch into a container. -/
theorem place_container (h : Bearing away latched typed l c B content) (k : EntityKind) :
    Bearing away latched typed (Function.update l k (l k ++ [s]))
      (c.place (c.view.container k) (Node.mapSelf (Sketch.dress latched) s)).2 B
      (Function.update content k
        (content k ++ [c.entered (Node.mapSelf (Sketch.dress latched) s)])) := by
  refine ⟨h.toScene.place_container k _, fun k' => ?_, fun x n hx => ?_, h.keyed_with _,
    fun n hn => ?_⟩
  · show LikeAll _ (c.view.bare _) _
    by_cases hk : k' = k
    · subst hk
      rw [Function.update_self, Function.update_self, bare_append, h.bare_entered]
      exact (h.like_old hnodup hnew k').append (.cons (h.like_entered hneat hnodup) .nil)
    · rw [Function.update_of_ne hk, Function.update_of_ne hk]
      exact h.like_old hnodup hnew k'
  · rcases h.known_with hnodup hx with hnew | ⟨k', hold⟩
    · refine ⟨k, ?_⟩
      rw [Function.update_self, Sketch.slots_append]
      exact List.mem_append_right _ hnew
    · refine ⟨k', ?_⟩
      by_cases hk : k' = k
      · subst hk
        rw [Function.update_self, Sketch.slots_append]
        exact List.mem_append_left _ hold
      · rwa [Function.update_of_ne hk]
  · exact ⟨Nat.lt_of_lt_of_le (h.editor n hn).1 (fresh_place c _ _), (h.editor n hn).2⟩

/-- Putting a sketch into the element that is remembered under a slot. -/
theorem place_inside (h : Bearing away latched typed l c B content) {x : Slot} {n : Nat}
    (hx : c.view.slots.get? x = some n) :
    Bearing away latched typed
      (fun k => (l k).map (Node.adjust (fun e => e.mark == some x)
        fun self children => .element self (children ++ [s])))
      (c.place n (Node.mapSelf (Sketch.dress latched) s)).2 B
      (fun k => (content k).map (Node.adjust (hasMark n) fun self children =>
        .element self (children ++ [c.entered (Node.mapSelf (Sketch.dress latched) s)]))) := by
  obtain ⟨k₀, hk₀, hn⟩ := h.exists_of_get? hx
  have hfound : (slotsWith c (Node.mapSelf (Sketch.dress latched) s)).get? x = some n := by
    rw [slotsWith, Canvas.get?_register (by rw [slots_dress]; exact hnodup), slots_dress]
    exact Or.inr ⟨fun hmem => hnew x hmem k₀ hk₀, hx⟩
  refine ⟨h.toScene.place_inside hn _, fun k => ?_, fun y m hy => ?_, h.keyed_with _,
    fun m hm => ?_⟩
  · have hbare := bare_adjust (h.bare_entered (Node.mapSelf (Sketch.dress latched) s)) n
      (content k)
    show LikeAll _ (c.view.bare _) _
    rw [hbare]
    exact (h.like_old hnodup hnew k).adjust_append (fun e u hstands => hstands.hasMark_eq hfound)
      (.cons (h.like_entered hneat hnodup) .nil)
  · rcases h.known_with hnodup hy with hy | ⟨k, hy⟩
    · exact ⟨k₀, Sketch.mem_slots_adjust_new hk₀ hy⟩
    · exact ⟨k, Sketch.mem_slots_adjust_old hy⟩
  · exact ⟨Nat.lt_of_lt_of_le (h.editor m hm).1 (fresh_place c _ _), (h.editor m hm).2⟩

end Place

/-- Emptying a container and forgetting what was in it. -/
theorem clear (h : Bearing away latched typed l c B content)
    (hwithin : ∀ k, ∀ x ∈ Sketch.slots (l k), Slot.within k x = true) (k : EntityKind) :
    Bearing away latched typed (Function.update l k [])
      ((c.clear (c.view.container k)).forget (Slot.within k)) B (Function.update content k []) := by
  have hfresh : (c.document.clear (c.view.container k)).fresh = c.document.fresh := by
    unfold Document.clear
    split <;> rfl
  refine ⟨(h.toScene.clear k).remember _ _, fun k' => ?_, fun x n hx => ?_, h.keyed.removeWhere _,
    fun n hn => ?_⟩
  · show LikeAll (Stands (c.view.slots.removeWhere (Slot.within k)).2 latched typed)
      (c.view.bare _) _
    by_cases hk : k' = k
    · subst hk
      rw [Function.update_self, Function.update_self]
      have hnil : c.view.bare [] = [] := by
        unfold View.bare
        split <;> simp
      rw [hnil]
      exact .nil
    · rw [Function.update_of_ne hk, Function.update_of_ne hk]
      refine like_removeWhere (h.like k') fun x hx => Bool.eq_false_iff.2 fun hin => hk ?_
      exact Slot.within_unique (hwithin k' x hx) hin
  · obtain ⟨hnot, k', hk'⟩ := h.known_removeWhere hx
    refine ⟨k', ?_⟩
    rw [Function.update_of_ne]
    · exact hk'
    · rintro rfl
      rw [hwithin k' x hk'] at hnot
      cases hnot
  · show n < (c.document.clear _).fresh ∧ _
    rw [hfresh]
    exact h.editor n hn

/-- Taking the property panel off the page. -/
theorem dropProperties (h : Bearing away latched typed l c B content) :
    (c.dropProperties).view.editor = none ∧
      ∃ B', Bearing away latched typed l c.dropProperties B' fun k => c.view.bare (content k) := by
  have hlike := h.like
  cases heditor : c.view.editor with
  | none =>
    have hsame : c.dropProperties = c := by
      unfold Canvas.dropProperties
      rw [heditor]
    simp only [View.bare_of_none heditor] at hlike ⊢
    rw [hsame]
    refine ⟨heditor, B, h.toScene, fun k => ?_, h.known, h.keyed, h.editor⟩
    rw [View.bare_of_none heditor]
    exact hlike k
  | some n =>
    have hdropped : c.dropProperties =
        { document := c.document.detach n, view := { c.view with editor := none } } := by
      unfold Canvas.dropProperties
      rw [heditor]
    have hdetached := h.toScene.detach (h.editor n heditor).2
    simp only [View.bare_of_some heditor] at hlike ⊢
    rw [hdropped]
    exact ⟨rfl, _, hdetached.remember _ _, hlike, h.known, h.keyed, fun _ h => by cases h⟩

/-! ## The property panel -/

theorem slots_propertyPanel (e : Editor) : Sketch.slots [Sketch.propertyPanel e] = [] := by
  refine List.eq_nil_iff_forall_not_mem.2 fun x hx => ?_
  obtain ⟨s, hs, hmark⟩ := Sketch.mem_slots.1 hx
  rw [(Sketch.neat_propertyPanel e s (by simpa using hs)).2] at hmark
  cases hmark

/-- Taking a new tree out again from where it was put. -/
theorem prune_mounted (h : Bearing away latched typed l c B content) {t : Node Nat Handler}
    (hroot : Node.test (hasMark c.document.fresh) t = true) (anchor : Nat) (k : EntityKind) :
    Node.pruneAmong (hasMark c.document.fresh) ((content k).map
      (Node.adjust (hasMark anchor) fun self children => .element self (children ++ [t]))) =
        content k := by
  rw [Node.pruneAmong_adjust_children (k := fun children => children) (fun l => ?_),
    Node.map_eq_self fun node _ => Node.adjust_children_id _ node]
  · refine Node.pruneAmong_eq_self (Document.hasMark_eq_false fun hmem => ?_)
    exact Nat.lt_irrefl _ (h.toScene.lt_fresh hmem)
  · rw [Node.pruneAmong_append, Node.pruneAmong, if_pos hroot, Node.pruneAmong, List.append_nil]

/-- Mounting the property panel, while none is mounted. -/
theorem mount (h : Bearing away latched typed l c B content) (hnone : c.view.editor = none)
    (e : Editor) {anchor : Nat} (hanchor : c.slot? (Slot.ofTarget e.target) = some anchor) :
    let mounted := (c.place anchor (Sketch.propertyPanel e)).2
    Shows away latched typed l (some e)
      { mounted with view := { mounted.view with editor := some c.document.fresh } } := by
  have hneat : ∀ x ∈ (Sketch.propertyPanel e).selves, Sketch.Neat x :=
    fun x hx => (Sketch.neat_propertyPanel e x hx).1
  have hnodup : (Sketch.slots [Sketch.propertyPanel e]).Nodup := by
    rw [slots_propertyPanel]
    exact List.nodup_nil
  have hnew : ∀ x ∈ Sketch.slots [Sketch.propertyPanel e], ∀ k, x ∉ Sketch.slots (l k) := by
    intro x hx
    rw [slots_propertyPanel] at hx
    cases hx
  have hplaced := h.place_inside hneat hnodup hnew hanchor
  have hold := h.like_old hnodup hnew
  have hknown := fun x n => h.known_with (x := x) (n := n) hnodup
  rw [Sketch.dress_propertyPanel] at hplaced hold hknown
  rw [slots_propertyPanel] at hknown
  generalize hpanel : Sketch.propertyPanel e = panel at hplaced hold hknown
  -- The root of the property panel has the next number.
  have hroot : Node.test (hasMark c.document.fresh) (c.entered panel) = true := by
    rw [← hpanel]
    exact beq_self_eq_true c.document.fresh
  have hlt : c.document.fresh < (c.place anchor panel).2.document.fresh := by
    rw [← hpanel]
    show c.document.fresh < (c.document.enter (Sketch.propertyPanel e)).2.fresh
    exact Canvas.lt_fresh_enter _ _ _
  have hpruned := h.prune_mounted hroot anchor
  refine ⟨B, _, ⟨hplaced.toScene.remember _ _, fun k => ?_, fun x n hx => ?_, hplaced.keyed,
    fun n hn => ?_⟩, fun k => ?_⟩
  · rw [View.bare_of_some rfl, hpruned]
    have hk := hold k
    rw [View.bare_of_none hnone] at hk
    exact hk
  · exact (hknown x n hx).resolve_left List.not_mem_nil
  · cases hn
    exact ⟨hlt, h.toScene.spares_fresh⟩
  · have hk := hplaced.like k
    have hnone' : (c.place anchor panel).2.view.editor = none := hnone
    rw [View.bare_of_none hnone'] at hk
    rw [Sketch.mountAt, hpanel]
    exact hk

end Bearing

/-- Drawing the property panel anew. -/
theorem Bears.drawProperties (h : Bears away latched typed l c) (p : Panel) :
    Shows away latched typed l p.editor (c.drawProperties p) := by
  obtain ⟨B, content, h⟩ := h
  obtain ⟨hnone, B', hdropped⟩ := h.dropProperties
  have hrest : ∀ {e : Option Editor}, (∀ k, Sketch.mountAt e (l k) = l k) →
      Shows away latched typed l e c.dropProperties := by
    intro e he
    refine ⟨B', _, hdropped, fun k => ?_⟩
    have hk := hdropped.like k
    rw [View.bare_of_none hnone] at hk
    rw [he]
    exact hk
  unfold Canvas.drawProperties
  cases heditor : p.editor with
  | none => exact hrest fun k => rfl
  | some e =>
    cases hslot : c.dropProperties.slot? (Slot.ofTarget e.target) with
    | none =>
      simp only [hslot]
      refine hrest fun k => Sketch.adjust_slot_eq_self (fun hmem => ?_) _
      obtain ⟨n, hn⟩ := hdropped.get?_of_mem_slots hmem
      rw [Canvas.slot?, hn] at hslot
      cases hslot
    | some anchor =>
      simp only [hslot]
      exact hdropped.mount hnone e hslot

namespace Shows

/-! ## Changes that leave the sketches alone -/

/-- What is known of the elements on the page may change where they stay in place. -/
theorem imp {latched' : Control → Bool} {typed' : List Nat}
    (h : Shows away latched typed l editor c)
    (himp : ∀ e s, Stands c.view.slots latched typed e s →
      Stands c.view.slots latched' typed' e s) :
    Shows away latched' typed' l editor c := by
  obtain ⟨B, content, h, hmounted⟩ := h
  have hlike : ∀ {m : List (Node Nat Handler)} {m' : List Sketch},
      LikeAll (Stands c.view.slots latched typed) m m' →
        LikeAll (Stands c.view.slots latched' typed') m m' := fun hm =>
    hm.imp_of_mem fun e _ s _ => himp e s
  exact ⟨B, content, ⟨h.toScene, fun k => hlike (h.like k), h.known, h.keyed, h.editor⟩,
    fun k => hlike (hmounted k)⟩

/-- Changing an element on the page, its children aside. -/
theorem adjustElement {latched' : Control → Bool} {typed' : List Nat}
    (h : Shows away latched typed l editor c) (n : Nat)
    {f : Element Nat Handler → Element Nat Handler} (hmark : ∀ e, (f e).mark = e.mark)
    (hlisteners : ∀ e, (f e).listeners = e.listeners)
    (hid : ∀ e, (f e).attribute? "id" = e.attribute? "id")
    (hstands : ∀ e s, Stands c.view.slots latched typed e s →
      Stands c.view.slots latched' typed' (Scene.changeAt n f e) s) :
    Shows away latched' typed' l editor
      { c with document := c.document.adjustElement n f } := by
  obtain ⟨B, content, h, hmounted⟩ := h
  have hlike : ∀ {m : List (Node Nat Handler)} {m' : List Sketch},
      LikeAll (Stands c.view.slots latched typed) m m' →
        LikeAll (Stands c.view.slots latched' typed')
          (m.map (Node.mapSelf (Scene.changeAt n f))) m' := fun hm => hm.mapSelf_left hstands
  have hmark' : ∀ e, (Scene.changeAt n f e).mark = e.mark := by
    intro e
    unfold Scene.changeAt
    split
    · exact hmark e
    · rfl
  have hbare : ∀ m : List (Node Nat Handler),
      c.view.bare (m.map (Node.mapSelf (Scene.changeAt n f))) =
        (c.view.bare m).map (Node.mapSelf (Scene.changeAt n f)) := by
    intro m
    unfold View.bare
    split
    · rfl
    · refine Node.pruneAmong_mapSelf (fun e => ?_) m
      rw [hasMark, hmark', hasMark]
  refine ⟨_, _, ⟨h.toScene.adjustElement n hmark hlisteners hid, fun k => ?_, h.known, h.keyed,
    fun m hm => ?_⟩, fun k => hlike (hmounted k)⟩
  · show LikeAll _ (c.view.bare _) _
    rw [hbare]
    exact hlike (h.like k)
  · obtain ⟨hlt, hspares⟩ := h.editor m hm
    exact ⟨hlt, fun heq => hspares.1 (heq.trans (hmark' _)),
      fun k heq => hspares.2 k (heq.trans (hmark' _))⟩

/-- Showing a control as latched or free, if it is drawn. -/
theorem drawControl (h : Shows away latched typed l editor c) (control : Control) (b : Bool) :
    Shows away (Function.update latched control b) typed l editor (c.drawControl control b) := by
  have hother : ∀ e s, Stands c.view.slots latched typed e s →
      s.mark ≠ some (.control control) →
        Stands c.view.slots (Function.update latched control b) typed e s := by
    intro e s hstands hne
    have hsame : Sketch.dress (Function.update latched control b) s = Sketch.dress latched s := by
      refine Stands.dress_congr fun d hd => Function.update_of_ne ?_ _ _
      rintro rfl
      exact hne hd
    refine hstands.change rfl ?_
    rw [hsame]
    exact hstands.resembles
  have hmark : ∀ e : Element Nat Handler, (e.setDisabled b).mark = e.mark := by
    intro e
    obtain ⟨attributes, heq⟩ := e.exists_setDisabled b
    rw [heq]
  unfold Canvas.drawControl
  cases hslot : c.slot? (.control control) with
  | none =>
    refine h.imp fun e s hstands => hother e s hstands fun hmark => ?_
    rw [hstands.slot] at hmark
    rw [Canvas.slot?, hmark] at hslot
    cases hslot
  | some n =>
    refine h.adjustElement n hmark (fun e => e.listeners_setDisabled b)
      (fun e => e.attribute?_setDisabled b (by decide)) fun e s hstands => ?_
    have hslot : c.view.slots.get? (.control control) = some n := hslot
    unfold Scene.changeAt
    split
    · next hn =>
      have hcontrol : s.mark = some (.control control) := by
        rw [hstands.slot, hslot, hn]
      have hset : Resembles typed (e.setDisabled (Function.update latched control b control))
          (Sketch.dress (Function.update latched control b) s) :=
        hstands.resembles.setDisabled hstands.neat hcontrol
      rw [Function.update_self] at hset
      exact hstands.change (hmark e) hset
    · next hn =>
      refine hother e s hstands fun hcontrol => hn ?_
      rw [hstands.slot, hslot, Option.some.injEq] at hcontrol
      exact hcontrol.symm

end Shows

end RosterPanel
