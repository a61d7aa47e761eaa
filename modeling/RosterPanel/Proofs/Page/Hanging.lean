import RosterPanel.Proofs.Page.Places

/-!
# Trees below an element

A tree that hangs below an element, wherever the element is on the page: what keeps it there, and
the way that an event takes from it up to the root. Results:

* `Node.Hangs`: below the element with a number hangs a tree, with what keeps it there: adding
  children elsewhere, changing elements, and taking others out.
* `Node.Hangs.pathTo`: the way up from something in the tree leaves the tree by its root.
* `Node.mem_selves_prune`: what is left of a tree when some elements have been taken out.
* `Document.Sound.path_adjustElement`: ways up when an element has been changed.
-/

namespace RosterPanel.Page

variable {M H : Type}

namespace Node

/-! ## Elements of a tree -/

/-- The elements of a tree have the marks of the tree, in their order. -/
theorem map_mark_elements (node : Node M H) :
    node.elements.map (fun inner => inner.element?.map (·.mark)) = node.marks.map some := by
  induction node with
  | text content => rfl
  | element self children ih =>
    rw [elements, elementsAmong_eq, marks_element, List.map_cons, List.map_cons,
      List.map_flatMap, List.map_flatMap]
    exact congrArg (_ :: ·) (List.flatMap_congr ih)

/-- Where no mark occurs twice, what is below an element is told by its mark. -/
theorem eq_of_mark_eq {tree a b : Node M H} (hnodup : tree.marks.Nodup) (ha : a ∈ tree.elements)
    (hb : b ∈ tree.elements) (hmark : a.element?.map (·.mark) = b.element?.map (·.mark)) :
    a = b := by
  have hmarks : (tree.elements.map fun inner => inner.element?.map (·.mark)).Nodup := by
    rw [map_mark_elements]
    exact hnodup.map fun _ _ heq => Option.some.inj heq
  exact List.inj_on_of_nodup_map hmarks ha hb hmark

/-- Where no mark occurs twice, a mark occurs in one tree of a list only. -/
theorem eq_of_mem_marks {l : List (Node M H)} (hnodup : (l.flatMap marks).Nodup)
    {a b : Node M H} (ha : a ∈ l) (hb : b ∈ l) {m : M} (hma : m ∈ a.marks) (hmb : m ∈ b.marks) :
    a = b := by
  induction l with
  | nil => cases ha
  | cons first rest ih =>
    rw [List.flatMap_cons, List.nodup_append] at hnodup
    have hapart : m ∈ first.marks → ∀ node ∈ rest, m ∉ node.marks := fun hm node hnode hmem =>
      hnodup.2.2 m hm m (List.mem_flatMap.2 ⟨node, hnode, hmem⟩) rfl
    rcases List.mem_cons.1 ha with rfl | ha'
    · rcases List.mem_cons.1 hb with rfl | hb'
      · rfl
      · exact absurd hmb (hapart hma b hb')
    · rcases List.mem_cons.1 hb with rfl | hb'
      · exact absurd hma (hapart hmb a ha')
      · exact ih hnodup.2.1 ha' hb'

/-- An element stays when others are taken out, unless it is in one of them. -/
theorem mem_selves_prune {p : Element M H → Bool} {e : Element M H} {node : Node M H}
    (he : e ∈ node.selves)
    (hout : ∀ inner ∈ node.elements, inner.test p = true → e ∉ inner.selves) :
    e ∈ (node.prune p).selves := by
  induction node with
  | text content => exact he
  | element self children ih =>
    rw [selves_element, List.mem_cons, List.mem_flatMap] at he
    rw [prune, pruneAmong_eq, selves_element, List.mem_cons, List.mem_flatMap]
    refine he.imp_right ?_
    rintro ⟨child, hchild, he⟩
    have hbelow : child.elements ⊆ (Node.element self children).elements := by
      intro inner hinner
      rw [elements, elementsAmong_eq]
      exact List.mem_cons_of_mem _ (List.mem_flatMap.2 ⟨child, hchild, hinner⟩)
    have htest : child.test p = false := by
      rw [← Bool.not_eq_true]
      intro htest
      cases child with
      | text content => cases htest
      | element root inner =>
        exact hout _ (hbelow (by rw [elements]; exact List.mem_cons_self)) htest he
    refine ⟨child.prune p, List.mem_map_of_mem (List.mem_filter.2 ⟨hchild, by simp [htest]⟩), ?_⟩
    exact ih child hchild he fun inner hinner => hout inner (hbelow hinner)

/-! ## What hangs below an element -/

/-- Below the element with a mark hangs a tree, as one of its children. -/
def Hangs (n : M) (t tree : Node M H) : Prop :=
  ∃ self children, .element self children ∈ tree.elements ∧ self.mark = n ∧ t ∈ children

section Hangs

variable {n : M} {t : Node M H}

@[simp] theorem hangs_text (content : String) : ¬ Hangs n t (.text content) := by
  rintro ⟨self, children, hmem, -⟩
  cases hmem

theorem hangs_element {self : Element M H} {children : List (Node M H)} :
    Hangs n t (.element self children) ↔
      (self.mark = n ∧ t ∈ children) ∨ ∃ child ∈ children, Hangs n t child := by
  unfold Hangs
  simp only [elements, elementsAmong_eq, List.mem_cons, List.mem_flatMap]
  constructor
  · rintro ⟨self', children', heq | ⟨child, hchild, hmem⟩, hmark, ht⟩
    · cases heq
      exact Or.inl ⟨hmark, ht⟩
    · exact Or.inr ⟨child, hchild, self', children', hmem, hmark, ht⟩
  · rintro (⟨hmark, ht⟩ | ⟨child, hchild, self', children', hmem, hmark, ht⟩)
    · exact ⟨self, children, Or.inl rfl, hmark, ht⟩
    · exact ⟨self', children', Or.inr ⟨child, hchild, hmem⟩, hmark, ht⟩

variable {tree : Node M H}

theorem Hangs.mem_marks (h : Hangs n t tree) : n ∈ tree.marks := by
  obtain ⟨self, children, hmem, rfl, -⟩ := h
  exact mark_mem_marks hmem

theorem Hangs.elements_subset (h : Hangs n t tree) : t.elements ⊆ tree.elements := by
  induction tree with
  | text content => exact absurd h (hangs_text content)
  | element self children ih =>
    intro inner hinner
    rw [elements, elementsAmong_eq]
    refine List.mem_cons_of_mem _ (List.mem_flatMap.2 ?_)
    rcases hangs_element.1 h with ⟨-, ht⟩ | ⟨child, hchild, h⟩
    · exact ⟨t, ht, hinner⟩
    · exact ⟨child, hchild, ih child hchild h hinner⟩

theorem Hangs.selves_subset (h : Hangs n t tree) : t.selves ⊆ tree.selves :=
  List.filterMap_subset _ h.elements_subset

theorem Hangs.marks_subset (h : Hangs n t tree) : t.marks ⊆ tree.marks :=
  List.map_subset _ h.selves_subset

theorem Hangs.nodup (h : Hangs n t tree) (hnodup : tree.marks.Nodup) : t.marks.Nodup := by
  induction tree with
  | text content => exact absurd h (hangs_text content)
  | element self children ih =>
    rw [marks_element, List.nodup_cons] at hnodup
    have hchild : ∀ child ∈ children, child.marks.Nodup := fun child hchild =>
      hnodup.2.sublist (sublist_flatMap_of_mem hchild marks)
    rcases hangs_element.1 h with ⟨-, ht⟩ | ⟨child, hmem, h⟩
    · exact hchild t ht
    · exact ih child hmem h (hchild child hmem)

/-- The root of a tree does not hang below anything in it. -/
theorem Hangs.root_notMem {self : Element M H} {children : List (Node M H)}
    (h : Hangs n t (.element self children)) (hnodup : (Node.element self children).marks.Nodup) :
    self.mark ∉ t.marks := by
  rw [marks_element, List.nodup_cons] at hnodup
  refine fun hmem => hnodup.1 (List.mem_flatMap.2 ?_)
  rcases hangs_element.1 h with ⟨-, ht⟩ | ⟨child, hchild, h⟩
  · exact ⟨t, ht, hmem⟩
  · exact ⟨child, hchild, h.marks_subset hmem⟩

/-- Changing elements, their children aside. -/
theorem Hangs.mapSelf {g : Element M H → Element M H} (hg : ∀ e, (g e).mark = e.mark)
    (h : Hangs n t tree) : Hangs n (t.mapSelf g) (tree.mapSelf g) := by
  induction tree with
  | text content => exact absurd h (hangs_text content)
  | element self children ih =>
    rw [mapSelf_element, hangs_element]
    rcases hangs_element.1 h with ⟨hmark, ht⟩ | ⟨child, hchild, h⟩
    · exact Or.inl ⟨(hg self).trans hmark, List.mem_map_of_mem ht⟩
    · exact Or.inr ⟨_, List.mem_map_of_mem hchild, ih child hchild h⟩

/-- Adding to the children of elements outside of what hangs. -/
theorem Hangs.adjust_children {p : Element M H → Bool} {g : List (Node M H) → List (Node M H)}
    (hg : ∀ l, l ⊆ g l) (ht : ∀ e ∈ t.selves, p e = false) (h : Hangs n t tree) :
    Hangs n t (tree.adjust p fun self children => .element self (g children)) := by
  induction tree with
  | text content => exact absurd h (hangs_text content)
  | element self children ih =>
    unfold Node.adjust
    split
    · rw [hangs_element]
      rcases hangs_element.1 h with ⟨hmark, hmem⟩ | ⟨child, hchild, h⟩
      · exact Or.inl ⟨hmark, hg _ hmem⟩
      · exact Or.inr ⟨child, hg _ hchild, h⟩
    · rw [adjustAmong_eq, hangs_element]
      rcases hangs_element.1 h with ⟨hmark, hmem⟩ | ⟨child, hchild, h⟩
      · exact Or.inl ⟨hmark, List.mem_map.2 ⟨t, hmem, adjust_eq_self ht⟩⟩
      · exact Or.inr ⟨_, List.mem_map_of_mem hchild, ih child hchild h⟩

/-- Taking elements out of which none is in what hangs, nor has what hangs below it. -/
theorem Hangs.prune {p : Element M H → Bool} (hnodup : tree.marks.Nodup)
    (ht : ∀ e ∈ t.selves, p e = false) (hn : n ∈ (tree.prune p).marks) (h : Hangs n t tree) :
    Hangs n t (tree.prune p) := by
  induction tree with
  | text content => exact absurd h (hangs_text content)
  | element self children ih =>
    rw [marks_element, List.nodup_cons] at hnodup
    rw [Node.prune, pruneAmong_eq] at hn ⊢
    rw [marks_element, List.mem_cons] at hn
    rw [hangs_element]
    rcases hangs_element.1 h with ⟨hmark, hmem⟩ | ⟨child, hchild, h⟩
    · refine Or.inl ⟨hmark, List.mem_map.2 ⟨t, ?_, prune_eq_self ht⟩⟩
      exact List.mem_filter.2 ⟨hmem, by simp [test_eq_false ht]⟩
    · have hroot : n ≠ self.mark := by
        rintro rfl
        exact hnodup.1 (List.mem_flatMap.2 ⟨child, hchild, h.mem_marks⟩)
      -- The element is left in one of the children, which is the one that it was in.
      obtain ⟨left, hleft, hn⟩ := List.mem_flatMap.1 (hn.resolve_left hroot)
      obtain ⟨child', hchild', rfl⟩ := List.mem_map.1 hleft
      have hmem' := (List.mem_filter.1 hchild').1
      have hin' : n ∈ child'.marks := by
        obtain ⟨e, he, rfl⟩ := List.mem_map.1 hn
        exact List.mem_map_of_mem ((selves_prune_sublist p child').subset he)
      obtain rfl := eq_of_mem_marks hnodup.2 hmem' hchild hin' h.mem_marks
      refine Or.inr ⟨_, hleft, ih _ hchild ?_ hn h⟩
      exact hnodup.2.sublist (sublist_flatMap_of_mem hchild marks)

end Hangs

/-- What is added to the children of an element hangs there. -/
theorem hangs_adjust_append {n : Nat} (t : Node Nat H) {tree : Node Nat H} (hn : n ∈ tree.marks) :
    Hangs n t (tree.adjust (Document.hasMark n)
      fun self children => .element self (children ++ [t])) := by
  induction tree with
  | text content => cases hn
  | element self children ih =>
    unfold Node.adjust
    split
    · next hself => exact hangs_element.2 (Or.inl ⟨beq_iff_eq.1 hself, by simp⟩)
    · next hself =>
      rw [marks_element, List.mem_cons, List.mem_flatMap] at hn
      obtain ⟨child, hchild, hn⟩ := hn.resolve_left fun heq => hself (beq_iff_eq.2 heq.symm)
      rw [adjustAmong_eq, hangs_element]
      exact Or.inr ⟨_, List.mem_map_of_mem hchild, ih child hchild hn⟩

/-! ## Ways up -/

/-- The way up from something in a tree that hangs below an element goes up to the root of that
tree first, and then through elements that are not in it. -/
theorem Hangs.pathTo {n m : Nat} {t tree : Node Nat H} (h : Hangs n t tree)
    (hnodup : tree.marks.Nodup) (hm : m ∈ t.marks) :
    ∃ around, tree.pathTo (Document.hasMark m) = t.pathTo (Document.hasMark m) ++ around ∧
      ∀ e ∈ around, e ∈ tree.selves ∧ e.mark ∉ t.marks := by
  induction tree with
  | text content => exact absurd h (hangs_text content)
  | element self children ih =>
    have hself : self ∈ (Node.element self children).selves ∧ self.mark ∉ t.marks :=
      ⟨by simp, h.root_notMem hnodup⟩
    rcases hangs_element.1 h with ⟨-, ht⟩ | ⟨child, hchild, h⟩
    · refine ⟨[self], pathTo_of_mem_child hnodup ht hm, fun e he => ?_⟩
      rw [List.mem_singleton.1 he]
      exact hself
    · obtain ⟨around, hpath, haround⟩ := ih child hchild h (nodup_marks_child hnodup hchild)
      refine ⟨around ++ [self], ?_, fun e he => ?_⟩
      · rw [pathTo_of_mem_child hnodup hchild (h.marks_subset hm), hpath, List.append_assoc]
      · rcases List.mem_append.1 he with he | he
        · refine ⟨?_, (haround e he).2⟩
          rw [selves_element]
          exact List.mem_cons_of_mem _ (List.mem_flatMap.2 ⟨child, hchild, (haround e he).1⟩)
        · rw [List.mem_singleton.1 he]
          exact hself

section

variable {p : Element M H → Bool} {g : Element M H → Element M H} (hg : ∀ e, p (g e) = p e)

include hg

theorem pathTo_mapSelf (node : Node M H) :
    (node.mapSelf g).pathTo p = (node.pathTo p).map g := by
  induction node with
  | text content => simp [Node.pathTo]
  | element self children ih =>
    have hamong : ∀ l : List (Node M H), l ⊆ children →
        pathAmong p (l.map (mapSelf g)) = (pathAmong p l).map g := by
      intro l
      induction l with
      | nil => exact fun _ => rfl
      | cons child rest ihl =>
        intro hsub
        rw [List.cons_subset] at hsub
        rw [List.map_cons, pathAmong, pathAmong, ih child hsub.1, ihl hsub.2]
        cases child.pathTo p <;> rfl
    rw [mapSelf_element, Node.pathTo, Node.pathTo, hg, hamong children (List.Subset.refl _)]
    split
    · rfl
    · cases pathAmong p children with
      | nil => rfl
      | cons first rest => simp

theorem pathAmong_mapSelf (l : List (Node M H)) :
    pathAmong p (l.map (mapSelf g)) = (pathAmong p l).map g := by
  induction l with
  | nil => rfl
  | cons node rest ih =>
    rw [List.map_cons, pathAmong, pathAmong, pathTo_mapSelf hg, ih]
    cases node.pathTo p <;> rfl

end

end Node

namespace Document

variable {d : Document H} {n : Nat} {f : Element Nat H → Element Nat H}

/-- Changing an element, its children aside, changes it wherever it is on the page. -/
theorem Sound.trees_adjustElement (h : d.Sound) (n : Nat) (f : Element Nat H → Element Nat H) :
    (d.adjustElement n f).trees =
      d.trees.map (Node.mapSelf fun e => if e.mark = n then f e else e) := by
  have htrees : (d.adjustElement n f).trees = d.trees.map
      (Node.adjust (hasMark n) fun self children => .element (f self) children) := by
    obtain ⟨head, body, loose, fresh⟩ := d
    cases head <;> cases body <;> rfl
  rw [htrees]
  refine List.map_congr_left fun tree htree => Node.adjust_eq_mapSelf ?_
  exact h.nodup.sublist (Node.sublist_flatMap_of_mem (List.mem_append_left _ htree) _)

theorem mark_ite (hf : ∀ e, (f e).mark = e.mark) (e : Element Nat H) :
    (if e.mark = n then f e else e).mark = e.mark := by
  split
  · exact hf e
  · rfl

/-- The ways up stay the same when an element is changed, but for the change. -/
theorem Sound.path_adjustElement (h : d.Sound) (hf : ∀ e, (f e).mark = e.mark) (m : Nat) :
    (d.adjustElement n f).path m =
      (d.path m).map fun e => if e.mark = n then f e else e := by
  rw [path, h.trees_adjustElement, Node.pathAmong_mapSelf fun e => ?_]
  · rfl
  · rw [hasMark, mark_ite hf]
    rfl

theorem Sound.nodup_trees (h : d.Sound) : (d.trees.flatMap Node.marks).Nodup := by
  have hnodup := h.nodup
  rw [numbers, all, List.flatMap_append] at hnodup
  exact (List.nodup_append.1 hnodup).1

theorem Sound.nodup_tree (h : d.Sound) {tree : Node Nat H} (htree : tree ∈ d.trees) :
    tree.marks.Nodup :=
  h.nodup.sublist (Node.sublist_flatMap_of_mem (List.mem_append_left _ htree) _)

end Document

end RosterPanel.Page
