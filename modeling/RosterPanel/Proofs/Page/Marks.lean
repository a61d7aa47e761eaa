import RosterPanel.Proofs.Page.Trees

/-!
# Numbered elements

Elements of a document are told apart by number. As long as no number occurs twice, an operation
on the element with a number touches one place only, and everything else stays. Results:

* `Node.exists_place`: the place of an element in a list of trees, and what changing or removing
  the element there does to the marks.
* `Node.adjust_eq_mapSelf`: changing an element, its children aside, changes it wherever it is.
* `Node.number_marks`: a numbered sketch bears consecutive numbers.
-/

namespace RosterPanel.Page

variable {M N H : Type}

namespace Node

theorem map_eq_self {α : Type} {f : α → α} {l : List α} (h : ∀ a ∈ l, f a = a) : l.map f = l :=
  (List.map_congr_left h).trans (List.map_id l)

theorem sublist_flatMap_of_mem {α β : Type} {a : α} {l : List α} (h : a ∈ l) (f : α → List β) :
    (f a).Sublist (l.flatMap f) := by
  rw [List.flatMap_def]
  exact List.sublist_flatten_of_mem (List.mem_map_of_mem h)

/-! ## Operations that find nothing -/

section

variable {p : Element M H → Bool}

theorem test_eq_false {node : Node M H} (h : ∀ e ∈ node.selves, p e = false) :
    node.test p = false := by
  cases node with
  | text content => rfl
  | element self children => exact h self (by simp)

theorem adjust_eq_self {f : Element M H → List (Node M H) → Node M H} {node : Node M H}
    (h : ∀ e ∈ node.selves, p e = false) : node.adjust p f = node := by
  induction node with
  | text content => rfl
  | element self children ih =>
    rw [selves_element, List.forall_mem_cons] at h
    unfold adjust
    rw [if_neg (by simp [h.1]), adjustAmong_eq]
    congr 1
    refine map_eq_self fun child hchild => ih child hchild fun e he => ?_
    exact h.2 e (List.mem_flatMap.2 ⟨child, hchild, he⟩)

theorem adjustAmong_eq_self {f : Element M H → List (Node M H) → Node M H} {l : List (Node M H)}
    (h : ∀ e ∈ l.flatMap selves, p e = false) : l.map (adjust p f) = l :=
  map_eq_self fun node hnode =>
    adjust_eq_self fun e he => h e (List.mem_flatMap.2 ⟨node, hnode, he⟩)

theorem prune_eq_self {node : Node M H} (h : ∀ e ∈ node.selves, p e = false) :
    node.prune p = node := by
  induction node with
  | text content => rfl
  | element self children ih =>
    rw [selves_element, List.forall_mem_cons] at h
    have hchild : ∀ child ∈ children, ∀ e ∈ child.selves, p e = false :=
      fun child hchild e he => h.2 e (List.mem_flatMap.2 ⟨child, hchild, he⟩)
    rw [prune, pruneAmong_eq]
    congr 1
    rw [List.filter_eq_self.2 fun child hc => by simp [test_eq_false (hchild child hc)]]
    exact map_eq_self fun child hc => ih child hc (hchild child hc)

theorem pruneAmong_eq_self {l : List (Node M H)} (h : ∀ e ∈ l.flatMap selves, p e = false) :
    pruneAmong p l = l := by
  have hnode : ∀ node ∈ l, ∀ e ∈ node.selves, p e = false :=
    fun node hnode e he => h e (List.mem_flatMap.2 ⟨node, hnode, he⟩)
  rw [pruneAmong_eq, List.filter_eq_self.2 fun node hn => by simp [test_eq_false (hnode node hn)]]
  exact map_eq_self fun node hn => prune_eq_self (hnode node hn)

end

/-- The elements of a tree in which some elements were changed. -/
theorem mem_selves_adjust {p : Element M H → Bool} {f : Element M H → List (Node M H) → Node M H}
    {e : Element M H} {P : Prop} (hf : ∀ self children, e ∈ (f self children).selves →
      e ∈ (.element self children : Node M H).selves ∨ P) {node : Node M H}
    (h : e ∈ (node.adjust p f).selves) : e ∈ node.selves ∨ P := by
  induction node with
  | text content => exact Or.inl h
  | element self children ih =>
    unfold adjust at h
    split at h
    · exact hf self children h
    · rw [selves_element, adjustAmong_eq, List.mem_cons, List.flatMap_map, List.mem_flatMap] at h
      rw [selves_element, List.mem_cons, List.mem_flatMap]
      rcases h with h | ⟨child, hchild, h⟩
      · exact Or.inl (Or.inl h)
      · exact (ih child hchild h).imp_left fun he => Or.inr ⟨child, hchild, he⟩

/-- The elements of trees to which something was added below some elements. -/
theorem mem_selves_map_adjust {p : Element M H → Bool} {g : List (Node M H) → List (Node M H)}
    {added : Node M H} (hg : ∀ l, ∀ x ∈ g l, x ∈ l ∨ x = added) {e : Element M H}
    {l : List (Node M H)}
    (h : e ∈ (l.map (adjust p fun self children => .element self (g children))).flatMap selves) :
    e ∈ l.flatMap selves ∨ e ∈ added.selves := by
  rw [List.flatMap_map, List.mem_flatMap] at h
  obtain ⟨node, hnode, h⟩ := h
  refine (mem_selves_adjust (fun self children he => ?_) h).imp_left
    fun he => List.mem_flatMap.2 ⟨node, hnode, he⟩
  rw [selves_element, List.mem_cons, List.mem_flatMap] at he
  rw [selves_element, List.mem_cons, List.mem_flatMap]
  rcases he with he | ⟨x, hx, he⟩
  · exact Or.inl (Or.inl he)
  · rcases hg children x hx with hx | rfl
    · exact Or.inl (Or.inr ⟨x, hx, he⟩)
    · exact Or.inr he

theorem selves_pruneAmong_sublist_of {p : Element M H → Bool} {l : List (Node M H)}
    (h : ∀ node ∈ l, (node.prune p).selves.Sublist node.selves) :
    ((pruneAmong p l).flatMap selves).Sublist (l.flatMap selves) := by
  induction l with
  | nil => exact List.Sublist.refl _
  | cons node rest ih =>
    rw [List.forall_mem_cons] at h
    rw [pruneAmong, List.flatMap_cons]
    split
    · exact (ih h.2).trans (List.sublist_append_right _ _)
    · exact h.1.append (ih h.2)

theorem selves_prune_sublist (p : Element M H → Bool) (node : Node M H) :
    (node.prune p).selves.Sublist node.selves := by
  induction node with
  | text content => exact List.Sublist.refl _
  | element self children ih =>
    rw [prune, selves_element, selves_element]
    exact (selves_pruneAmong_sublist_of ih).cons_cons self

/-- Taking elements out leaves no new ones. -/
theorem selves_pruneAmong_sublist (p : Element M H → Bool) (l : List (Node M H)) :
    ((pruneAmong p l).flatMap selves).Sublist (l.flatMap selves) :=
  selves_pruneAmong_sublist_of fun node _ => selves_prune_sublist p node

theorem mem_selves_pruneAmong {p : Element M H → Bool} {e : Element M H} {l : List (Node M H)}
    (h : e ∈ (pruneAmong p l).flatMap selves) : e ∈ l.flatMap selves :=
  (selves_pruneAmong_sublist p l).subset h

theorem mem_marks_pruneAmong {p : Element M H → Bool} {m : M} {l : List (Node M H)}
    (h : m ∈ (pruneAmong p l).flatMap marks) : m ∈ l.flatMap marks := by
  obtain ⟨node, hnode, hm⟩ := List.mem_flatMap.1 h
  obtain ⟨e, he, rfl⟩ := List.mem_map.1 hm
  have hself := mem_selves_pruneAmong (List.mem_flatMap.2 ⟨node, hnode, he⟩)
  obtain ⟨old, hold, he⟩ := List.mem_flatMap.1 hself
  exact List.mem_flatMap.2 ⟨old, hold, List.mem_map_of_mem he⟩

theorem pruneAmong_append (p : Element M H → Bool) (l m : List (Node M H)) :
    pruneAmong p (l ++ m) = pruneAmong p l ++ pruneAmong p m := by
  simp

@[simp] theorem test_prune (p q : Element M H → Bool) (node : Node M H) :
    (node.prune p).test q = node.test q := by
  cases node <;> rfl

theorem pruneAmong_comm_of {p q : Element M H → Bool} {l : List (Node M H)}
    (h : ∀ node ∈ l, (node.prune p).prune q = (node.prune q).prune p) :
    pruneAmong q (pruneAmong p l) = pruneAmong p (pruneAmong q l) := by
  have hcomm : (fun node : Node M H => !node.test q && !node.test p) =
      fun node => !node.test p && !node.test q := funext fun _ => Bool.and_comm _ _
  simp only [pruneAmong_eq, List.filter_map, List.map_map, List.filter_filter,
    Function.comp_def, test_prune]
  rw [hcomm]
  exact List.map_congr_left fun node hnode => h node (List.mem_filter.1 hnode).1

theorem prune_comm (p q : Element M H → Bool) (node : Node M H) :
    (node.prune p).prune q = (node.prune q).prune p := by
  induction node with
  | text content => rfl
  | element self children ih =>
    simp only [prune]
    rw [pruneAmong_comm_of ih]

/-- It does not matter which elements are taken out first. -/
theorem pruneAmong_comm (p q : Element M H → Bool) (l : List (Node M H)) :
    pruneAmong q (pruneAmong p l) = pruneAmong p (pruneAmong q l) :=
  pruneAmong_comm_of fun node _ => prune_comm p q node

theorem test_adjust_children {p q : Element M H → Bool} (g : List (Node M H) → List (Node M H))
    (node : Node M H) :
    (node.adjust p fun self children => .element self (g children)).test q = node.test q := by
  cases node with
  | text content => rfl
  | element self children =>
    unfold adjust
    split <;> rfl

section

variable {p q : Element M H → Bool} {g k : List (Node M H) → List (Node M H)}

/-- Changing the children of some elements, and taking out others first or last. -/
theorem prune_adjust_children (hg : ∀ l, pruneAmong q (g l) = k (pruneAmong q l))
    (node : Node M H) :
    (node.adjust p fun self children => .element self (g children)).prune q =
      (node.prune q).adjust p fun self children => .element self (k children) := by
  induction node with
  | text content => rfl
  | element self children ih =>
    by_cases hp : p self = true
    · simp only [adjust, prune, hp, if_true, hg]
    · simp only [adjust, prune, hp, Bool.false_eq_true, if_false]
      congr 1
      simp only [adjustAmong_eq, pruneAmong_eq, List.filter_map, List.map_map, Function.comp_def,
        test_adjust_children]
      exact List.map_congr_left fun child hchild => ih child (List.mem_filter.1 hchild).1

theorem pruneAmong_adjust_children (hg : ∀ l, pruneAmong q (g l) = k (pruneAmong q l))
    (l : List (Node M H)) :
    pruneAmong q (l.map (adjust p fun self children => .element self (g children))) =
      (pruneAmong q l).map (adjust p fun self children => .element self (k children)) := by
  simp only [pruneAmong_eq, List.filter_map, List.map_map, Function.comp_def,
    test_adjust_children]
  exact List.map_congr_left fun node _ => prune_adjust_children hg node

/-- Changing the children of some elements to what they are. -/
theorem adjust_children_id (p : Element M H → Bool) (node : Node M H) :
    (node.adjust p fun self children => .element self children) = node := by
  induction node with
  | text content => rfl
  | element self children ih =>
    unfold adjust
    split
    · rfl
    · rw [adjustAmong_eq, map_eq_self ih]

/-- Adding to the children of some elements takes no marks away. -/
theorem marks_subset_adjust (hg : ∀ l, l.flatMap marks ⊆ (g l).flatMap marks) (node : Node M H) :
    node.marks ⊆ (node.adjust p fun self children => .element self (g children)).marks := by
  induction node with
  | text content => exact fun _ h => h
  | element self children ih =>
    intro m hm
    rw [marks_element, List.mem_cons] at hm
    unfold adjust
    split
    · rw [marks_element, List.mem_cons]
      exact hm.imp_right fun hm => hg children hm
    · rw [marks_element, List.mem_cons, adjustAmong_eq, List.flatMap_map, List.mem_flatMap]
      refine hm.imp_right fun hm => ?_
      obtain ⟨child, hchild, hm⟩ := List.mem_flatMap.1 hm
      exact ⟨child, hchild, ih child hchild hm⟩

/-- What is added to the children of some elements is there, if there is such an element. -/
theorem marks_adjust_of_mem {a : List M} (hg : ∀ l, a ⊆ (g l).flatMap marks)
    {node : Node M H} {e : Element M H} (he : e ∈ node.selves) (hp : p e = true) :
    a ⊆ (node.adjust p fun self children => .element self (g children)).marks := by
  induction node with
  | text content => cases he
  | element self children ih =>
    intro m hm
    unfold adjust
    split
    · rw [marks_element]
      exact List.mem_cons_of_mem _ (hg children hm)
    · next hself =>
      rw [selves_element, List.mem_cons] at he
      rcases he with rfl | he
      · exact absurd hp hself
      · obtain ⟨child, hchild, he⟩ := List.mem_flatMap.1 he
        rw [marks_element, adjustAmong_eq, List.flatMap_map]
        exact List.mem_cons_of_mem _ (List.mem_flatMap.2 ⟨child, hchild, ih child hchild he hm⟩)

end

/-! ## Changing elements, their children aside -/

/-- Changes every element, its children aside. -/
def mapSelf (g : Element M H → Element N H) : Node M H → Node N H
  | .text content => .text content
  | .element self children => .element (g self) (children.map (mapSelf g))

@[simp] theorem mapSelf_text (g : Element M H → Element N H) (content : String) :
    (.text content : Node M H).mapSelf g = .text content := by
  rw [mapSelf]

@[simp] theorem mapSelf_element (g : Element M H → Element N H) (self : Element M H)
    (children : List (Node M H)) :
    (.element self children : Node M H).mapSelf g =
      .element (g self) (children.map (mapSelf g)) := by
  rw [mapSelf]

theorem selves_mapSelf (g : Element M H → Element N H) (node : Node M H) :
    (node.mapSelf g).selves = node.selves.map g := by
  induction node with
  | text content => simp
  | element self children ih =>
    rw [mapSelf_element, selves_element, selves_element, List.map_cons, List.map_flatMap,
      List.flatMap_map]
    exact congrArg (_ :: ·) (List.flatMap_congr ih)

theorem mapMark_eq_mapSelf (f : M → N) (node : Node M H) :
    node.mapMark f = node.mapSelf fun e => e.setMark (f e.mark) := by
  induction node with
  | text content => simp [mapMark]
  | element self children ih =>
    rw [mapMark, mapMarkAll_eq, mapSelf_element]
    exact congrArg _ (List.map_congr_left ih)

theorem marks_mapMark (f : M → N) (node : Node M H) :
    (node.mapMark f).marks = node.marks.map f := by
  rw [mapMark_eq_mapSelf, marks, selves_mapSelf, marks, List.map_map, List.map_map]
  rfl

theorem marks_mapSelf {g : Element M H → Element M H} (hg : ∀ e, (g e).mark = e.mark)
    (node : Node M H) : (node.mapSelf g).marks = node.marks := by
  rw [marks, selves_mapSelf, List.map_map, marks]
  exact List.map_congr_left fun e _ => hg e

theorem mapSelf_eq_self {g : Element M H → Element M H} {node : Node M H}
    (hg : ∀ e ∈ node.selves, g e = e) : node.mapSelf g = node := by
  induction node with
  | text content => simp
  | element self children ih =>
    rw [selves_element, List.forall_mem_cons] at hg
    rw [mapSelf_element, hg.1]
    congr 1
    refine map_eq_self fun child hchild => ih child hchild fun e he => ?_
    exact hg.2 e (List.mem_flatMap.2 ⟨child, hchild, he⟩)

theorem test_mapSelf {q : Element M H → Bool} {g : Element M H → Element M H}
    (hg : ∀ e, q (g e) = q e) (node : Node M H) : (node.mapSelf g).test q = node.test q := by
  cases node with
  | text content => simp
  | element self children => simpa [test] using hg self

theorem prune_mapSelf {q : Element M H → Bool} {g : Element M H → Element M H}
    (hg : ∀ e, q (g e) = q e) (node : Node M H) :
    (node.mapSelf g).prune q = (node.prune q).mapSelf g := by
  induction node with
  | text content => simp [prune]
  | element self children ih =>
    simp only [mapSelf_element, prune, pruneAmong_eq, List.filter_map, List.map_map,
      Function.comp_def, test_mapSelf hg]
    congr 1
    exact List.map_congr_left fun child hchild => ih child (List.mem_filter.1 hchild).1

theorem pruneAmong_mapSelf {q : Element M H → Bool} {g : Element M H → Element M H}
    (hg : ∀ e, q (g e) = q e) (l : List (Node M H)) :
    pruneAmong q (l.map (mapSelf g)) = (pruneAmong q l).map (mapSelf g) := by
  simp only [pruneAmong_eq, List.filter_map, List.map_map, Function.comp_def, test_mapSelf hg]
  exact List.map_congr_left fun node _ => prune_mapSelf hg node

/-- Where no mark occurs twice, changing the elements with a mark is changing them wherever they
are. -/
theorem adjust_eq_mapSelf [DecidableEq M] {m : M} {g : Element M H → Element M H} {node : Node M H}
    (hnodup : node.marks.Nodup) :
    node.adjust (fun e => e.mark == m) (fun self children => .element (g self) children) =
      node.mapSelf fun e => if e.mark = m then g e else e := by
  induction node with
  | text content => simp [adjust]
  | element self children ih =>
    rw [marks_element, List.nodup_cons] at hnodup
    have hbelow : ∀ child ∈ children, ∀ e ∈ child.selves, e.mark ∈ children.flatMap marks :=
      fun child hchild e he => List.mem_flatMap.2 ⟨child, hchild, List.mem_map_of_mem he⟩
    unfold adjust
    by_cases hm : self.mark = m
    · rw [if_pos (by simp [hm]), mapSelf_element, if_pos hm]
      congr 1
      refine (map_eq_self fun child hchild => mapSelf_eq_self fun e he => if_neg ?_).symm
      intro heq
      exact hnodup.1 (hm.trans heq.symm ▸ hbelow child hchild e he)
    · rw [if_neg (by simp [hm]), adjustAmong_eq, mapSelf_element, if_neg hm]
      congr 1
      refine List.map_congr_left fun child hchild => ih child hchild ?_
      exact List.Nodup.sublist (sublist_flatMap_of_mem hchild marks) hnodup.2

/-! ## The place of an element -/

theorem mark_mem_marks {self : Element M H} {children : List (Node M H)} {node : Node M H}
    (h : .element self children ∈ node.elements) : self.mark ∈ node.marks :=
  List.mem_map_of_mem (List.mem_filterMap.2 ⟨_, h, rfl⟩)

theorem mark_mem_of_mem_elements {self : Element M H} {children l : List (Node M H)}
    (h : .element self children ∈ l.flatMap elements) : self.mark ∈ l.flatMap marks := by
  obtain ⟨node, hnode, hmem⟩ := List.mem_flatMap.1 h
  exact List.mem_flatMap.2 ⟨node, hnode, mark_mem_marks hmem⟩

/-- A list of trees with a hole for an element: what is there when the hole is filled with some
trees, and which marks there are then. -/
structure Place (l : List (Node Nat H)) (e : Element Nat H) (inner : List (Node Nat H)) where
  fill : List (Node Nat H) → List (Node Nat H)
  eq : l = fill [.element e inner]
  adjust : ∀ f, l.map (Node.adjust (Document.hasMark e.mark) f) = fill [f e inner]
  prune : pruneAmong (Document.hasMark e.mark) l = fill []
  count : ∀ k m, ((fill k).flatMap marks).count m =
    ((fill []).flatMap marks).count m + (k.flatMap marks).count m

section

variable {before after below inner : List (Node Nat H)} {root e : Element Nat H}

/-- A number that occurs in the middle occurs nowhere around it. -/
theorem hasMark_eq_false_around {middle : List (Node Nat H)} {n : Nat}
    (hl : ((before ++ middle ++ after).flatMap marks).Nodup) (hn : n ∈ middle.flatMap marks) :
    (∀ x ∈ before.flatMap selves, Document.hasMark n x = false) ∧
      ∀ x ∈ after.flatMap selves, Document.hasMark n x = false := by
  simp only [List.flatMap_append, List.nodup_append] at hl
  obtain ⟨⟨-, -, hbefore⟩, -, hafter⟩ := hl
  have hmark : ∀ (l : List (Node Nat H)) x, x ∈ l.flatMap selves → x.mark ∈ l.flatMap marks := by
    intro l x hx
    obtain ⟨node, hnode, hx⟩ := List.mem_flatMap.1 hx
    exact List.mem_flatMap.2 ⟨node, hnode, List.mem_map_of_mem hx⟩
  constructor
  · intro x hx
    exact beq_eq_false_iff_ne.2 (hbefore _ (hmark _ x hx) _ hn)
  · intro x hx
    exact beq_eq_false_iff_ne.2 (hafter _ (List.mem_append_right _ hn) _ (hmark _ x hx)).symm

/-- The place of a root. -/
theorem exists_place_root
    (hl : ((before ++ [Node.element e inner] ++ after).flatMap marks).Nodup) :
    Nonempty (Place (before ++ [Node.element e inner] ++ after) e inner) := by
  have hmem : e.mark ∈ [Node.element e inner].flatMap marks := by simp
  obtain ⟨hbefore, hafter⟩ := hasMark_eq_false_around hl hmem
  have hself : Document.hasMark e.mark e = true := beq_self_eq_true _
  refine ⟨⟨fun k => before ++ k ++ after, rfl, ?_, ?_, ?_⟩⟩
  · intro f
    rw [List.map_append, List.map_append, adjustAmong_eq_self hbefore, adjustAmong_eq_self hafter,
      List.map_singleton, Node.adjust, if_pos hself]
  · rw [pruneAmong_append, pruneAmong_append, pruneAmong_eq_self hbefore,
      pruneAmong_eq_self hafter]
    simp [test, hself]
  · intro k m
    simp only [List.flatMap_append, List.count_append, List.append_nil]
    omega

/-- The place of an element below a root, from its place among the children. -/
theorem exists_place_below
    (hl : ((before ++ [Node.element root below] ++ after).flatMap marks).Nodup)
    (hne : root.mark ≠ e.mark) (hmem : e.mark ∈ below.flatMap marks)
    (p : Place below e inner) :
    Nonempty (Place (before ++ [Node.element root below] ++ after) e inner) := by
  have hmem : e.mark ∈ [Node.element root below].flatMap marks := by simp [hmem]
  obtain ⟨hbefore, hafter⟩ := hasMark_eq_false_around hl hmem
  have hroot : Document.hasMark e.mark root = false := beq_eq_false_iff_ne.2 hne
  refine ⟨⟨fun k => before ++ [.element root (p.fill k)] ++ after, ?_, ?_, ?_, ?_⟩⟩
  · rw [← p.eq]
  · intro f
    rw [List.map_append, List.map_append, adjustAmong_eq_self hbefore, adjustAmong_eq_self hafter,
      List.map_singleton, Node.adjust, if_neg (by simp [hroot]), adjustAmong_eq, p.adjust]
  · rw [pruneAmong_append, pruneAmong_append, pruneAmong_eq_self hbefore,
      pruneAmong_eq_self hafter]
    simp only [pruneAmong, test, hroot, Bool.false_eq_true, if_false]
    rw [Node.prune, p.prune]
  · intro k m
    have hcount := p.count k m
    simp only [List.flatMap_append, List.count_append, List.flatMap_singleton, marks_element,
      List.count_cons]
    omega

end

/-- Where no number occurs twice, an element has a place. -/
theorem exists_place {l : List (Node Nat H)} (hl : (l.flatMap marks).Nodup) {e : Element Nat H}
    {inner : List (Node Nat H)} (hmem : .element e inner ∈ l.flatMap elements) :
    Nonempty (Place l e inner) := by
  -- The induction is on a tree that has the list for its children.
  suffices h : ∀ (tree : Node Nat H), (tree.children.flatMap marks).Nodup →
      .element e inner ∈ tree.children.flatMap elements →
        Nonempty (Place tree.children e inner) from
    h (.element { mark := 0, tag := "" } l) hl hmem
  clear hl hmem l
  intro tree
  induction tree with
  | text content => exact fun _ hmem => by cases hmem
  | element self children ih =>
    intro hl hmem
    obtain ⟨child, hchild, hbelow⟩ := List.mem_flatMap.1 hmem
    clear hmem
    have hchild : child ∈ children := hchild
    obtain ⟨before, after, rfl⟩ := List.append_of_mem hchild
    show Nonempty (Place (before ++ child :: after) e inner)
    have hsplit : before ++ child :: after = before ++ [child] ++ after := by simp
    have hl : ((before ++ child :: after).flatMap marks).Nodup := hl
    rw [hsplit] at hl ⊢
    cases child with
    | text content => cases hbelow
    | element root below =>
      rw [elements, elementsAmong_eq, List.mem_cons] at hbelow
      rcases hbelow with heq | hbelow
      · cases heq
        exact exists_place_root hl
      · have hmark := mark_mem_of_mem_elements hbelow
        have hroot : (root.mark :: below.flatMap marks).Nodup := by
          have hsub := sublist_flatMap_of_mem hchild marks
          rw [marks_element, hsplit] at hsub
          exact hl.sublist hsub
        rw [List.nodup_cons] at hroot
        obtain ⟨p⟩ := ih _ hchild hroot.2 hbelow
        exact exists_place_below hl (fun heq => hroot.1 (heq ▸ hmark)) hmark p

/-! ## Numbers of a sketch -/

/-- A numbered tree bears consecutive numbers. -/
theorem number_marks (node : Node M H) (next : Nat) :
    ∃ n, (node.number next).2 = next + n ∧
      (node.number next).1.marks.map (·.2) = List.range' next n := by
  induction node generalizing next with
  | text content => exact ⟨0, rfl, rfl⟩
  | element self children ih =>
    have hall : ∀ (l : List (Node M H)) (next : Nat), l ⊆ children →
        ∃ n, (numberAll next l).2 = next + n ∧
          ((numberAll next l).1.flatMap marks).map (·.2) = List.range' next n := by
      intro l
      induction l with
      | nil => exact fun next _ => ⟨0, rfl, rfl⟩
      | cons child rest ihl =>
        intro next hsub
        obtain ⟨n, hafter, hmarks⟩ := ih child (hsub List.mem_cons_self) next
        obtain ⟨m, hrest, hmore⟩ := ihl (next + n) fun x hx => hsub (List.mem_cons_of_mem _ hx)
        refine ⟨n + m, ?_, ?_⟩
        · show (numberAll (number next child).2 rest).2 = _
          rw [hafter, hrest, Nat.add_assoc]
        · show (((number next child).1 :: (numberAll (number next child).2 rest).1).flatMap
            marks).map _ = _
          rw [hafter, List.flatMap_cons, List.map_append, hmarks, hmore, List.range'_append_1]
    obtain ⟨n, hafter, hmarks⟩ := hall children (next + 1) fun _ h => h
    refine ⟨n + 1, ?_, ?_⟩
    · show (numberAll (next + 1) children).2 = _
      rw [hafter]
      omega
    · show (Node.element _ (numberAll (next + 1) children).1).marks.map _ = _
      rw [marks_element, List.map_cons, hmarks, List.range'_succ]
      rfl

end Node

end RosterPanel.Page
