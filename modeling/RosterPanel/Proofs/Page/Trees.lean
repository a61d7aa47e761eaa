import Mathlib.Data.List.Basic
import RosterPanel.Page.Document

/-!
# Trees of a page

Induction over the nodes of a page, the operations on them as operations on lists, and the
elements in a tree with their marks and listeners.

* `Node.induct`: induction over a tree, with the hypothesis for every child.
* `Node.selves`, `Node.marks`, `Node.handlers`: the elements in a tree, and what they carry.
* `Node.Only`: that all listeners in a tree pass, which every operation keeps.
-/

namespace RosterPanel.Page

variable {M N H : Type}

namespace Node

@[elab_as_elim, induction_eliminator]
theorem induct {motive : Node M H → Prop} (text : ∀ content, motive (.text content))
    (element : ∀ self children, (∀ child ∈ children, motive child) →
      motive (.element self children)) : ∀ node, motive node
  | .text content => text content
  | .element self children => element self children fun child _ => induct text element child
termination_by node => sizeOf node
decreasing_by
  have := List.sizeOf_lt_of_mem ‹child ∈ children›
  simp only [Node.element.sizeOf_spec]
  omega

/-! ## Operations on lists of nodes -/

@[simp] theorem elementsAmong_eq (l : List (Node M H)) :
    elementsAmong l = l.flatMap elements := by
  induction l with
  | nil => rfl
  | cons node rest ih => rw [elementsAmong, ih, List.flatMap_cons]

@[simp] theorem adjustAmong_eq (p : Element M H → Bool)
    (f : Element M H → List (Node M H) → Node M H) (l : List (Node M H)) :
    adjustAmong p f l = l.map (adjust p f) := by
  induction l with
  | nil => rfl
  | cons node rest ih => rw [adjustAmong, ih, List.map_cons]

@[simp] theorem pruneAmong_eq (p : Element M H → Bool) (l : List (Node M H)) :
    pruneAmong p l = (l.filter fun node => !node.test p).map (prune p) := by
  induction l with
  | nil => rfl
  | cons node rest ih => by_cases h : node.test p = true <;> simp [pruneAmong, ih, h]

@[simp] theorem mapMarkAll_eq (f : M → N) (l : List (Node M H)) :
    mapMarkAll f l = l.map (mapMark f) := by
  induction l with
  | nil => rfl
  | cons node rest ih => rw [mapMarkAll, ih, List.map_cons]

/-! ## The elements in a tree -/

/-- The elements of a tree, their children aside, in document order. -/
def selves (node : Node M H) : List (Element M H) := node.elements.filterMap element?

@[simp] theorem selves_text (content : String) : (.text content : Node M H).selves = [] := rfl

@[simp] theorem selves_element (self : Element M H) (children : List (Node M H)) :
    (.element self children : Node M H).selves = self :: children.flatMap selves := by
  show List.filterMap _ (elements _) = _
  rw [elements, elementsAmong_eq, List.filterMap_cons_some (by rfl), List.filterMap_flatMap]
  rfl

/-- The marks of the elements of a tree. -/
def marks (node : Node M H) : List M := node.selves.map (·.mark)

@[simp] theorem marks_text (content : String) : (.text content : Node M H).marks = [] := rfl

@[simp] theorem marks_element (self : Element M H) (children : List (Node M H)) :
    (.element self children : Node M H).marks = self.mark :: children.flatMap marks := by
  simp [marks, List.map_flatMap]
  rfl

/-- What the listeners in a tree do. -/
def handlers (node : Node M H) : List H :=
  node.selves.flatMap fun e => e.listeners.map (·.handler)

@[simp] theorem handlers_text (content : String) : (.text content : Node M H).handlers = [] := rfl

@[simp] theorem handlers_element (self : Element M H) (children : List (Node M H)) :
    (.element self children : Node M H).handlers =
      self.listeners.map (·.handler) ++ children.flatMap handlers := by
  simp [handlers, List.flatMap_assoc]
  rfl

/-- What is below an element of a tree is in the tree. -/
theorem selves_subset_of_mem_elements {node inner : Node M H} (h : inner ∈ node.elements) :
    inner.selves ⊆ node.selves := by
  induction node with
  | text content => simp [elements] at h
  | element self children ih =>
    rw [elements, elementsAmong_eq, List.mem_cons, List.mem_flatMap] at h
    rcases h with rfl | ⟨child, hchild, h⟩
    · exact fun _ he => he
    · intro e he
      rw [selves_element]
      exact List.mem_cons_of_mem _ (List.mem_flatMap.2 ⟨child, hchild, ih child hchild h he⟩)

/-! ## Paths -/

theorem mem_selves_of_mem_pathTo {p : Element M H → Bool} {e : Element M H} {node : Node M H}
    (h : e ∈ node.pathTo p) : e ∈ node.selves := by
  induction node with
  | text content => cases h
  | element self children ih =>
    have hamong : ∀ l : List (Node M H), l ⊆ children → e ∈ pathAmong p l →
        e ∈ l.flatMap selves := by
      intro l
      induction l with
      | nil => exact fun _ h => by cases h
      | cons child rest ihl =>
        intro hsub h
        rw [pathAmong] at h
        split at h
        · exact List.mem_append_right _ (ihl (fun _ hx => hsub (List.mem_cons_of_mem _ hx)) h)
        · exact List.mem_append_left _ (ih child (hsub List.mem_cons_self) h)
    rw [selves_element]
    rw [pathTo] at h
    split at h
    · rw [List.mem_singleton.1 h]
      exact List.mem_cons_self
    · split at h
      · cases h
      · rcases List.mem_append.1 h with h | h
        · exact List.mem_cons_of_mem _ (hamong children (fun _ hx => hx) h)
        · rw [List.mem_singleton.1 h]
          exact List.mem_cons_self

theorem mem_selves_of_mem_pathAmong {p : Element M H → Bool} {e : Element M H}
    {l : List (Node M H)} (h : e ∈ pathAmong p l) : ∃ node ∈ l, e ∈ node.selves := by
  induction l with
  | nil => cases h
  | cons node rest ih =>
    rw [pathAmong] at h
    split at h
    · obtain ⟨node', hnode', he⟩ := ih h
      exact ⟨node', List.mem_cons_of_mem _ hnode', he⟩
    · exact ⟨node, List.mem_cons_self, mem_selves_of_mem_pathTo h⟩

/-! ## Listeners -/

/-- Whether all listeners in a tree do only what passes. -/
def Only (P : H → Prop) (node : Node M H) : Prop := ∀ x ∈ node.handlers, P x

section Only

variable {P : H → Prop}

@[simp] theorem only_text (content : String) : (.text content : Node M H).Only P := by
  simp [Only]

@[simp] theorem only_element (self : Element M H) (children : List (Node M H)) :
    (.element self children : Node M H).Only P ↔
      (∀ l ∈ self.listeners, P l.handler) ∧ ∀ child ∈ children, child.Only P := by
  simp only [Only, handlers_element, List.mem_append, List.mem_map, List.mem_flatMap]
  constructor
  · intro h
    exact ⟨fun l hl => h _ (Or.inl ⟨l, hl, rfl⟩), fun c hc x hx => h x (Or.inr ⟨c, hc, hx⟩)⟩
  · rintro ⟨hself, hchildren⟩ x (⟨l, hl, rfl⟩ | ⟨c, hc, hx⟩)
    · exact hself l hl
    · exact hchildren c hc x hx

theorem Only.of_mem_elements {node inner : Node M H} (h : node.Only P)
    (hinner : inner ∈ node.elements) : inner.Only P := by
  intro x hx
  obtain ⟨e, he, hx⟩ := List.mem_flatMap.1 hx
  exact h x (List.mem_flatMap.2 ⟨e, selves_subset_of_mem_elements hinner he, hx⟩)

theorem Only.adjust {p : Element M H → Bool} {f : Element M H → List (Node M H) → Node M H}
    {node : Node M H} (h : node.Only P)
    (hf : ∀ self children, (.element self children : Node M H).Only P →
      (f self children).Only P) : (node.adjust p f).Only P := by
  induction node with
  | text content => exact h
  | element self children ih =>
    unfold Node.adjust
    split
    · exact hf self children h
    · rw [only_element] at h
      rw [adjustAmong_eq, only_element]
      refine ⟨h.1, fun child' hchild' => ?_⟩
      obtain ⟨child, hchild, rfl⟩ := List.mem_map.1 hchild'
      exact ih child hchild (h.2 child hchild)

theorem Only.prune {p : Element M H → Bool} {node : Node M H} (h : node.Only P) :
    (node.prune p).Only P := by
  induction node with
  | text content => exact h
  | element self children ih =>
    rw [only_element] at h
    rw [Node.prune, pruneAmong_eq, only_element]
    refine ⟨h.1, fun child' hchild' => ?_⟩
    obtain ⟨child, hchild, rfl⟩ := List.mem_map.1 hchild'
    have hchild := (List.mem_filter.1 hchild).1
    exact ih child hchild (h.2 child hchild)

end Only

@[simp] theorem handlers_mapMark (f : M → N) (node : Node M H) :
    (node.mapMark f).handlers = node.handlers := by
  induction node with
  | text content => rfl
  | element self children ih =>
    rw [mapMark, mapMarkAll_eq, handlers_element, handlers_element, List.flatMap_map]
    exact congrArg (_ ++ ·) (List.flatMap_congr ih)

/-! ## Numbering -/

/-- Forgetting the numbers gives the tree back that was numbered. -/
theorem mapMark_number (node : Node M H) (next : Nat) :
    (node.number next).1.mapMark (·.1) = node := by
  induction node generalizing next with
  | text content => rfl
  | element self children ih =>
    have hall : ∀ (l : List (Node M H)) (next : Nat), l ⊆ children →
        (numberAll next l).1.map (mapMark (·.1)) = l := by
      intro l
      induction l with
      | nil => intros; rfl
      | cons child rest ihl =>
        intro next hsub
        rw [numberAll, List.map_cons, ih child (hsub List.mem_cons_self),
          ihl _ fun _ h => hsub (List.mem_cons_of_mem _ h)]
    rw [number, mapMark, mapMarkAll_eq, hall children _ fun _ h => h]
    rfl

@[simp] theorem handlers_number (node : Node M H) (next : Nat) :
    (node.number next).1.handlers = node.handlers := by
  rw [← handlers_mapMark (·.1), mapMark_number]

end Node

end RosterPanel.Page
