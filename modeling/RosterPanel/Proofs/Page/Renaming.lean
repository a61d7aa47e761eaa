import Mathlib.Data.List.Flatten
import RosterPanel.Proofs.Page.Marks

/-!
# Trees under other marks

What is done to the elements with a mark does not depend on what the marks are, only on which of
them are the same. Results:

* `Node.mapMark_adjust_children`, `Node.number_renamed`: changing marks commutes with changing
  children, and with numbering.
* `Node.adjust_append_clear`: emptying some elements commutes with adding to others.
* `Node.exists_countP_append`: what adding to some elements does to the number of elements that
  pass.
-/

namespace RosterPanel.Page

variable {L M N H : Type}

namespace Node

/-! ## Changing marks -/

theorem mapMark_mapMark (f : L → M) (g : M → N) (node : Node L H) :
    (node.mapMark f).mapMark g = node.mapMark fun m => g (f m) := by
  induction node with
  | text content => rfl
  | element self children ih =>
    simp only [mapMark, mapMarkAll_eq, List.map_map]
    exact congrArg _ (List.map_congr_left ih)

theorem mapMark_congr {f g : M → N} {node : Node M H} (h : ∀ m ∈ node.marks, f m = g m) :
    node.mapMark f = node.mapMark g := by
  induction node with
  | text content => rfl
  | element self children ih =>
    rw [marks_element, List.forall_mem_cons] at h
    simp only [mapMark, mapMarkAll_eq, h.1]
    congr 1
    refine List.map_congr_left fun child hchild => ih child hchild fun m hm => ?_
    exact h.2 m (List.mem_flatMap.2 ⟨child, hchild, hm⟩)

theorem mapMark_id (node : Node M H) : (node.mapMark fun m => m) = node := by
  induction node with
  | text content => rfl
  | element self children ih =>
    rw [mapMark, mapMarkAll_eq, map_eq_self ih]
    rfl

theorem mapMark_eq_self {f : M → M} {node : Node M H} (h : ∀ m ∈ node.marks, f m = m) :
    node.mapMark f = node := (mapMark_congr h).trans node.mapMark_id

/-- Changing marks after, or before, changing the children of some elements. -/
theorem mapMark_adjust_children {f : M → N} {p : Element M H → Bool} {q : Element N H → Bool}
    {g : List (Node M H) → List (Node M H)} {k : List (Node N H) → List (Node N H)}
    (hpq : ∀ e, q (e.setMark (f e.mark)) = p e)
    (hg : ∀ l, (g l).map (mapMark f) = k (l.map (mapMark f))) (node : Node M H) :
    (node.adjust p fun self children => .element self (g children)).mapMark f =
      (node.mapMark f).adjust q fun self children => .element self (k children) := by
  induction node with
  | text content => rfl
  | element self children ih =>
    by_cases hp : p self = true
    · simp only [adjust, mapMark, mapMarkAll_eq, hpq, hp, if_true, hg]
    · simp only [adjust, mapMark, mapMarkAll_eq, adjustAmong_eq, hpq, hp, Bool.false_eq_true,
        if_false, List.map_map]
      exact congrArg _ (List.map_congr_left ih)

theorem numberAll_cons (node : Node M H) (rest : List (Node M H)) (next : Nat) :
    numberAll next (node :: rest) =
      ((node.number next).1 :: (numberAll (node.number next).2 rest).1,
        (numberAll (node.number next).2 rest).2) := rfl

/-- Trees that are numbered one after the other bear consecutive numbers. -/
theorem numberAll_marks (l : List (Node M H)) (next : Nat) :
    ∃ count, (numberAll next l).2 = next + count ∧
      ((numberAll next l).1.flatMap marks).map (·.2) = List.range' next count := by
  induction l generalizing next with
  | nil => exact ⟨0, rfl, rfl⟩
  | cons node rest ih =>
    obtain ⟨first, hfirst, hmarks⟩ := node.number_marks next
    obtain ⟨count, hcount, hmore⟩ := ih (next + first)
    rw [numberAll_cons, hfirst]
    refine ⟨first + count, by rw [hcount, Nat.add_assoc], ?_⟩
    rw [List.flatMap_cons, List.map_append, hmarks, hmore, List.range'_append_1]

theorem le_number (node : Node M H) (next : Nat) : next ≤ (node.number next).2 := by
  obtain ⟨count, hfresh, -⟩ := node.number_marks next
  omega

/-- Numbering from another number on gives the same tree under other numbers. -/
theorem number_renamed {f : Nat → Nat} {bound : Nat} (hf : ∀ n, bound ≤ n → f (n + 1) = f n + 1)
    (node : Node M H) {next : Nat} (hnext : bound ≤ next) :
    node.number (f next) =
      ((node.number next).1.mapMark fun m => (m.1, f m.2), f (node.number next).2) := by
  induction node generalizing next with
  | text content => rfl
  | element self children ih =>
    have hall : ∀ (l : List (Node M H)) (next : Nat), l ⊆ children → bound ≤ next →
        numberAll (f next) l = ((numberAll next l).1.map (mapMark fun m => (m.1, f m.2)),
          f (numberAll next l).2) := by
      intro l
      induction l with
      | nil => exact fun _ _ _ => rfl
      | cons child rest ihl =>
        intro next hsub hnext
        have hrest := ihl (number next child).2 (fun _ hx => hsub (List.mem_cons_of_mem _ hx))
          (Nat.le_trans hnext (le_number child next))
        simp only [numberAll, ih child (hsub List.mem_cons_self) hnext, hrest, List.map_cons]
    have hchildren := hall children (next + 1) (fun _ hx => hx) (Nat.le_succ_of_le hnext)
    rw [hf next hnext] at hchildren
    simp only [number, hchildren, mapMark, mapMarkAll_eq]
    rfl

/-! ## What can be seen -/

theorem look_element (self : Element M H) (children : List (Node M H)) :
    (.element self children : Node M H).look = .element self.look (children.map look) := by
  rw [look]
  congr 1
  induction children with
  | nil => rfl
  | cons child rest ih => rw [lookAll, ih, List.map_cons]

theorem selves_look (node : Node M H) : node.look.selves = node.selves.map Element.look := by
  induction node with
  | text content => rfl
  | element self children ih =>
    rw [look_element, selves_element, selves_element, List.map_cons, List.map_flatMap,
      List.flatMap_map]
    exact congrArg (_ :: ·) (List.flatMap_congr ih)

/-- Marks cannot be seen. -/
theorem look_mapMark (f : M → N) (node : Node M H) : (node.mapMark f).look = node.look := by
  induction node with
  | text content => rfl
  | element self children ih =>
    rw [mapMark, mapMarkAll_eq, look_element, look_element, List.map_map]
    exact congrArg (Node.element self.look) (List.map_congr_left ih)

/-! ## One change after the other -/

/-- Taking out some elements and then others. -/
theorem prune_prune (p q : Element M H → Bool) (node : Node M H) :
    (node.prune p).prune q = node.prune fun e => p e || q e := by
  induction node with
  | text content => rfl
  | element self children ih =>
    have htest : ∀ child : Node M H, child.test (fun e => p e || q e) =
        (child.test p || child.test q) := by
      rintro (content | ⟨self, children⟩) <;> rfl
    simp only [prune, pruneAmong_eq, List.filter_map, List.map_map, List.filter_filter,
      Function.comp_def, test_prune, htest, Bool.not_or, Bool.and_comm]
    exact congrArg _ (List.map_congr_left fun child hchild => ih child (List.mem_filter.1 hchild).1)

/-- Changing the children of the same elements twice. -/
theorem adjust_children_twice (p : Element M H → Bool) (g k : List (Node M H) → List (Node M H))
    (node : Node M H) :
    (node.adjust p fun self children => .element self (g children)).adjust p
        (fun self children => .element self (k children)) =
      node.adjust p fun self children => .element self (k (g children)) := by
  induction node with
  | text content => rfl
  | element self children ih =>
    by_cases hp : p self = true
    · simp only [adjust, hp, if_true]
    · simp only [adjust, adjustAmong_eq, hp, Bool.false_eq_true, if_false, List.map_map]
      exact congrArg _ (List.map_congr_left ih)

/-- Changing elements twice, their children aside, when the second time changes nothing. -/
theorem adjust_element_twice {p : Element M H → Bool} {f : Element M H → Element M H}
    (hp : ∀ e, p (f e) = p e) (hf : ∀ e, f (f e) = f e) (node : Node M H) :
    (node.adjust p fun self children => .element (f self) children).adjust p
        (fun self children => .element (f self) children) =
      node.adjust p fun self children => .element (f self) children := by
  induction node with
  | text content => rfl
  | element self children ih =>
    by_cases h : p self = true
    · simp only [adjust, h, hp, hf, if_true]
    · simp only [adjust, adjustAmong_eq, h, Bool.false_eq_true, if_false, List.map_map]
      exact congrArg _ (List.map_congr_left ih)

/-- Emptying some elements leaves no new ones. -/
theorem selves_clear_sublist (p : Element M H → Bool) (node : Node M H) :
    (node.adjust p fun self _ => .element self []).selves.Sublist node.selves := by
  induction node with
  | text content => exact List.Sublist.refl _
  | element self children ih =>
    unfold adjust
    split
    · rw [selves_element, selves_element]
      exact (List.nil_sublist _).cons_cons self
    · rw [adjustAmong_eq, selves_element, selves_element, List.flatMap_map]
      exact (List.Sublist.flatMap_right children ih).cons_cons self

/-- Adding to some elements, and emptying others last or first. -/
theorem adjust_append_clear {p q : Element M H → Bool} {added : Node M H}
    (hpq : ∀ e, p e = true → q e = false) (hadded : ∀ e ∈ added.selves, q e = false)
    (node : Node M H) :
    (node.adjust p fun self children => .element self (children ++ [added])).adjust q
        (fun self _ => .element self []) =
      (node.adjust q fun self _ => .element self []).adjust p
        fun self children => .element self (children ++ [added]) := by
  induction node with
  | text content => rfl
  | element self children ih =>
    by_cases hp : p self = true
    · simp only [adjust, adjustAmong_eq, hp, hpq self hp, if_true, Bool.false_eq_true, if_false,
        List.map_append, List.map_singleton, adjust_eq_self hadded]
    · by_cases hq : q self = true
      · simp only [adjust, adjustAmong_eq, hp, hq, if_true, Bool.false_eq_true, if_false,
          List.map_nil]
      · simp only [adjust, adjustAmong_eq, hp, hq, Bool.false_eq_true, if_false, List.map_map]
        exact congrArg _ (List.map_congr_left ih)

/-! ## Counting elements -/

/-- Adding to some elements of a list of trees adds to the number of elements that pass, once for
each place where something is added. -/
theorem exists_countP_appendAmong {p q : Element M H → Bool} {nodes : List (Node M H)}
    (h : ∀ node ∈ nodes, ∃ times, ((∃ e ∈ node.selves, q e = true) → 1 ≤ times) ∧
      ∀ l : List (Node M H),
        (node.adjust q fun self children => .element self (children ++ l)).selves.countP p =
          node.selves.countP p + times * (l.flatMap selves).countP p) :
    ∃ times, ((∃ e ∈ nodes.flatMap selves, q e = true) → 1 ≤ times) ∧
      ∀ l : List (Node M H), ((nodes.map (adjust q fun self children =>
        .element self (children ++ l))).flatMap selves).countP p =
          (nodes.flatMap selves).countP p + times * (l.flatMap selves).countP p := by
  induction nodes with
  | nil => exact ⟨0, by simp, by simp⟩
  | cons node rest ih =>
    rw [List.forall_mem_cons] at h
    obtain ⟨⟨first, hfirst, hcount⟩, hrest⟩ := h
    obtain ⟨times, htimes, hcounts⟩ := ih hrest
    refine ⟨first + times, ?_, fun l => ?_⟩
    · rintro ⟨e, he, hq⟩
      rw [List.flatMap_cons, List.mem_append] at he
      rcases he with he | he
      · exact Nat.le_trans (hfirst ⟨e, he, hq⟩) (Nat.le_add_right _ _)
      · exact Nat.le_trans (htimes ⟨e, he, hq⟩) (Nat.le_add_left _ _)
    · simp only [List.map_cons, List.flatMap_cons, List.countP_append, hcount, hcounts,
        Nat.add_mul]
      omega

theorem exists_countP_append (p q : Element M H → Bool) (node : Node M H) :
    ∃ times, ((∃ e ∈ node.selves, q e = true) → 1 ≤ times) ∧ ∀ l : List (Node M H),
      (node.adjust q fun self children => .element self (children ++ l)).selves.countP p =
        node.selves.countP p + times * (l.flatMap selves).countP p := by
  induction node with
  | text content => exact ⟨0, by simp, by simp [adjust]⟩
  | element self children ih =>
    by_cases hq : q self = true
    · refine ⟨1, fun _ => Nat.le_refl 1, fun l => ?_⟩
      simp only [adjust, hq, if_true, selves_element, List.flatMap_append, List.countP_cons,
        List.countP_append]
      omega
    · obtain ⟨times, htimes, hcounts⟩ := exists_countP_appendAmong ih
      refine ⟨times, ?_, fun l => ?_⟩
      · rintro ⟨e, he, hqe⟩
        rw [selves_element, List.mem_cons] at he
        rcases he with rfl | he
        · exact absurd hqe hq
        · exact htimes ⟨e, he, hqe⟩
      · simp only [adjust, adjustAmong_eq, hq, Bool.false_eq_true, if_false, selves_element,
          List.countP_cons, hcounts]
        omega

/-- The number of elements that pass in trees with other marks. -/
theorem countP_mapMark (f : M → N) {p : Element M H → Bool} {q : Element N H → Bool}
    (hpq : ∀ e, q (e.setMark (f e.mark)) = p e) (node : Node M H) :
    (node.mapMark f).selves.countP q = node.selves.countP p := by
  rw [mapMark_eq_mapSelf, selves_mapSelf, List.countP_map]
  exact List.countP_congr fun e _ => by simp [hpq]

end Node

end RosterPanel.Page
