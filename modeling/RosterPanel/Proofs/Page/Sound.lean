import RosterPanel.Proofs.Page.Marks

/-!
# Documents in which no number occurs twice

Results:

* `Document.Sound`: that no number of a document occurs twice or is yet to be given out, kept by
  every operation.
* `Document.samePage_clear`, `Document.Sound.samePage_detach`: what clearing and detaching an
  element does to the page, apart from what becomes of the trees that are off it.
-/

namespace RosterPanel.Page

variable {H : Type}

namespace Document

variable {d : Document H}

/-! ## Numbers -/

/-- All trees of a document, on the page and off it. -/
def all (d : Document H) : List (Node Nat H) := d.trees ++ d.loose

theorem all_mapTrees (d : Document H) (f : Node Nat H → Node Nat H) :
    (d.mapTrees f).all = d.all.map f := by
  obtain ⟨head, body, loose, fresh⟩ := d
  cases head <;> cases body <;> simp [all, trees, mapTrees]

/-- The numbers of all elements of a document. -/
def numbers (d : Document H) : List Nat := d.all.flatMap Node.marks

theorem find?_cases (d : Document H) (n : Nat) :
    (d.find? n = none ∧ n ∉ d.numbers) ∨
      ∃ e inner, d.find? n = some (.element e inner) ∧ e.mark = n ∧
        .element e inner ∈ d.all.flatMap Node.elements := by
  unfold find?
  rw [Node.elementsAmong_eq]
  cases hfind : (d.all.flatMap Node.elements).find? (·.test (hasMark n)) with
  | none =>
    refine Or.inl ⟨hfind, fun hn => ?_⟩
    obtain ⟨tree, htree, hn⟩ := List.mem_flatMap.1 hn
    obtain ⟨e, he, rfl⟩ := List.mem_map.1 hn
    obtain ⟨node, hnode, hself⟩ := List.mem_filterMap.1 he
    have hfalse := List.find?_eq_none.1 hfind node (List.mem_flatMap.2 ⟨tree, htree, hnode⟩)
    cases node with
    | text content => cases hself
    | element self children =>
      cases hself
      exact hfalse (by simp [Node.test, hasMark])
  | some node =>
    have hmem := List.mem_of_find?_eq_some hfind
    have htest := List.find?_some hfind
    cases node with
    | text content => cases htest
    | element self children =>
      exact Or.inr ⟨self, children, hfind, beq_iff_eq.1 htest, hmem⟩

theorem hasMark_eq_false {n : Nat} {l : List (Node Nat H)} (hn : n ∉ l.flatMap Node.marks) :
    ∀ e ∈ l.flatMap Node.selves, hasMark n e = false := by
  intro e he
  obtain ⟨node, hnode, he⟩ := List.mem_flatMap.1 he
  refine beq_eq_false_iff_ne.2 fun heq => hn ?_
  exact List.mem_flatMap.2 ⟨node, hnode, heq ▸ List.mem_map_of_mem he⟩

/-- No number occurs twice, and none is yet to be given out. -/
structure Sound (d : Document H) : Prop where
  nodup : d.numbers.Nodup
  bound : ∀ n ∈ d.numbers, n < d.fresh

/-- A document whose numbers are some of those of a sound one. -/
theorem Sound.of_count (h : d.Sound) {d' : Document H} (hfresh : d.fresh ≤ d'.fresh)
    (hcount : ∀ n, d'.numbers.count n ≤ d.numbers.count n) : d'.Sound := by
  constructor
  · refine List.nodup_iff_count.2 fun n => ?_
    exact Nat.le_trans (hcount n) (List.nodup_iff_count.1 h.nodup n)
  · intro n hn
    have hpos : 0 < d.numbers.count n :=
      Nat.lt_of_lt_of_le (List.count_pos_iff.2 hn) (hcount n)
    exact Nat.lt_of_lt_of_le (h.bound n (List.count_pos_iff.1 hpos)) hfresh

theorem Sound.adjustElement (h : d.Sound) (n : Nat) {f : Element Nat H → Element Nat H}
    (hf : ∀ e, (f e).mark = e.mark) : (d.adjustElement n f).Sound := by
  have hmarks : ∀ node ∈ d.all,
      (node.adjust (hasMark n) fun self children => .element (f self) children).marks =
        node.marks := by
    intro node hnode
    have hnodup : node.marks.Nodup := h.nodup.sublist (Node.sublist_flatMap_of_mem hnode _)
    rw [show node.adjust (hasMark n) (fun self children => .element (f self) children) =
      node.mapSelf fun e => if e.mark = n then f e else e from Node.adjust_eq_mapSelf hnodup]
    refine Node.marks_mapSelf (fun e => ?_) node
    split
    · exact hf e
    · rfl
  have hnumbers : (d.adjustElement n f).numbers = d.numbers := by
    show (d.adjustElement n f).all.flatMap _ = _
    rw [Document.adjustElement, all_mapTrees, List.flatMap_map]
    exact List.flatMap_congr hmarks
  exact h.of_count (Nat.le_refl _) fun m => Nat.le_of_eq (congrArg (List.count m) hnumbers)

theorem numbers_adjustChildren (d : Document H) (n : Nat)
    (f : List (Node Nat H) → List (Node Nat H)) :
    (d.adjustChildren n f).numbers =
      (d.all.map (Node.adjust (hasMark n) fun self children => .element self (f children))).flatMap
        Node.marks := by
  rw [numbers, adjustChildren, all_mapTrees]

/-- What changing the children of an element does to the numbers. -/
theorem Sound.count_adjustChildren (h : d.Sound) {n : Nat} {e : Element Nat H}
    {inner : List (Node Nat H)} (hmark : e.mark = n)
    (hmem : .element e inner ∈ d.all.flatMap Node.elements)
    (f : List (Node Nat H) → List (Node Nat H)) (m : Nat) :
    (d.adjustChildren n f).numbers.count m + (inner.flatMap Node.marks).count m =
      d.numbers.count m + ((f inner).flatMap Node.marks).count m := by
  subst hmark
  obtain ⟨p⟩ := Node.exists_place h.nodup hmem
  have hnew := p.count [.element e (f inner)] m
  have hold := p.count [.element e inner] m
  rw [← p.eq] at hold
  rw [numbers_adjustChildren, p.adjust, numbers]
  simp only [List.flatMap_singleton, Node.marks_element, List.count_cons] at hnew hold
  omega

/-- Numbers that are given out are new. -/
theorem Sound.count_add (h : d.Sound) {added : List Nat} (hadded : added.Nodup)
    (hnew : ∀ m ∈ added, d.fresh ≤ m) (m : Nat) : d.numbers.count m + added.count m ≤ 1 := by
  by_cases hm : m ∈ added
  · have hold : m ∉ d.numbers := fun hold =>
      absurd (h.bound m hold) (Nat.not_lt_of_le (hnew m hm))
    rw [List.count_eq_zero_of_not_mem hold]
    have := List.nodup_iff_count.1 hadded m
    omega
  · rw [List.count_eq_zero_of_not_mem hm]
    have := List.nodup_iff_count.1 h.nodup m
    omega

/-- Adding new numbers among the children of an element. -/
theorem Sound.adjustChildren (h : d.Sound) (n : Nat) {f : List (Node Nat H) → List (Node Nat H)}
    (added : List Nat) (hadded : added.Nodup) {fresh : Nat} (hfresh : d.fresh ≤ fresh)
    (hnew : ∀ m ∈ added, d.fresh ≤ m ∧ m < fresh)
    (hf : ∀ l m, ((f l).flatMap Node.marks).count m =
      (l.flatMap Node.marks).count m + added.count m) :
    (({ d with fresh } : Document H).adjustChildren n f).Sound := by
  have hwider : ({ d with fresh } : Document H).Sound :=
    ⟨h.nodup, fun m hm => Nat.lt_of_lt_of_le (h.bound m hm) hfresh⟩
  rcases d.find?_cases n with ⟨-, hn⟩ | ⟨e, inner, -, hmark, hmem⟩
  · refine hwider.of_count (Nat.le_refl _) fun m => ?_
    rw [numbers_adjustChildren]
    show ((d.all.map _).flatMap Node.marks).count m ≤ d.numbers.count m
    rw [Node.adjustAmong_eq_self (hasMark_eq_false hn)]
    exact Nat.le_refl _
  · have htotal : ∀ m, (({ d with fresh } : Document H).adjustChildren n f).numbers.count m =
        d.numbers.count m + added.count m := by
      intro m
      have h₁ := hwider.count_adjustChildren hmark hmem f m
      have h₂ := hf inner m
      rw [show ({ d with fresh } : Document H).numbers = d.numbers from rfl] at h₁
      omega
    constructor
    · refine List.nodup_iff_count.2 fun m => ?_
      rw [htotal]
      exact h.count_add hadded (fun m hm => (hnew m hm).1) m
    · intro m hm
      show m < fresh
      by_cases hold : m ∈ d.numbers
      · exact Nat.lt_of_lt_of_le (h.bound m hold) hfresh
      · refine (hnew m (List.count_pos_iff.1 ?_)).2
        have hpos := List.count_pos_iff.2 hm
        rw [htotal, List.count_eq_zero_of_not_mem hold, Nat.zero_add] at hpos
        exact hpos

section Enter

variable {K : Type} (sketch : Node K H)

/-- What entering a sketch into a document gives: a tree with new numbers. -/
theorem entered_marks (d : Document H) :
    ∃ n, (d.enter sketch).2 = { d with fresh := d.fresh + n } ∧
      ((d.enter sketch).1.mapMark (·.2)).marks = List.range' d.fresh n := by
  obtain ⟨n, hfresh, hmarks⟩ := sketch.number_marks d.fresh
  refine ⟨n, ?_, ?_⟩
  · rw [← hfresh]
    rfl
  · rw [Node.marks_mapMark]
    exact hmarks

theorem Sound.append_entered (h : d.Sound) (n : Nat) :
    ((d.enter sketch).2.append n ((d.enter sketch).1.mapMark (·.2))).Sound := by
  obtain ⟨k, hfresh, hmarks⟩ := d.entered_marks sketch
  rw [hfresh]
  refine h.adjustChildren n (List.range' d.fresh k) List.nodup_range' (Nat.le_add_right _ k)
    (fun m hm => ?_) fun l m => ?_
  · rw [List.mem_range'_1] at hm
    exact hm
  · rw [List.flatMap_append, List.count_append, List.flatMap_singleton, hmarks]

theorem Sound.prepend_entered (h : d.Sound) (n : Nat) :
    ((d.enter sketch).2.prepend n ((d.enter sketch).1.mapMark (·.2))).Sound := by
  obtain ⟨k, hfresh, hmarks⟩ := d.entered_marks sketch
  rw [hfresh]
  refine h.adjustChildren n (List.range' d.fresh k) List.nodup_range' (Nat.le_add_right _ k)
    (fun m hm => ?_) fun l m => ?_
  · rw [List.mem_range'_1] at hm
    exact hm
  · rw [List.flatMap_cons, List.count_append, hmarks, Nat.add_comm]

end Enter

/-! ## Taking elements off the page -/

theorem numbers_loose (d : Document H) (l : List (Node Nat H)) (m : Nat) :
    ({ d with loose := d.loose ++ l } : Document H).numbers.count m =
      d.numbers.count m + (l.flatMap Node.marks).count m := by
  simp only [numbers, all, trees, List.flatMap_append, List.count_append]
  omega

theorem flatMap_marks_filter_test (l : List (Node Nat H)) :
    (l.filter (·.test fun _ => true)).flatMap Node.marks = l.flatMap Node.marks := by
  induction l with
  | nil => rfl
  | cons node rest ih =>
    cases node with
    | text content => simpa [Node.test] using ih
    | element self children =>
      rw [List.filter_cons_of_pos rfl, List.flatMap_cons, List.flatMap_cons, ih]

theorem Sound.clear (h : d.Sound) (n : Nat) : (d.clear n).Sound := by
  unfold Document.clear
  rcases d.find?_cases n with ⟨hfind, -⟩ | ⟨e, inner, hfind, hmark, hmem⟩
  · rw [hfind]
    exact h
  · rw [hfind]
    refine h.of_count (Nat.le_refl _) fun m => ?_
    rw [numbers_loose]
    have hcount := h.count_adjustChildren hmark hmem (fun _ => []) m
    simp only [List.flatMap_nil, List.count_nil] at hcount
    simp only [Node.children, flatMap_marks_filter_test]
    omega

theorem Sound.detach (h : d.Sound) (n : Nat) : (d.detach n).Sound := by
  unfold Document.detach
  split
  · exact h
  · next hroot =>
    rcases d.find?_cases n with ⟨hfind, -⟩ | ⟨e, inner, hfind, rfl, hmem⟩
    · rw [hfind]
      exact h
    · rw [hfind]
      refine h.of_count (Nat.le_refl _) fun m => ?_
      obtain ⟨p⟩ := Node.exists_place h.nodup hmem
      have hroots : d.all.filter (fun node => !node.test (hasMark e.mark)) = d.all := by
        refine List.filter_eq_self.2 fun node hnode => ?_
        have hnode : ¬ node.test (hasMark e.mark) = true := fun htest =>
          hroot (List.any_eq_true.2 ⟨node, hnode, htest⟩)
        simpa using hnode
      have hpruned : d.all.map (Node.prune (hasMark e.mark)) = p.fill [] := by
        rw [← p.prune, Node.pruneAmong_eq, hroots]
      have hcount := p.count [.element e inner] m
      rw [← p.eq] at hcount
      rw [numbers_loose, numbers, all_mapTrees, hpruned]
      exact Nat.le_of_eq hcount.symm

/-! ## What becomes of the page -/

theorem mapTrees_eq_self {f : Node Nat H → Node Nat H} (hf : ∀ tree ∈ d.all, f tree = tree) :
    d.mapTrees f = d := by
  obtain ⟨head, body, loose, fresh⟩ := d
  have hhead : head.map f = head := by
    cases head with
    | none => rfl
    | some tree => exact congrArg some (hf tree (by simp [all, trees]))
  have hbody : body.map f = body := by
    cases body with
    | none => rfl
    | some tree => exact congrArg some (hf tree (by simp [all, trees]))
  have hloose : loose.map f = loose :=
    Node.map_eq_self fun tree htree => hf tree (by simp [all, htree])
  rw [mapTrees, hhead, hbody, hloose]

theorem adjust_eq_of_notMem {n : Nat} (hn : n ∉ d.numbers)
    (f : Element Nat H → List (Node Nat H) → Node Nat H) :
    d.mapTrees (Node.adjust (hasMark n) f) = d :=
  mapTrees_eq_self fun tree htree => Node.adjust_eq_self fun e he =>
    hasMark_eq_false hn e (List.mem_flatMap.2 ⟨tree, htree, he⟩)

/-- Two documents that show the same page. -/
def SamePage (d d' : Document H) : Prop := d.head = d'.head ∧ d.body = d'.body

/-- On the page, clearing an element just takes its children away. -/
theorem samePage_clear (d : Document H) (n : Nat) :
    (d.clear n).SamePage (d.adjustChildren n fun _ => []) := by
  unfold clear
  rcases d.find?_cases n with ⟨hfind, hn⟩ | ⟨e, inner, hfind, -, -⟩
  · rw [hfind, adjustChildren, adjust_eq_of_notMem hn]
    exact ⟨rfl, rfl⟩
  · rw [hfind]
    exact ⟨rfl, rfl⟩

/-- On the page, detaching an element takes it out of the tree, unless it is a root. -/
theorem Sound.samePage_detach (h : d.Sound) (n : Nat) :
    (d.detach n).SamePage (d.mapTrees (Node.prune (hasMark n))) := by
  unfold Document.detach
  split
  · next hroot =>
    obtain ⟨root, hmem, htest⟩ := List.any_eq_true.1 hroot
    obtain ⟨before, after, hall⟩ := List.append_of_mem hmem
    have hnodup : ((before ++ [root] ++ after).flatMap Node.marks).Nodup := by
      have hd := h.nodup
      rw [numbers, show d.all = before ++ root :: after from hall] at hd
      simpa using hd
    cases root with
    | text content => cases htest
    | element e inner =>
      have hmark : e.mark = n := beq_iff_eq.1 htest
      have hn : n ∈ [Node.element e inner].flatMap Node.marks := by simp [hmark]
      obtain ⟨hbefore, hafter⟩ := Node.hasMark_eq_false_around hnodup hn
      rw [mapTrees_eq_self fun tree htree => ?_]
      · exact ⟨rfl, rfl⟩
      rw [show d.all = before ++ Node.element e inner :: after from hall, List.mem_append,
        List.mem_cons] at htree
      rcases htree with htree | rfl | htree
      · exact Node.prune_eq_self fun x hx => hbefore x (List.mem_flatMap.2 ⟨tree, htree, hx⟩)
      · have hroot : (e.mark :: inner.flatMap Node.marks).Nodup := by
          have hsub := Node.sublist_flatMap_of_mem
            (show Node.element e inner ∈ before ++ [Node.element e inner] ++ after by simp)
            Node.marks
          rw [Node.marks_element] at hsub
          exact hnodup.sublist hsub
        rw [List.nodup_cons, hmark] at hroot
        rw [Node.prune, Node.pruneAmong_eq_self (hasMark_eq_false hroot.1)]
      · exact Node.prune_eq_self fun x hx => hafter x (List.mem_flatMap.2 ⟨tree, htree, hx⟩)
  · rcases d.find?_cases n with ⟨hfind, hn⟩ | ⟨e, inner, hfind, -, -⟩
    · rw [hfind, mapTrees_eq_self fun tree htree => Node.prune_eq_self fun e he =>
        hasMark_eq_false hn e (List.mem_flatMap.2 ⟨tree, htree, he⟩)]
      exact ⟨rfl, rfl⟩
    · rw [hfind]
      exact ⟨rfl, rfl⟩

end Document

end RosterPanel.Page
