import RosterPanel.Proofs.Repeating

/-!
# Members that are left over

The blocks of the members of a group are taken off the page as far as they are remembered. When two
members have the same id, only the block of the last one is. Results:

* `Canvas.putAll_members`: what putting the blocks of members on a canvas does.
* `Canvas.Orderly.stripped_putAll`: what is left over when they are taken off again.
* `Canvas.Orderly.leftover_eq_nil_iff`: nothing is left over if and only if no two members have the
  same id.
-/

namespace RosterPanel

open Page (Document Element Node)
open Page.Document (hasMark)

namespace Canvas

variable {c : Canvas} {groupId : String} {users : List User} {n : Nat}

/-- The blocks of members with the numbers that they get. -/
def memberTrees (groupId : String) (users : List User) (next : Nat) :
    List (Node (Option Slot × Nat) Handler) :=
  (Node.numberAll next (users.map (Sketch.memberBlock groupId))).1

/-- The next number after the blocks of members. -/
def afterMembers (groupId : String) (users : List User) (next : Nat) : Nat :=
  (Node.numberAll next (users.map (Sketch.memberBlock groupId))).2

/-- The marks in the blocks of members. -/
def memberMarks (groupId : String) (users : List User) (next : Nat) : List (Option Slot × Nat) :=
  (memberTrees groupId users next).flatMap Node.marks

/-- The blocks of members as they are put on a page. -/
def memberBlocks (groupId : String) (users : List User) (next : Nat) : List (Node Nat Handler) :=
  (memberTrees groupId users next).map (Node.mapMark fun m => m.2)

/-- The block of a group stays on record when a member is put somewhere. -/
theorem slot?_place_member (hn : c.slot? (.group groupId) = some n) (parent : Nat) (u : User) :
    (c.place parent (Sketch.memberBlock groupId u)).2.slot? (.group groupId) = some n := by
  have hnodup : (Sketch.slots [Sketch.memberBlock groupId u]).Nodup := by simp
  have hother : (.group groupId : Slot) ∉ Sketch.slots [Sketch.memberBlock groupId u] := by simp
  exact (get?_register hnodup _ _ _ _).2 (Or.inr ⟨hother, hn⟩)

/-- Putting the blocks of members into the block of their group. -/
theorem putAll_members (hn : c.slot? (.group groupId) = some n) (users : List User) :
    c.putAll (users.map (Placement.member groupId)) =
      { document := { c.document with fresh := afterMembers groupId users c.document.fresh
          }.adjustChildren n (· ++ memberBlocks groupId users c.document.fresh)
        view := { c.view with
          slots := (memberMarks groupId users c.document.fresh).foldl note c.view.slots } } := by
  induction users generalizing c with
  | nil =>
    have hsame := c.document.adjustChildren_append_nil n
    exact congrArg (fun d => (⟨d, c.view⟩ : Canvas)) hsame.symm
  | cons u rest ih =>
    have hput : c.put (.member groupId u) = (c.place n (Sketch.memberBlock groupId u)).2 :=
      put_of_some hn
    show (c.put (.member groupId u)).putAll (rest.map (Placement.member groupId)) = _
    rw [hput, ih (slot?_place_member hn n u)]
    let next := ((Sketch.memberBlock groupId u).number c.document.fresh).2
    have hdocument := Document.adjustChildren_adjustChildren
      { c.document with fresh := afterMembers groupId rest next } n
      (· ++ [c.entered (Sketch.memberBlock groupId u)]) (· ++ memberBlocks groupId rest next)
    simp only [List.append_assoc, List.singleton_append] at hdocument
    have hslots : (memberMarks groupId rest next).foldl note
        (register c.view.slots ((Sketch.memberBlock groupId u).number c.document.fresh).1) =
          (memberMarks groupId (u :: rest) c.document.fresh).foldl note c.view.slots := by
      rw [register_eq, ← List.foldl_append]
      rfl
    exact congrArg₂ Canvas.mk hdocument
      (congrArg (fun slots => ({ c.view with slots } : View)) hslots)

/-! ## What is remembered of members -/

theorem exists_memberNumbers (groupId : String) (users : List User) (next : Nat) :
    ∃ count, (memberMarks groupId users next).map (·.2) = List.range' next count := by
  obtain ⟨count, -, hmarks⟩ :=
    Node.numberAll_marks (users.map (Sketch.memberBlock groupId)) next
  exact ⟨count, hmarks⟩

theorem memberMarks_cons (groupId : String) (u : User) (rest : List User) (next : Nat) :
    memberMarks groupId (u :: rest) next =
      ((Sketch.memberBlock groupId u).number next).1.marks ++
        memberMarks groupId rest ((Sketch.memberBlock groupId u).number next).2 := rfl

theorem slots_memberMarks (groupId : String) (users : List User) (next : Nat) :
    (memberMarks groupId users next).filterMap (·.1) =
      users.map fun u => .member groupId u.id := by
  induction users generalizing next with
  | nil => rfl
  | cons u rest ih =>
    rw [memberMarks_cons, List.filterMap_append, slots_number, Sketch.slots_memberBlock, ih,
      List.map_cons, List.singleton_append]

theorem isMemberOf_memberMarks (groupId : String) (users : List User) (next : Nat) :
    ∀ x ∈ (memberMarks groupId users next).filterMap (·.1), x.isMemberOf groupId = true := by
  intro x hx
  rw [slots_memberMarks] at hx
  obtain ⟨u, -, rfl⟩ := List.mem_map.1 hx
  exact beq_self_eq_true groupId

/-- New elements in slots that pass are all still remembered if and only if their slots are
different. -/
theorem all_remembered_iff {marks : List (Option Slot × Nat)} {slots : SlotMap Nat}
    {p : Slot → Bool} (hnumbers : (marks.map (·.2)).Nodup)
    (hp : ∀ x ∈ marks.filterMap (·.1), p x = true) (hkeyed : slots.Keyed)
    (hnone : ∀ e ∈ slots.entries, p e.1 = false) :
    (∀ x n, (some x, n) ∈ marks → n ∈ ((marks.foldl note slots).removeWhere p).1) ↔
      (marks.filterMap (·.1)).Nodup := by
  have hkeyed := keyed_foldl_note hkeyed marks
  constructor
  · intro h
    have hentered : ∀ x n, (some x, n) ∈ marks → (x, n) ∈ (marks.foldl note slots).entries := by
      intro x n hmem
      obtain ⟨y, hy, hpy⟩ := SlotMap.mem_removed_removeWhere.1 (h x n hmem)
      have hmark := (mem_foldl_note hy).resolve_left fun hold => by
        rw [hnone _ hold] at hpy
        cases hpy
      have heq := List.inj_on_of_nodup_map hnumbers hmark hmem rfl
      cases heq
      exact hy
    rw [List.Nodup, List.pairwise_map] at hnumbers
    rw [List.Nodup, List.pairwise_filterMap]
    refine hnumbers.imp_of_mem fun {a b} ha hb hne x hx y hy heq => hne ?_
    obtain ⟨x', n⟩ := a
    obtain ⟨y', m⟩ := b
    cases hx
    cases hy
    cases heq
    have hn := hkeyed.get?_of_mem (hentered x n ha)
    have hm := hkeyed.get?_of_mem (hentered x m hb)
    exact Option.some.inj (hn.symm.trans hm)
  · intro hnodup x n hmem
    have hpx := hp x (List.mem_filterMap.2 ⟨_, hmem, rfl⟩)
    refine SlotMap.mem_removed_removeWhere.2 ⟨x, ?_, hpx⟩
    exact SlotMap.mem_of_get? ((get?_foldl_note hnodup slots x n).2 (Or.inl hmem))

/-! ## What is left over -/

theorem memberBlocks_cons (groupId : String) (u : User) (rest : List User) (next : Nat) :
    memberBlocks groupId (u :: rest) next =
      ((Sketch.memberBlock groupId u).number next).1.mapMark (fun m => m.2) ::
        memberBlocks groupId rest ((Sketch.memberBlock groupId u).number next).2 := rfl

/-- In the block of a member the root alone has a slot. -/
theorem mem_marks_memberBlock {u : User} {next : Nat} {x : Slot} :
    (some x, n) ∈ ((Sketch.memberBlock groupId u).number next).1.marks ↔
      x = .member groupId u.id ∧ n = next := by
  have hslots := slots_number (Sketch.memberBlock groupId u) next
  obtain ⟨below, hbelow⟩ : ∃ below, ((Sketch.memberBlock groupId u).number next).1.marks =
      (some (.member groupId u.id), next) :: below := ⟨_, Node.marks_element _ _⟩
  rw [hbelow, Sketch.slots_memberBlock] at hslots
  have hnone : below.filterMap (·.1) = [] := (List.cons.inj hslots).2
  rw [hbelow, List.mem_cons]
  constructor
  · rintro (heq | hmem)
    · cases heq
      exact ⟨rfl, rfl⟩
    · have hx : x ∈ below.filterMap (·.1) := List.mem_filterMap.2 ⟨_, hmem, rfl⟩
      rw [hnone] at hx
      cases hx
  · rintro ⟨rfl, rfl⟩
    exact Or.inl rfl

/-- Nothing is left of the blocks of members when all roots are taken out. -/
theorem pruneAmong_memberBlocks_eq_nil_iff (numbers : List Nat) (users : List User) (next : Nat) :
    Node.pruneAmong (fun e => numbers.contains e.mark) (memberBlocks groupId users next) = [] ↔
      ∀ x n, (some x, n) ∈ memberMarks groupId users next → n ∈ numbers := by
  induction users generalizing next with
  | nil => exact ⟨fun _ x n h => (List.not_mem_nil h).elim, fun _ => rfl⟩
  | cons u rest ih =>
    have htest : Node.test (fun e : Element Nat Handler => numbers.contains e.mark)
        (((Sketch.memberBlock groupId u).number next).1.mapMark fun m => m.2) =
          numbers.contains next := rfl
    rw [memberBlocks_cons, memberMarks_cons, Node.pruneAmong, htest]
    constructor
    · intro h x m hmem
      split at h
      · next hroot =>
        rcases List.mem_append.1 hmem with hmem | hmem
        · obtain ⟨-, rfl⟩ := mem_marks_memberBlock.1 hmem
          simpa using hroot
        · exact (ih _).1 h x m hmem
      · cases h
    · intro h
      have hroot := h _ next (List.mem_append_left _ (mem_marks_memberBlock.2 ⟨rfl, rfl⟩))
      rw [if_pos (by simpa using hroot)]
      exact (ih _).2 fun x m hmem => h x m (List.mem_append_right _ hmem)

/-- The numbers of members that are remembered after they have been put on a canvas which
remembered none. -/
theorem le_of_mem_memberNumbers (hn : c.slot? (.group groupId) = some n)
    (hnone : ∀ e ∈ c.view.slots.entries, e.1.isMemberOf groupId = false) (users : List User) :
    ∀ m ∈ (c.putAll (users.map (Placement.member groupId))).memberNumbers groupId,
      c.document.fresh ≤ m := by
  intro m hm
  rw [putAll_members hn] at hm
  obtain ⟨x, he, hx⟩ := SlotMap.mem_removed_removeWhere.1 hm
  have hmark := (mem_foldl_note he).resolve_left fun hold => by
    rw [hnone _ hold] at hx
    cases hx
  obtain ⟨count, hnumbers⟩ := exists_memberNumbers groupId users c.document.fresh
  have hrange : m ∈ List.range' c.document.fresh count := hnumbers ▸ List.mem_map_of_mem hmark
  exact (List.mem_range'_1.1 hrange).1

/-- All members that have been put on a canvas are remembered if and only if their ids are
different. -/
theorem members_remembered_iff (h : c.Orderly) (hn : c.slot? (.group groupId) = some n)
    (hnone : ∀ e ∈ c.view.slots.entries, e.1.isMemberOf groupId = false) (users : List User) :
    (∀ x m, (some x, m) ∈ memberMarks groupId users c.document.fresh →
      m ∈ (c.putAll (users.map (Placement.member groupId))).memberNumbers groupId) ↔
        (users.map (·.id)).Nodup := by
  obtain ⟨count, hnumbers⟩ := exists_memberNumbers groupId users c.document.fresh
  have hids : (users.map fun u => Slot.member groupId u.id).Nodup ↔ (users.map (·.id)).Nodup := by
    have hmap : users.map (fun u => Slot.member groupId u.id) =
        (users.map (·.id)).map (Slot.member groupId) := by
      rw [List.map_map]
      rfl
    rw [hmap]
    exact List.nodup_map_iff fun _ _ heq => (Slot.member.inj heq).2
  have hslots := all_remembered_iff (hnumbers ▸ List.nodup_range')
    (isMemberOf_memberMarks groupId users c.document.fresh) h.view.keyed hnone
  rw [slots_memberMarks, hids] at hslots
  rw [putAll_members hn]
  exact hslots

/-- What is left of the blocks of members when they are taken off again as far as they are
remembered. -/
def leftover (c : Canvas) (groupId : String) (users : List User) : List (Node Nat Handler) :=
  Node.pruneAmong (fun e => ((c.putAll (users.map (Placement.member groupId))).memberNumbers
    groupId).contains e.mark) (memberBlocks groupId users c.document.fresh)

/-- Nothing is left over if and only if the members have different ids. -/
theorem Orderly.leftover_eq_nil_iff (h : c.Orderly) (hn : c.slot? (.group groupId) = some n)
    (hnone : ∀ e ∈ c.view.slots.entries, e.1.isMemberOf groupId = false) (users : List User) :
    c.leftover groupId users = [] ↔ (users.map (·.id)).Nodup :=
  (pruneAmong_memberBlocks_eq_nil_iff _ _ _).trans (members_remembered_iff h hn hnone users)

/-- Taking members off again that have been put on a canvas which remembered none. -/
theorem Orderly.stripped_putAll (h : c.Orderly) (hn : c.slot? (.group groupId) = some n)
    (hnone : ∀ e ∈ c.view.slots.entries, e.1.isMemberOf groupId = false) (users : List User) :
    (c.putAll (users.map (Placement.member groupId))).stripped groupId =
      { c with document := { c.document with fresh := afterMembers groupId users c.document.fresh
        }.adjustChildren n (· ++ c.leftover groupId users) } := by
  have hnew := le_of_mem_memberNumbers hn hnone users
  unfold leftover
  generalize hnumbers : (c.putAll (users.map (Placement.member groupId))).memberNumbers groupId =
    numbers at hnew ⊢
  let d : Document Handler :=
    { c.document with fresh := afterMembers groupId users c.document.fresh }
  have hpruned : d.mapTrees (Node.prune fun e => numbers.contains e.mark) = d := by
    exact Document.mapTrees_eq_self fun tree htree => h.sound.prune_new hnew htree
  have hadded : ∀ l, Node.pruneAmong (fun e => numbers.contains e.mark)
      (l ++ memberBlocks groupId users c.document.fresh) = _ := fun l =>
    Node.pruneAmong_append _ l _
  have hdocument := Document.mapTrees_comm (Node.prune_adjust_children (p := hasMark n)
    (g := (· ++ memberBlocks groupId users c.document.fresh))
    (k := (· ++ Node.pruneAmong (fun e => numbers.contains e.mark)
      (memberBlocks groupId users c.document.fresh))) hadded) d
  rw [hpruned] at hdocument
  have hslots : (((memberMarks groupId users c.document.fresh).foldl note
      c.view.slots).removeWhere (Slot.isMemberOf groupId)).2 = c.view.slots := by
    rw [removeWhere_foldl_note (isMemberOf_memberMarks groupId users _),
      SlotMap.removeWhere_eq_self hnone]
  rw [Canvas.stripped, hnumbers, putAll_members hn]
  have hview := congrArg (fun slots => ({ c.view with slots } : View)) hslots
  exact congrArg₂ Canvas.mk hdocument hview

end Canvas

/-! ## Counting blocks -/

/-- Whether an element is a block, and not the property panel. -/
def isBlock {M H : Type} (e : Element M H) : Bool :=
  e.tag == "div" && e.attribute? "class" != some "properties"

/-- The number of blocks in some trees. -/
def blockCount {M H : Type} (l : List (Node M H)) : Nat :=
  (l.flatMap Node.selves).countP isBlock

theorem blockCount_append {M H : Type} (l m : List (Node M H)) :
    blockCount (l ++ m) = blockCount l + blockCount m := by
  simp [blockCount]

theorem blockCount_cons {M H : Type} (node : Node M H) (l : List (Node M H)) :
    blockCount (node :: l) = blockCount [node] + blockCount l :=
  blockCount_append [node] l

theorem blockCount_element {M H : Type} (self : Element M H) (children : List (Node M H)) :
    blockCount [.element self children] =
      (if isBlock self then 1 else 0) + blockCount children := by
  simp [blockCount, List.countP_cons, Nat.add_comm]

theorem blockCount_mapMark {M N H : Type} (f : M → N) (l : List (Node M H)) :
    blockCount (l.map (Node.mapMark f)) = blockCount l := by
  induction l with
  | nil => rfl
  | cons node rest ih =>
    have hnode : blockCount [node.mapMark f] = blockCount [node] := by
      simpa [blockCount] using
        Node.countP_mapMark f (p := isBlock) (q := isBlock) (fun e => rfl) node
    rw [List.map_cons, blockCount_cons, hnode, ih, ← blockCount_cons]

theorem blockCount_look {M H : Type} (l : List (Node M H)) :
    blockCount (l.map Node.look) = blockCount l := by
  induction l with
  | nil => rfl
  | cons node rest ih =>
    have hnode : blockCount [node.look] = blockCount [node] := by
      simp only [blockCount, List.flatMap_singleton, Node.selves_look, List.countP_map]
      rfl
    rw [List.map_cons, blockCount_cons, hnode, ih, ← blockCount_cons]

/-- A sketch has as many blocks as the tree that it becomes on a page. -/
theorem blockCount_entered (s : Sketch) (next : Nat) :
    blockCount [(s.number next).1.mapMark fun m => m.2] = blockCount [s] := by
  have hnumbers := blockCount_mapMark (fun m => m.2) [(s.number next).1]
  have hslots := blockCount_mapMark (fun m => m.1) [(s.number next).1]
  rw [List.map_singleton] at hnumbers hslots
  rw [hnumbers, ← hslots, Node.mapMark_number]

/-- The root of the block of a member is a block. -/
theorem isBlock_memberBlock {M : Type} {e : Element M Handler} {u : User} (htag : e.tag = "div")
    (hclass : e.attribute? "class" = some ("nested user " ++ u.id ++ "_")) : isBlock e = true := by
  have hne : "nested user " ++ u.id ++ "_" ≠ "properties" := by
    intro h
    simpa using congrArg String.toList h
  rw [isBlock, htag, hclass]
  simpa using hne

theorem isBlock_of_tag {M : Type} {e : Element M Handler} (tag : String) (htag : e.tag = tag)
    (hne : tag ≠ "div") : isBlock e = false := by
  rw [isBlock, htag, beq_eq_false_iff_ne.2 hne, Bool.false_and]

theorem blockCount_propertyRow (id : String) (property : String × Json.Value) :
    blockCount [Sketch.propertyRow id property] = 0 := by
  have hrow : isBlock (Sketch.plain "tr") = false := isBlock_of_tag "tr" rfl (by decide)
  have hkey : isBlock (Sketch.styled "td" "key") = false :=
    isBlock_of_tag "td" rfl (by decide)
  have hvalue : isBlock (Sketch.styled "td" "value") = false :=
    isBlock_of_tag "td" rfl (by decide)
  have hfield : ∀ text, isBlock (Sketch.on (((Sketch.plain "input").setAttribute "name"
      property.1).fill text) "change" (.commit id property.1)) = false := by
    intro text
    refine isBlock_of_tag "input" ?_ (by decide)
    unfold Element.fill
    split <;> rfl
  unfold Sketch.propertyRow
  simp only
  split <;> simp [blockCount, hrow, hkey, hvalue, hfield]

/-- There are no blocks in the property panel. -/
theorem blockCount_propertyPanel (e : Editor) : blockCount [Sketch.propertyPanel e] = 0 := by
  have hroot : isBlock (Sketch.styled "div" "properties") = false := by decide
  have hclose : isBlock (Sketch.on (Sketch.icon "icon/delete.png" Sketch.deleteClass
      "Close properties") "click" (.post (.editProperties e.target))) = false :=
    isBlock_of_tag "img" rfl (by decide)
  have hloading : isBlock (Sketch.styled "span" "loading") = false :=
    isBlock_of_tag "span" rfl (by decide)
  have htable : isBlock (Sketch.plain "table") = false := isBlock_of_tag "table" rfl (by decide)
  have hrows : ∀ l : List (String × Json.Value),
      blockCount (l.map (Sketch.propertyRow e.target.entity.id)) = 0 := by
    intro l
    induction l with
    | nil => rfl
    | cons property rest ih =>
      rw [List.map_cons, blockCount_cons, blockCount_propertyRow, ih]
  unfold Sketch.propertyPanel
  rw [blockCount_element, hroot, if_neg Bool.false_ne_true, blockCount_cons, blockCount_element,
    hclose, if_neg Bool.false_ne_true]
  split
  · rw [blockCount_element, hloading]
    rfl
  · rw [blockCount_element, htable, hrows]
    rfl

namespace Canvas

variable {groupId : String}

/-- The blocks of members are as many whatever their numbers are. -/
theorem blockCount_memberBlocks (groupId : String) (users : List User) (next : Nat) :
    blockCount (memberBlocks groupId users next) =
      blockCount (users.map (Sketch.memberBlock groupId)) := by
  induction users generalizing next with
  | nil => rfl
  | cons u rest ih =>
    rw [memberBlocks_cons, blockCount_cons _ (memberBlocks groupId rest _), blockCount_entered, ih,
      List.map_cons, blockCount_cons _ (rest.map _)]

/-- If any of the blocks of members are left, there are blocks among what is left. -/
theorem blockCount_pruneAmong_pos {numbers : List Nat} {users : List User} {next : Nat}
    (h : Node.pruneAmong (fun e => numbers.contains e.mark)
      (memberBlocks groupId users next) ≠ []) :
    0 < blockCount (Node.pruneAmong (fun e => numbers.contains e.mark)
      (memberBlocks groupId users next)) := by
  induction users generalizing next with
  | nil => exact absurd rfl h
  | cons u rest ih =>
    rw [memberBlocks_cons, Node.pruneAmong] at h ⊢
    split at h
    · next hroot =>
      rw [if_pos hroot]
      exact ih h
    · next hroot =>
      rw [if_neg hroot, blockCount_cons]
      refine Nat.lt_of_lt_of_le ?_ (Nat.le_add_right _ _)
      have hroot : ∃ self children, ((Sketch.memberBlock groupId u).number next).1.mapMark
          (fun m => m.2) = .element self children ∧ isBlock self = true :=
        ⟨_, _, rfl, isBlock_memberBlock rfl rfl⟩
      obtain ⟨self, children, heq, hself⟩ := hroot
      rw [heq, Node.prune, blockCount_element, if_pos hself]
      omega

end Canvas

namespace Page.Document

variable {H : Type}

/-- The number of blocks on a page. -/
def blockCount (d : Document H) : Nat := RosterPanel.blockCount d.trees

theorem trees_mapTrees (d : Document H) (f : Node Nat H → Node Nat H) :
    (d.mapTrees f).trees = d.trees.map f := by
  obtain ⟨head, body, loose, fresh⟩ := d
  cases head <;> cases body <;> rfl

/-- Adding to an element on the page adds to the number of blocks, once for each place where the
element is. -/
theorem exists_blockCount (d : Document H) (n : Nat) :
    ∃ times, (n ∈ d.trees.flatMap Node.marks → 1 ≤ times) ∧ ∀ l, (d.adjustChildren n
      (· ++ l)).blockCount = d.blockCount + times * RosterPanel.blockCount l := by
  obtain ⟨times, htimes, hcount⟩ := Node.exists_countP_appendAmong fun node (_ : node ∈ d.trees) =>
    Node.exists_countP_append isBlock (hasMark n) node
  refine ⟨times, fun hn => htimes ?_, fun l => ?_⟩
  · obtain ⟨node, hnode, hn⟩ := List.mem_flatMap.1 hn
    obtain ⟨e, he, rfl⟩ := List.mem_map.1 hn
    exact ⟨e, List.mem_flatMap.2 ⟨node, hnode, he⟩, beq_self_eq_true _⟩
  · rw [blockCount, adjustChildren, trees_mapTrees]
    exact hcount l

/-- What can be seen of a page. -/
def look (d : Document H) : Option (Node Unit Unit) × Option (Node Unit Unit) :=
  (d.head.map Node.look, d.body.map Node.look)

theorem look_eq_of_face {d d' : Document H} (h : d.face = d'.face) : d.look = d'.look := by
  have hlook : ∀ d : Document H, d.look = (d.face.1.map Node.look, d.face.2.map Node.look) := by
    intro d
    simp [look, face, Function.comp_def, Node.look_mapMark]
  rw [hlook, hlook, h]

/-- Blocks can be seen. -/
theorem blockCount_eq_of_look {d d' : Document H} (h : d.look = d'.look) :
    d.blockCount = d'.blockCount := by
  have hlook : ∀ d : Document H, d.blockCount =
      RosterPanel.blockCount (d.look.1.toList ++ d.look.2.toList) := by
    intro d
    rw [blockCount, ← blockCount_look]
    obtain ⟨head, body, loose, fresh⟩ := d
    cases head <;> cases body <;> rfl
  rw [hlook, hlook, h]

end Page.Document

end RosterPanel
