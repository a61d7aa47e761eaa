import RosterPanel.Proofs.Page.Renaming
import RosterPanel.Proofs.Scene
import RosterPanel.Proofs.Slots

/-!
# Drawing as a list of placements

Drawing a part takes something off the page, puts sketches on it one after the other, and mounts
the property panel anew. Here this is said of the page alone, without what becomes of the trees
that are off it. Results:

* `Canvas.putAll`: sketches are put on a canvas, each into a container or below a block.
* `Canvas.page_drawGroups`, `Canvas.page_drawUsers`, `Canvas.page_drawMembers`,
  `Canvas.page_drawProperties`: what drawing a part does to the page.
* `Canvas.unmount_putAll`: it does not matter when the old property panel is taken off.
-/

namespace RosterPanel

open Page (Document Element Node)
open Page.Document (hasMark)

namespace Page.Document

variable {H : Type}

theorem mapTrees_mapTrees (d : Document H) (f g : Node Nat H → Node Nat H) :
    (d.mapTrees f).mapTrees g = d.mapTrees fun node => g (f node) := by
  simp [mapTrees, Function.comp_def]

theorem mapTrees_congr {f g : Node Nat H → Node Nat H} (h : ∀ node, f node = g node)
    (d : Document H) : d.mapTrees f = d.mapTrees g :=
  congrArg d.mapTrees (funext h)

/-- Changing all trees twice, in another way. -/
theorem mapTrees_comm {f f' g g' : Node Nat H → Node Nat H}
    (h : ∀ node, g (f node) = f' (g' node)) (d : Document H) :
    (d.mapTrees f).mapTrees g = (d.mapTrees g').mapTrees f' := by
  rw [mapTrees_mapTrees, mapTrees_mapTrees, mapTrees_congr h]

/-- A document without what is off the page. -/
def page (d : Document H) : Document H := { d with loose := [] }

theorem SamePage.page_eq {d d' : Document H} (h : d.SamePage d') (hfresh : d.fresh = d'.fresh) :
    d.page = d'.page := by
  obtain ⟨head, body, loose, fresh⟩ := d
  obtain ⟨head', body', loose', fresh'⟩ := d'
  obtain ⟨hhead, hbody⟩ := h
  simp only [page] at hhead hbody hfresh ⊢
  rw [hhead, hbody, hfresh]

@[simp] theorem fresh_clear (d : Document H) (n : Nat) : (d.clear n).fresh = d.fresh := by
  unfold clear
  split <;> rfl

@[simp] theorem fresh_detach (d : Document H) (n : Nat) : (d.detach n).fresh = d.fresh := by
  unfold detach
  split
  · rfl
  · split <;> rfl

end Page.Document

/-- Where a sketch goes: into a container, or below what is remembered under a slot. -/
inductive Anchor
  | container (k : EntityKind)
  | slot (s : Slot)

/-- The number of the element that a sketch goes into. -/
def View.anchor? (v : View) : Anchor → Option Nat
  | .container k => some (v.container k)
  | .slot s => v.slots.get? s

/-- A sketch, and where it goes. -/
structure Placement where
  anchor : Anchor
  sketch : Sketch

/-- The blocks of members go below the block of their group. -/
def Placement.member (groupId : String) (u : User) : Placement :=
  ⟨.slot (.group groupId), Sketch.memberBlock groupId u⟩

namespace Panel

def memberPlacements (p : Panel) (groupId : String) : List Placement :=
  (p.membersOf groupId).map (Placement.member groupId)

def groupPlacements (p : Panel) : List Placement :=
  p.groups.flatMap (fun g =>
      ⟨.container .group, Sketch.groupBlock p.latches.isLatched g⟩ :: p.memberPlacements g.id) ++
    if p.groups.isEmpty then []
    else [⟨.container .group, Sketch.addGroupButton p.latches.isLatched⟩]

def userPlacements (p : Panel) : List Placement :=
  p.users.map (fun u => ⟨.container .user, Sketch.userBlock p.latches.isLatched u⟩) ++
    if p.users.isEmpty then []
    else [⟨.container .user, Sketch.addUserButton p.latches.isLatched⟩]

/-- What is drawn into the container for entities of a kind. -/
def areaPlacements (p : Panel) : EntityKind → List Placement
  | .group => p.groupPlacements
  | .user => p.userPlacements

end Panel

namespace Canvas

/-! ## Steps -/

/-- Puts a sketch where it goes, if that is on record. -/
def put (c : Canvas) (x : Placement) : Canvas :=
  match c.view.anchor? x.anchor with
  | none => c
  | some n => (c.place n x.sketch).2

def putAll (c : Canvas) (xs : List Placement) : Canvas := xs.foldl put c

/-- Changes all trees. -/
def mapTrees (f : Node Nat Handler → Node Nat Handler) (c : Canvas) : Canvas :=
  { c with document := c.document.mapTrees f }

/-- Takes the elements with some numbers out of all trees. -/
def cut (c : Canvas) (numbers : List Nat) : Canvas :=
  c.mapTrees (Node.prune fun e => numbers.contains e.mark)

/-- Takes the children off a container, and forgets what was in it. -/
def emptied (k : EntityKind) (c : Canvas) : Canvas :=
  (c.mapTrees (Node.adjust (hasMark (c.view.container k)) fun self _ => .element self [])).forget
    (Slot.within k)

/-- The numbers that are remembered for the members of a group. -/
def memberNumbers (groupId : String) (c : Canvas) : List Nat :=
  (c.view.slots.removeMembersOf groupId).1

/-- Takes out the members of a group that are remembered, and forgets them. -/
def stripped (groupId : String) (c : Canvas) : Canvas :=
  (c.cut (c.memberNumbers groupId)).forget (Slot.isMemberOf groupId)

/-- Takes out the property panel. -/
def unmount (c : Canvas) : Canvas :=
  { c.cut c.view.editor.toList with view := { c.view with editor := none } }

/-- Mounts the property panel under its block, as far as there is one. -/
def mounted (p : Panel) (c : Canvas) : Canvas :=
  match p.editor with
  | none => c
  | some e =>
    match c.slot? (Slot.ofTarget e.target) with
    | none => c
    | some anchor =>
      let (n, c) := c.place anchor (Sketch.propertyPanel e)
      { c with view := { c.view with editor := some n } }

/-- A canvas without what is off the page. -/
def page (c : Canvas) : Canvas := { c with document := c.document.page }

variable {c : Canvas}

theorem put_of_some {x : Placement} {n : Nat} (h : c.view.anchor? x.anchor = some n) :
    c.put x = (c.place n x.sketch).2 := by
  rw [put, h]

theorem put_of_none {x : Placement} (h : c.view.anchor? x.anchor = none) : c.put x = c := by
  rw [put, h]

/-! ## The parts of a drawing -/

theorem addMember_eq_put (c : Canvas) (groupId : String) (u : User) :
    c.addMember groupId u = c.put (.member groupId u) := by
  unfold addMember addMember?
  cases hn : c.slot? (.group groupId) with
  | none =>
    have hput : c.put (.member groupId u) = c := put_of_none hn
    exact hput.symm
  | some n =>
    have hput : c.put (.member groupId u) = (c.place n (Sketch.memberBlock groupId u)).2 :=
      put_of_some hn
    exact hput.symm

theorem addMembers_eq_putAll (c : Canvas) (groupId : String) (users : List User) :
    users.foldl (fun c u => c.addMember groupId u) c =
      c.putAll (users.map (Placement.member groupId)) := by
  rw [putAll, List.foldl_map]
  exact congrArg (fun f => users.foldl f c)
    (funext fun c => funext fun u => c.addMember_eq_put groupId u)

theorem putAll_append (c : Canvas) (xs ys : List Placement) :
    c.putAll (xs ++ ys) = (c.putAll xs).putAll ys :=
  List.foldl_append

theorem addGroups_eq_putAll (p : Panel) (c : Canvas) (groups : List Group) :
    groups.foldl (addGroupWithMembers p) c = c.putAll (groups.flatMap fun g =>
      ⟨.container .group, Sketch.groupBlock p.latches.isLatched g⟩ ::
        p.memberPlacements g.id) := by
  induction groups generalizing c with
  | nil => rfl
  | cons g rest ih =>
    rw [List.foldl_cons, ih, List.flatMap_cons, putAll_append]
    congr 1
    exact addMembers_eq_putAll _ g.id _

theorem addUsers_eq_putAll (c : Canvas) (latched : Control → Bool) (users : List User) :
    users.foldl (fun c u => (c.addUser latched u).2) c =
      c.putAll (users.map fun u => ⟨.container .user, Sketch.userBlock latched u⟩) := by
  rw [putAll, List.foldl_map]
  rfl

/-- Drawing what is in a container. -/
def drawArea (p : Panel) (k : EntityKind) (c : Canvas) : Canvas :=
  (((c.clear (c.view.container k)).forget (Slot.within k)).putAll
    (p.areaPlacements k)).drawProperties p

theorem drawProperties_eq (p : Panel) (c : Canvas) :
    c.drawProperties p = c.dropProperties.mounted p := rfl

theorem drawGroups_eq (p : Panel) (c : Canvas) : c.drawGroups p = c.drawArea p .group := by
  unfold drawGroups drawArea Panel.areaPlacements Panel.groupPlacements
  simp only [addGroups_eq_putAll, putAll_append]
  split <;> rfl

theorem drawUsers_eq (p : Panel) (c : Canvas) : c.drawUsers p = c.drawArea p .user := by
  unfold drawUsers drawArea Panel.areaPlacements Panel.userPlacements
  simp only [addUsers_eq_putAll, putAll_append]
  split <;> rfl

/-- Takes the blocks of members that are remembered off the page, and forgets them. -/
def dropMembers (groupId : String) (c : Canvas) : Canvas :=
  let document := (c.memberNumbers groupId).foldl Document.detach c.document
  ({ c with document } : Canvas).forget (Slot.isMemberOf groupId)

theorem drawMembers_eq (p : Panel) (groupId : String) (c : Canvas) :
    c.drawMembers p groupId =
      if (c.slot? (.group groupId)).isNone then c
      else ((c.dropMembers groupId).putAll (p.memberPlacements groupId)).drawProperties p := by
  unfold drawMembers
  simp only [addMembers_eq_putAll]
  rfl

/-! ## The page -/

theorem page_place (c : Canvas) (n : Nat) (s : Sketch) :
    (c.place n s).2.page = (c.page.place n s).2 := rfl

theorem page_put (c : Canvas) (x : Placement) : (c.put x).page = c.page.put x := by
  cases hn : c.view.anchor? x.anchor with
  | none => rw [put_of_none hn, put_of_none (c := c.page) hn]
  | some n => rw [put_of_some hn, put_of_some (c := c.page) hn, page_place]

theorem page_putAll (c : Canvas) (xs : List Placement) :
    (c.putAll xs).page = c.page.putAll xs := by
  induction xs generalizing c with
  | nil => rfl
  | cons x rest ih =>
    show ((c.put x).putAll rest).page = (c.page.put x).putAll rest
    rw [ih, page_put]

theorem page_mounted (p : Panel) (c : Canvas) : (c.mounted p).page = c.page.mounted p := by
  unfold mounted
  cases p.editor with
  | none => rfl
  | some e =>
    show Canvas.page (match c.slot? (Slot.ofTarget e.target) with
      | none => c
      | some anchor => _) = match c.slot? (Slot.ofTarget e.target) with
      | none => c.page
      | some anchor => _
    cases c.slot? (Slot.ofTarget e.target) <;> rfl

theorem page_clear (c : Canvas) (k : EntityKind) :
    ((c.clear (c.view.container k)).forget (Slot.within k)).page = c.page.emptied k := by
  have hpage := (c.document.samePage_clear (c.view.container k)).page_eq (by simp; rfl)
  show ({ document := (c.document.clear (c.view.container k)).page, view := _ } : Canvas) = _
  rw [hpage]
  rfl

theorem page_detach (h : c.document.Sound) (n : Nat) :
    ({ c with document := c.document.detach n } : Canvas).page = c.page.cut [n] := by
  have hpage := (h.samePage_detach n).page_eq (by simp; rfl)
  show ({ document := (c.document.detach n).page, view := c.view } : Canvas) = _
  rw [hpage]
  unfold cut
  simp only [List.contains_cons, List.contains_nil, Bool.or_false]
  rfl

theorem cut_cut (c : Canvas) (numbers more : List Nat) :
    (c.cut numbers).cut more = c.cut (numbers ++ more) := by
  unfold cut mapTrees
  rw [Document.mapTrees_mapTrees, Document.mapTrees_congr fun node => Node.prune_prune _ _ node]
  simp only [List.contains_append]

theorem cut_nil (c : Canvas) : c.cut [] = c := by
  have htrees : c.document.mapTrees (Node.prune fun e => ([] : List Nat).contains e.mark) =
      c.document := Document.mapTrees_eq_self fun tree _ => Node.prune_eq_self fun e _ => rfl
  rw [cut, mapTrees, htrees]

theorem page_detachAll (h : c.document.Sound) (numbers : List Nat) :
    ({ c with document := numbers.foldl Document.detach c.document } : Canvas).page =
      c.page.cut numbers := by
  induction numbers generalizing c with
  | nil => rw [cut_nil]; rfl
  | cons n rest ih =>
    have hrest := ih (c := { c with document := c.document.detach n }) (h.detach n)
    rw [page_detach h, cut_cut] at hrest
    exact hrest

theorem page_dropMembers (h : c.document.Sound) (groupId : String) :
    (c.dropMembers groupId).page = c.page.stripped groupId :=
  congrArg (forget · (Slot.isMemberOf groupId)) (page_detachAll h (c.memberNumbers groupId))

theorem unmount_of_none (h : c.view.editor = none) : c.unmount = c := by
  have hcut := c.cut_nil
  unfold unmount
  rw [h, Option.toList_none, hcut, ← h]

theorem page_dropProperties (h : c.document.Sound) : c.dropProperties.page = c.page.unmount := by
  cases heditor : c.view.editor with
  | none =>
    have hpage : c.page.view.editor = none := heditor
    rw [dropProperties, heditor, unmount_of_none hpage]
  | some n =>
    have hpage : c.page.view.editor = some n := heditor
    rw [dropProperties, heditor, unmount, hpage]
    exact congrArg (fun d : Canvas => ({ d with view := _ } : Canvas)) (page_detach h n)

/-! ## No number occurs twice -/

theorem sound_place (h : c.document.Sound) (n : Nat) (s : Sketch) :
    (c.place n s).2.document.Sound := h.append_entered s n

theorem sound_put (h : c.document.Sound) (x : Placement) : (c.put x).document.Sound := by
  unfold put
  split
  · exact h
  · exact sound_place h _ _

theorem sound_putAll (h : c.document.Sound) (xs : List Placement) :
    (c.putAll xs).document.Sound := by
  induction xs generalizing c with
  | nil => exact h
  | cons x rest ih => exact ih (sound_put h x)

theorem sound_dropMembers (h : c.document.Sound) (groupId : String) :
    (c.dropMembers groupId).document.Sound := by
  show ((c.memberNumbers groupId).foldl Document.detach c.document).Sound
  generalize c.memberNumbers groupId = numbers
  generalize c.document = d at h
  induction numbers generalizing d with
  | nil => exact h
  | cons n rest ih => exact ih _ (h.detach n)

theorem sound_dropProperties (h : c.document.Sound) : c.dropProperties.document.Sound := by
  unfold dropProperties
  split
  · exact h
  · exact h.detach _

/-! ## What drawing does to the page -/

theorem page_drawProperties (h : c.document.Sound) (p : Panel) :
    (c.drawProperties p).page = c.page.unmount.mounted p := by
  rw [drawProperties_eq, page_mounted, page_dropProperties h]

theorem page_drawArea (h : c.document.Sound) (p : Panel) (k : EntityKind) :
    (c.drawArea p k).page =
      ((c.page.emptied k).putAll (p.areaPlacements k)).unmount.mounted p := by
  have hcleared : ((c.clear (c.view.container k)).forget (Slot.within k)).document.Sound :=
    h.clear _
  rw [drawArea, page_drawProperties (sound_putAll hcleared _), page_putAll, page_clear]

theorem page_drawMembers (h : c.document.Sound) (p : Panel) (groupId : String)
    {n : Nat} (hn : c.slot? (.group groupId) = some n) :
    (c.drawMembers p groupId).page =
      ((c.page.stripped groupId).putAll (p.memberPlacements groupId)).unmount.mounted p := by
  rw [drawMembers_eq, if_neg (by simp [hn]),
    page_drawProperties (sound_putAll (sound_dropMembers h groupId) _), page_putAll,
    page_dropMembers h]

/-! ## The old property panel -/

/-- The numbers in a sketch that is put on a canvas are new. -/
theorem le_of_mem_entered {s : Sketch} {m : Nat} (hm : m ∈ (c.entered s).marks) :
    c.document.fresh ≤ m := by
  obtain ⟨count, -, hmarks⟩ := c.document.entered_marks s
  have hm : m ∈ List.range' c.document.fresh count := hmarks ▸ hm
  exact (List.mem_range'_1.1 hm).1

theorem hasMark_entered_of_lt {n : Nat} (h : n < c.document.fresh) (s : Sketch) :
    ∀ e ∈ (c.entered s).selves, hasMark n e = false := by
  intro e he
  refine beq_eq_false_iff_ne.2 ?_
  rintro rfl
  exact absurd h (Nat.not_lt_of_le (le_of_mem_entered (List.mem_map_of_mem he)))

/-- Taking out old elements, last or first. -/
theorem cut_place {numbers : List Nat} (h : ∀ n ∈ numbers, n < c.document.fresh) (m : Nat)
    (s : Sketch) : (c.place m s).2.cut numbers = ((c.cut numbers).place m s).2 := by
  have hnew : ∀ e ∈ (c.entered s).selves, numbers.contains e.mark = false := by
    intro e he
    rw [List.contains_eq_mem, decide_eq_false_iff_not]
    intro hmem
    exact absurd (h _ hmem) (Nat.not_lt_of_le (le_of_mem_entered (List.mem_map_of_mem he)))
  have hpruned : ∀ l, Node.pruneAmong (fun e => numbers.contains e.mark) (l ++ [c.entered s]) =
      Node.pruneAmong (fun e => numbers.contains e.mark) l ++ [c.entered s] := by
    intro l
    have hsame : Node.pruneAmong (fun e => numbers.contains e.mark) [c.entered s] =
        [c.entered s] := Node.pruneAmong_eq_self (by simpa using hnew)
    rw [Node.pruneAmong_append, hsame]
  let d : Document Handler := { c.document with fresh := (s.number c.document.fresh).2 }
  exact congrArg (fun d : Document Handler => ({ document := d, view := _ } : Canvas))
    (Document.mapTrees_comm (Node.prune_adjust_children hpruned) d)

theorem fresh_le_put (c : Canvas) (x : Placement) :
    c.document.fresh ≤ (c.put x).document.fresh := by
  unfold put
  split
  · exact Nat.le_refl _
  · exact Node.le_number x.sketch c.document.fresh

theorem fresh_le_putAll (c : Canvas) (xs : List Placement) :
    c.document.fresh ≤ (c.putAll xs).document.fresh := by
  induction xs generalizing c with
  | nil => exact Nat.le_refl _
  | cons x rest ih => exact Nat.le_trans (c.fresh_le_put x) (ih (c.put x))

theorem editor_put (c : Canvas) (x : Placement) : (c.put x).view.editor = c.view.editor := by
  unfold put
  split <;> rfl

theorem editor_putAll (c : Canvas) (xs : List Placement) :
    (c.putAll xs).view.editor = c.view.editor := by
  induction xs generalizing c with
  | nil => rfl
  | cons x rest ih => exact (ih (c.put x)).trans (c.editor_put x)

theorem unmount_put (h : ∀ n ∈ c.view.editor.toList, n < c.document.fresh) (x : Placement) :
    (c.put x).unmount = c.unmount.put x := by
  have hanchor : c.unmount.view.anchor? x.anchor = c.view.anchor? x.anchor := by
    cases x.anchor with
    | container k => cases k <;> rfl
    | slot s => rfl
  cases hn : c.view.anchor? x.anchor with
  | none => rw [put_of_none hn, put_of_none (hanchor.trans hn)]
  | some m =>
    rw [put_of_some hn, put_of_some (hanchor.trans hn)]
    exact congrArg (fun d : Canvas => { d with view := { d.view with editor := none } })
      (cut_place h m x.sketch)

theorem unmount_putAll (h : ∀ n ∈ c.view.editor.toList, n < c.document.fresh)
    (xs : List Placement) : (c.putAll xs).unmount = c.unmount.putAll xs := by
  induction xs generalizing c with
  | nil => rfl
  | cons x rest ih =>
    show ((c.put x).putAll rest).unmount = (c.unmount.put x).putAll rest
    rw [ih, unmount_put h]
    rw [editor_put]
    exact fun n hn => Nat.lt_of_lt_of_le (h n hn) (c.fresh_le_put x)

theorem unmount_emptied (k : EntityKind) (c : Canvas) :
    (c.emptied k).unmount = c.unmount.emptied k := by
  have htrees := Document.mapTrees_comm (Node.prune_adjust_children
    (p := hasMark (c.view.container k)) (q := fun e => c.view.editor.toList.contains e.mark)
    (g := fun _ => []) (k := fun _ => []) fun _ => rfl) c.document
  have hcontainer : c.unmount.view.container k = c.view.container k := by
    cases k <;> rfl
  rw [emptied, emptied, hcontainer]
  exact congrArg (fun d : Document Handler => ({ document := d, view := _ } : Canvas)) htrees

theorem unmount_stripped (groupId : String) (c : Canvas) :
    (c.stripped groupId).unmount = c.unmount.stripped groupId := by
  have htrees := Document.mapTrees_comm (Node.prune_comm
    (fun e : Element Nat Handler => (c.memberNumbers groupId).contains e.mark)
    fun e => c.view.editor.toList.contains e.mark) c.document
  exact congrArg (fun d : Document Handler => ({ document := d, view := _ } : Canvas)) htrees

end Canvas

end RosterPanel
