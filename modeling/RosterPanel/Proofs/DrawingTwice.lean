import Mathlib.Tactic.TFAE
import RosterPanel.Proofs.Leftovers

/-!
# Drawing the same part twice

A part is taken off the page before it is drawn, so that drawing it once more changes nothing but
the numbers of its elements. The exception is a group with two members of the same id: of the
blocks that they have had, only the last is taken off. Results:

* `Canvas.Orderly.face_drawArea_twice`, `Canvas.Orderly.face_drawProperties_twice`,
  `Canvas.Orderly.face_drawControl_twice`: drawing these parts twice is drawing them once.
* `Canvas.Orderly.face_drawMembers_twice`: so it is for members with different ids.
* `Canvas.Orderly.nodup_of_drawMembers_twice`: and only for them, if their group is on the page.
-/

namespace RosterPanel

open Page (Document Element Node)
open Page.Document (hasMark)

namespace Canvas

variable {c : Canvas} {groupId : String} {n : Nat}

/-- The numbers of the elements on a page. -/
def shown (c : Canvas) : List Nat := c.document.trees.flatMap Node.marks

theorem ahead_ahead (c : Canvas) (gap gap' : Nat) :
    (c.ahead gap).ahead gap' = c.ahead (gap + gap') :=
  congrArg (fun fresh => ({ c with document := { c.document with fresh } } : Canvas))
    (Nat.add_assoc _ _ _)

theorem emptied_ahead (c : Canvas) (gap : Nat) (k : EntityKind) :
    (c.ahead gap).emptied k = (c.emptied k).ahead gap := by
  cases k <;> rfl

theorem stripped_ahead (c : Canvas) (gap : Nat) (groupId : String) :
    (c.ahead gap).stripped groupId = (c.stripped groupId).ahead gap := rfl

/-! ## Parts that are tracked -/

namespace Orderly

theorem page_drawArea (h : c.Orderly) (p : Panel) (k : EntityKind) :
    (c.drawArea p k).page =
      ((c.page.unmount.emptied k).putAll (p.areaPlacements k)).mounted p := by
  have hemptied : ∀ n ∈ (c.page.emptied k).view.editor.toList,
      n < (c.page.emptied k).document.fresh := h.view.editor
  rw [Canvas.page_drawArea h.sound, unmount_putAll hemptied, unmount_emptied]

theorem page_drawMembers (h : c.Orderly) (p : Panel) (hn : c.slot? (.group groupId) = some n) :
    (c.drawMembers p groupId).page =
      ((c.page.unmount.stripped groupId).putAll (p.memberPlacements groupId)).mounted p := by
  have hstripped : ∀ n ∈ (c.page.stripped groupId).view.editor.toList,
      n < (c.page.stripped groupId).document.fresh := h.view.editor
  rw [Canvas.page_drawMembers h.sound p groupId hn, unmount_putAll hstripped, unmount_stripped]

/-- What is drawn on a page does not depend on which numbers have been given out. -/
theorem face_eq_of_ahead (h : c.Orderly) {gap : Nat} (xs : List Placement) {p : Panel}
    {once twice : Canvas} (honce : once.page = (c.putAll xs).mounted p)
    (htwice : twice.page = ((c.ahead gap).putAll xs).mounted p) :
    twice.document.face = once.document.face := by
  have hf := renaming_moved c.document.fresh gap
  rw [h.ahead_eq, ← renamed_putAll hf (Nat.le_refl _), ← renamed_mounted hf (fresh_le_putAll c xs),
    ← honce] at htwice
  exact (congrArg (fun d : Canvas => d.document.face) htwice).trans (Document.face_renamed _ _)

/-- Drawing the contents of a container twice. -/
theorem face_drawArea_twice (h : c.Orderly) (p : Panel) (k : EntityKind) :
    ((c.drawArea p k).drawArea p k).document.face = (c.drawArea p k).document.face := by
  have hbase : (c.page.unmount.emptied k).Orderly := h.page.unmount.emptied k
  obtain ⟨gap, hgap⟩ := (hbase.putAll (p.areaPlacements k)).unmount_mounted
    (editor_putAll _ _) p
  obtain ⟨gap', hgap'⟩ := emptied_putAll h.page.unmount (p.local_areaPlacements k)
  have htwice := (h.drawArea p k).page_drawArea p k
  rw [h.page_drawArea, hgap, emptied_ahead, hgap', ahead_ahead] at htwice
  exact hbase.face_eq_of_ahead _ (h.page_drawArea p k) htwice

/-- Drawing the property panel twice. -/
theorem face_drawProperties_twice (h : c.Orderly) (p : Panel) :
    ((c.drawProperties p).drawProperties p).document.face =
      (c.drawProperties p).document.face := by
  have hbase : c.page.unmount.Orderly := h.page.unmount
  obtain ⟨gap, hgap⟩ := hbase.unmount_mounted rfl p
  have honce := page_drawProperties h.sound p
  have htwice := page_drawProperties (h.drawProperties p).sound p
  rw [honce, hgap] at htwice
  exact hbase.face_eq_of_ahead [] honce htwice

end Orderly

/-! ## Members -/

theorem get?_foldl_note_of_slots {marks : List (Option Slot × Nat)} {p : Slot → Bool}
    (h : ∀ x ∈ marks.filterMap (·.1), p x = true) (slots : SlotMap Nat) {y : Slot}
    (hy : p y = false) : (marks.foldl note slots).get? y = slots.get? y := by
  have hrest := congrArg (·.get? y) (removeWhere_foldl_note h slots)
  simpa only [SlotMap.get?_removeWhere, hy, Bool.false_eq_true, if_false] using hrest

/-- The block of a group stays on record while members are put into it. -/
theorem slot?_putAll_members (hn : c.slot? (.group groupId) = some n) (users : List User) :
    (c.putAll (users.map (Placement.member groupId))).slot? (.group groupId) = some n := by
  rw [putAll_members hn]
  exact (get?_foldl_note_of_slots (isMemberOf_memberMarks groupId users _) _ rfl).trans hn

theorem slots_mounted (c : Canvas) (p : Panel) : (c.mounted p).view.slots = c.view.slots := by
  unfold mounted
  cases p.editor with
  | none => rfl
  | some e =>
    simp only
    split
    · rfl
    · exact register_of_slots_eq_nil (Bearing.slots_propertyPanel e) _ _

theorem slot?_stripped (c : Canvas) (groupId : String) :
    (c.stripped groupId).slot? (.group groupId) = c.slot? (.group groupId) :=
  SlotMap.get?_removeWhere c.view.slots (Slot.isMemberOf groupId) (.group groupId)

theorem isMemberOf_stripped (c : Canvas) (groupId : String) :
    ∀ e ∈ (c.stripped groupId).view.slots.entries, e.1.isMemberOf groupId = false := by
  intro e he
  have he : e ∈ (c.view.slots.removeWhere (Slot.isMemberOf groupId)).2.entries := he
  rw [SlotMap.entries_removeWhere] at he
  simpa using (List.mem_filter.1 he).2

/-- The block of a group is where it was once its members have been drawn. -/
theorem slot?_drawMembers (h : c.Orderly) (p : Panel) (groupId : String) :
    (c.drawMembers p groupId).slot? (.group groupId) = c.slot? (.group groupId) := by
  cases hn : c.slot? (.group groupId) with
  | none =>
    rw [drawMembers_eq, if_pos (by simp [hn]), hn]
  | some n =>
    have hpage := congrArg (·.slot? (.group groupId)) (h.page_drawMembers p hn)
    refine Eq.trans hpage ?_
    show (Canvas.view _).slots.get? _ = _
    rw [slots_mounted]
    exact slot?_putAll_members ((slot?_stripped c.page.unmount groupId).trans hn) _

/-- Taking members off again leaves nothing over if their ids are different, or if their group is
not there. -/
theorem Orderly.stripped_putAll_eq_ahead (h : c.Orderly) (hn : c.slot? (.group groupId) = some n)
    (hnone : ∀ e ∈ c.view.slots.entries, e.1.isMemberOf groupId = false) {users : List User}
    (hclean : n ∈ c.document.numbers → (users.map (·.id)).Nodup) :
    ∃ gap, (c.putAll (users.map (Placement.member groupId))).stripped groupId = c.ahead gap := by
  let d : Document Handler :=
    { c.document with fresh := afterMembers groupId users c.document.fresh }
  have hsame : d.adjustChildren n (· ++ c.leftover groupId users) = d := by
    by_cases hmem : n ∈ c.document.numbers
    · rw [(h.leftover_eq_nil_iff hn hnone users).2 (hclean hmem)]
      simp only [List.append_nil]
      exact Document.mapTrees_eq_self fun tree _ => Node.adjust_children_id _ tree
    · have hd : n ∉ d.numbers := hmem
      exact Document.adjust_eq_of_notMem hd _
  obtain ⟨gap, hgap, -⟩ :=
    Node.numberAll_marks (users.map (Sketch.memberBlock groupId)) c.document.fresh
  refine ⟨gap, (h.stripped_putAll hn hnone users).trans ?_⟩
  refine congrArg (fun d => (⟨d, c.view⟩ : Canvas)) (hsame.trans ?_)
  exact congrArg (fun fresh => ({ c.document with fresh } : Document Handler)) hgap

/-! ## What is on the page -/

/-- Old elements are on the page after a sketch has been put on it if they were before. -/
theorem mem_shown_place {m : Nat} (hm : m < c.document.fresh) (n : Nat) (s : Sketch) :
    m ∈ (c.place n s).2.shown ↔ m ∈ c.shown := by
  have hshown : (c.place n s).2.shown = (c.document.trees.map (Node.adjust (hasMark n)
      fun self children => .element self (children ++ [c.entered s]))).flatMap Node.marks :=
    congrArg (List.flatMap Node.marks) (Document.trees_mapTrees _ _)
  rw [hshown]
  constructor
  · intro hmem
    rw [← Scene.map_mark_selves, List.mem_map] at hmem
    obtain ⟨e, he, rfl⟩ := hmem
    have hadded : ∀ l : List (Node Nat Handler), ∀ x ∈ l ++ [c.entered s],
        x ∈ l ∨ x = c.entered s := by
      simp
    rcases Node.mem_selves_map_adjust hadded he with he | he
    · rw [shown, ← Scene.map_mark_selves]
      exact List.mem_map_of_mem he
    · exact absurd hm (Nat.not_lt_of_le (le_of_mem_entered (List.mem_map_of_mem he)))
  · intro hmem
    obtain ⟨node, hnode, hmem⟩ := List.mem_flatMap.1 hmem
    rw [List.flatMap_map]
    refine List.mem_flatMap.2 ⟨node, hnode, Node.marks_subset_adjust (fun l => ?_) node hmem⟩
    rw [List.flatMap_append]
    exact List.subset_append_left _ _

theorem mem_shown_put {m : Nat} (hm : m < c.document.fresh) (x : Placement) :
    m ∈ (c.put x).shown ↔ m ∈ c.shown := by
  unfold put
  split
  · exact Iff.rfl
  · exact mem_shown_place hm _ _

theorem mem_shown_putAll {m : Nat} (hm : m < c.document.fresh) (xs : List Placement) :
    m ∈ (c.putAll xs).shown ↔ m ∈ c.shown := by
  induction xs generalizing c with
  | nil => exact Iff.rfl
  | cons x rest ih =>
    exact (ih (Nat.lt_of_lt_of_le hm (c.fresh_le_put x))).trans (mem_shown_put hm x)

theorem mem_shown_mounted {m : Nat} (hm : m < c.document.fresh) (p : Panel) :
    m ∈ (c.mounted p).shown ↔ m ∈ c.shown := by
  unfold mounted
  cases p.editor with
  | none => exact Iff.rfl
  | some e =>
    simp only
    split
    · exact Iff.rfl
    · next anchor _ => exact mem_shown_place hm anchor (Sketch.propertyPanel e)

/-- The property panel adds no blocks. -/
theorem blockCount_mounted (c : Canvas) (p : Panel) :
    (c.mounted p).document.blockCount = c.document.blockCount := by
  unfold mounted
  cases p.editor with
  | none => rfl
  | some e =>
    simp only
    split
    · rfl
    · next anchor _ =>
      obtain ⟨times, -, hcount⟩ := c.document.exists_blockCount anchor
      have hpanel := hcount [c.entered (Sketch.propertyPanel e)]
      rw [entered, Document.enter, blockCount_entered, blockCount_propertyPanel, Nat.mul_zero,
        Nat.add_zero] at hpanel
      exact hpanel

/-- How many blocks there are once members have been put into the block of their group. -/
theorem blockCount_putAll_members (hn : c.slot? (.group groupId) = some n) {count times : Nat}
    (hcount : ∀ l, (c.document.adjustChildren n (· ++ l)).blockCount =
      count + times * RosterPanel.blockCount l) (users : List User) :
    (c.putAll (users.map (Placement.member groupId))).document.blockCount =
      count + times * RosterPanel.blockCount (users.map (Sketch.memberBlock groupId)) := by
  rw [putAll_members hn, ← blockCount_memberBlocks groupId users c.document.fresh]
  exact hcount _

/-- What is left over is still there when members are put on once more. -/
theorem blockCount_putAll_leftover (h : c.Orderly) (hn : c.slot? (.group groupId) = some n)
    (hnone : ∀ e ∈ c.view.slots.entries, e.1.isMemberOf groupId = false) {count times : Nat}
    (hcount : ∀ l, (c.document.adjustChildren n (· ++ l)).blockCount =
      count + times * RosterPanel.blockCount l) (users : List User) (gap : Nat) :
    ((((c.putAll (users.map (Placement.member groupId))).stripped groupId).ahead gap).putAll
      (users.map (Placement.member groupId))).document.blockCount =
        count + times * RosterPanel.blockCount (c.leftover groupId users) +
          times * RosterPanel.blockCount (users.map (Sketch.memberBlock groupId)) := by
  rw [h.stripped_putAll hn hnone users]
  let d : Document Handler := { c.document with
    fresh := afterMembers groupId users c.document.fresh + gap }
  have hd : ({ c with document := d.adjustChildren n (· ++ c.leftover groupId users) } :
      Canvas).slot? (.group groupId) = some n := hn
  have hmore : ∀ l, ((d.adjustChildren n (· ++ c.leftover groupId users)).adjustChildren n
      (· ++ l)).blockCount = count + times * RosterPanel.blockCount (c.leftover groupId users) +
        times * RosterPanel.blockCount l := by
    intro l
    have hboth : (d.adjustChildren n (· ++ c.leftover groupId users)).adjustChildren n (· ++ l) =
        d.adjustChildren n (· ++ (c.leftover groupId users ++ l)) := by
      unfold Document.adjustChildren
      rw [Document.mapTrees_mapTrees, Document.mapTrees_congr
        (Node.adjust_children_twice _ (· ++ c.leftover groupId users) (· ++ l))]
      simp only [List.append_assoc]
    have htotal := hcount (c.leftover groupId users ++ l)
    rw [blockCount_append, Nat.mul_add, ← Nat.add_assoc] at htotal
    rw [hboth]
    exact htotal
  exact blockCount_putAll_members hd hmore users

/-- All that is on a page without what is off it is on the page. -/
theorem numbers_base (c : Canvas) (groupId : String) :
    (c.page.unmount.stripped groupId).document.numbers =
      (c.page.unmount.stripped groupId).shown :=
  congrArg (List.flatMap Node.marks) (List.append_nil _)

namespace Orderly

theorem page_drawMembers_twice (h : c.Orderly) (p : Panel)
    (hn : c.slot? (.group groupId) = some n) :
    ∃ gap, ((c.drawMembers p groupId).drawMembers p groupId).page =
      (((((c.page.unmount.stripped groupId).putAll (p.memberPlacements groupId)).stripped
        groupId).ahead gap).putAll (p.memberPlacements groupId)).mounted p := by
  have hbase : (c.page.unmount.stripped groupId).Orderly := h.page.unmount.stripped groupId
  obtain ⟨gap, hgap⟩ := (hbase.putAll (p.memberPlacements groupId)).unmount_mounted
    (editor_putAll _ _) p
  have hslot := (slot?_drawMembers h p groupId).trans hn
  have htwice := (h.drawMembers p groupId).page_drawMembers p hslot
  rw [h.page_drawMembers p hn, hgap, stripped_ahead] at htwice
  exact ⟨gap, htwice⟩

/-- The block of a group is on the page after its members have been drawn if it was before, the
property panel and the old members aside. -/
theorem mem_shown_drawMembers (h : c.Orderly) (p : Panel)
    (hn : c.slot? (.group groupId) = some n) :
    n ∈ (c.drawMembers p groupId).shown ↔
      n ∈ (c.page.unmount.stripped groupId).shown := by
  have hlt : n < (c.page.unmount.stripped groupId).document.fresh :=
    h.view.slots _ (SlotMap.mem_of_get? hn)
  have hlt' := Nat.lt_of_lt_of_le hlt (fresh_le_putAll _ (p.memberPlacements groupId))
  have hshown := congrArg shown (h.page_drawMembers p hn)
  show n ∈ (c.drawMembers p groupId).page.shown ↔ _
  rw [hshown, mem_shown_mounted hlt', mem_shown_putAll hlt]

/-- Drawing the members of a group twice, if their ids are different or the group is not on the
page. -/
theorem face_drawMembers_twice (h : c.Orderly) (p : Panel) (groupId : String)
    (hclean : ∀ n, (c.drawMembers p groupId).slot? (.group groupId) = some n →
      n ∈ (c.drawMembers p groupId).shown → ((p.membersOf groupId).map (·.id)).Nodup) :
    ((c.drawMembers p groupId).drawMembers p groupId).document.face =
      (c.drawMembers p groupId).document.face := by
  have hslot := slot?_drawMembers h p groupId
  cases hn : c.slot? (.group groupId) with
  | none =>
    rw [drawMembers_eq p groupId (c.drawMembers p groupId), if_pos (by simp [hslot, hn])]
  | some n =>
    have hbase : (c.page.unmount.stripped groupId).Orderly := h.page.unmount.stripped groupId
    obtain ⟨gap, htwice⟩ := h.page_drawMembers_twice p hn
    obtain ⟨gap', hgap'⟩ := hbase.stripped_putAll_eq_ahead
      ((slot?_stripped c.page.unmount groupId).trans hn) (isMemberOf_stripped _ groupId)
      fun hmem => hclean n (hslot.trans hn)
        ((h.mem_shown_drawMembers p hn).2 (numbers_base c groupId ▸ hmem))
    rw [Panel.memberPlacements, hgap', ahead_ahead] at htwice
    exact hbase.face_eq_of_ahead _ (h.page_drawMembers p hn) htwice

/-- If there are as many blocks on the page after the members of a group on it have been drawn once
more, their ids are different. -/
theorem nodup_of_drawMembers_twice (h : c.Orderly) (p : Panel)
    (hslot : (c.drawMembers p groupId).slot? (.group groupId) = some n)
    (hshown : n ∈ (c.drawMembers p groupId).shown)
    (hblocks : ((c.drawMembers p groupId).drawMembers p groupId).document.blockCount =
      (c.drawMembers p groupId).document.blockCount) :
    ((p.membersOf groupId).map (·.id)).Nodup := by
  have hn : c.slot? (.group groupId) = some n := (slot?_drawMembers h p groupId).symm.trans hslot
  have hbase : (c.page.unmount.stripped groupId).Orderly := h.page.unmount.stripped groupId
  have hslot : (c.page.unmount.stripped groupId).slot? (.group groupId) = some n :=
    (slot?_stripped c.page.unmount groupId).trans hn
  have hnone := isMemberOf_stripped c.page.unmount groupId
  have hmem := (h.mem_shown_drawMembers p hn).1 hshown
  have honce := congrArg (fun d : Canvas => d.document.blockCount) (h.page_drawMembers p hn)
  obtain ⟨gap, htwice⟩ := h.page_drawMembers_twice p hn
  have htwice := congrArg (fun d : Canvas => d.document.blockCount) htwice
  simp only [blockCount_mounted] at honce htwice
  generalize c.page.unmount.stripped groupId = base at hbase hslot hnone hmem honce htwice
  obtain ⟨times, htimes, hcount⟩ := base.document.exists_blockCount n
  rw [Panel.memberPlacements, blockCount_putAll_members hslot hcount] at honce
  rw [Panel.memberPlacements, blockCount_putAll_leftover hbase hslot hnone hcount] at htwice
  refine (hbase.leftover_eq_nil_iff hslot hnone _).1 ?_
  by_contra hne
  have hlost := Nat.mul_pos (htimes hmem) (blockCount_pruneAmong_pos hne)
  have hsame := htwice.symm.trans (hblocks.trans honce)
  unfold leftover at hsame
  omega

end Orderly

/-! ## All parts -/

/-- Showing a control as latched or free twice. -/
theorem drawControl_twice (c : Canvas) (control : Control) (disabled : Bool) :
    (c.drawControl control disabled).drawControl control disabled =
      c.drawControl control disabled := by
  cases hn : c.slot? (.control control) with
  | none =>
    have hsame : c.drawControl control disabled = c := by
      unfold drawControl
      rw [hn]
    rw [hsame, hsame]
  | some n =>
    have hmark : ∀ e : Element Nat Handler, hasMark n (e.setDisabled disabled) = hasMark n e := by
      intro e
      obtain ⟨attributes, heq⟩ := e.exists_setDisabled disabled
      rw [heq]
      rfl
    have honce : ∀ d : Canvas, d.slot? (.control control) = some n →
        d.drawControl control disabled =
          { d with document := d.document.adjustElement n (·.setDisabled disabled) } := by
      intro d hd
      unfold drawControl
      rw [hd]
    have htwice : (c.document.adjustElement n (·.setDisabled disabled)).adjustElement n
        (·.setDisabled disabled) = c.document.adjustElement n (·.setDisabled disabled) := by
      unfold Document.adjustElement
      rw [Document.mapTrees_mapTrees, Document.mapTrees_congr
        (Node.adjust_element_twice hmark fun e => e.setDisabled_setDisabled disabled)]
    rw [honce c hn]
    have hagain := honce ⟨c.document.adjustElement n (·.setDisabled disabled), c.view⟩ hn
    rw [hagain, htwice]

/-- Whether the members of a group can be left over when a part is drawn once more: the part is
a group on the page, and two of its members have the same id. -/
def Clean (p : Panel) (part : Drawing) (c : Canvas) : Prop :=
  ∀ groupId n, part = .members groupId → c.slot? (.group groupId) = some n → n ∈ c.shown →
    ((p.membersOf groupId).map (·.id)).Nodup

/-- Drawing a part once more changes nothing on the page, and nothing that can be seen of it, if and
only if it is not a group on the page with two members of the same id. -/
theorem Orderly.tfae_draw_draw (h : c.Orderly) (p : Panel) (part : Drawing) :
    [((c.draw p part).draw p part).document.face = (c.draw p part).document.face,
      ((c.draw p part).draw p part).document.look = (c.draw p part).document.look,
      (c.draw p part).Clean p part].TFAE := by
  tfae_have 1 → 2 := Document.look_eq_of_face
  tfae_have 2 → 3 := by
    rintro hlook groupId n rfl hslot hshown
    exact h.nodup_of_drawMembers_twice p hslot hshown (Document.blockCount_eq_of_look hlook)
  tfae_have 3 → 1 := by
    intro hclean
    cases part with
    | groups =>
      show ((c.drawGroups p).drawGroups p).document.face = (c.drawGroups p).document.face
      rw [drawGroups_eq, drawGroups_eq]
      exact h.face_drawArea_twice p .group
    | users =>
      show ((c.drawUsers p).drawUsers p).document.face = (c.drawUsers p).document.face
      rw [drawUsers_eq, drawUsers_eq]
      exact h.face_drawArea_twice p .user
    | members groupId =>
      exact h.face_drawMembers_twice p groupId fun n => hclean groupId n rfl
    | properties => exact h.face_drawProperties_twice p
    | control control disabled =>
      exact congrArg (fun d : Canvas => d.document.face) (c.drawControl_twice control disabled)
  tfae_finish

end Canvas

end RosterPanel
