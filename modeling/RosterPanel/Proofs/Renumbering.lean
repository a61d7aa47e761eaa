import RosterPanel.Proofs.Placing

/-!
# Canvases under other numbers

What is drawn does not depend on the numbers that elements get: a canvas under other numbers is
drawn on as the canvas itself, under these numbers. Results:

* `Canvas.Orderly`: that no number occurs twice, and that all numbers that are remembered have been
  given out, which every step of drawing keeps.
* `Canvas.renamed_putAll`, `Canvas.renamed_mounted`: drawing commutes with changing the numbers.
* `Canvas.Orderly.ahead_eq`: skipping numbers that have not been given out changes no others.
-/

namespace RosterPanel

open Page (Document Element Node)
open Page.Document (hasMark)

/-! ## Other numbers -/

/-- Numbers may be changed by a function that keeps them apart, and keeps the order of those that
are given out next. -/
structure Renaming (bound : Nat) (f : Nat → Nat) : Prop where
  injective : Function.Injective f
  succ : ∀ n, bound ≤ n → f (n + 1) = f n + 1

/-- Numbers with a gap before those that are given out next. -/
def moved (bound gap n : Nat) : Nat := if n < bound then n else n + gap

theorem moved_of_lt {bound gap n : Nat} (h : n < bound) : moved bound gap n = n := if_pos h

theorem moved_of_le {bound gap n : Nat} (h : bound ≤ n) : moved bound gap n = n + gap :=
  if_neg (Nat.not_lt_of_le h)

theorem renaming_moved (bound gap : Nat) : Renaming bound (moved bound gap) := by
  constructor
  · intro n m h
    unfold moved at h
    split at h <;> split at h <;> omega
  · intro n hn
    rw [moved_of_le hn, moved_of_le (Nat.le_succ_of_le hn)]
    omega

namespace SlotMap

variable {Handle Other : Type}

/-- Changes all handles. -/
def map (f : Handle → Other) (m : SlotMap Handle) : SlotMap Other :=
  ⟨m.entries.map fun e => (e.1, f e.2)⟩

theorem get?_map (f : Handle → Other) (m : SlotMap Handle) (s : Slot) :
    (m.map f).get? s = (m.get? s).map f :=
  lookup_map_snd s f m.entries

theorem map_removeWhere (f : Handle → Other) (m : SlotMap Handle) (p : Slot → Bool) :
    ((m.removeWhere p).2).map f = ((m.map f).removeWhere p).2 := by
  have hentries : ((m.removeWhere p).2.map f).entries = ((m.map f).removeWhere p).2.entries := by
    rw [map, entries_removeWhere, entries_removeWhere, map, List.filter_map]
    rfl
  exact congrArg SlotMap.mk hentries

theorem map_insert (f : Handle → Other) (m : SlotMap Handle) (s : Slot) (h : Handle) :
    (m.insert s h).2.map f = ((m.map f).insert s (f h)).2 := by
  have hrest := congrArg entries (m.map_removeWhere f (· == s))
  exact congrArg (fun rest => (⟨(s, f h) :: rest⟩ : SlotMap Other)) hrest

end SlotMap

namespace Page.Document

variable {H : Type}

/-- A document under other numbers. -/
def renamed (f : Nat → Nat) (d : Document H) : Document H :=
  { d.mapTrees (Node.mapMark f) with fresh := f d.fresh }

/-- What is on a page, whatever the numbers are. -/
def face (d : Document H) : Option (Node Unit H) × Option (Node Unit H) :=
  (d.head.map (Node.mapMark fun _ => ()), d.body.map (Node.mapMark fun _ => ()))

/-- Changing all trees so that some elements are left out. -/
theorem Sound.mapTrees {d : Document H} (h : d.Sound) {f : Node Nat H → Node Nat H}
    (hf : ∀ node, (f node).selves.Sublist node.selves) : (d.mapTrees f).Sound := by
  have hnumbers : (d.mapTrees f).numbers.Sublist d.numbers := by
    rw [numbers, all_mapTrees, List.flatMap_map]
    exact List.Sublist.flatMap_right _ fun node _ => (hf node).map _
  exact h.of_count (Nat.le_refl _) fun n => hnumbers.count_le n

theorem face_renamed (f : Nat → Nat) (d : Document H) : (d.renamed f).face = d.face := by
  simp [face, renamed, mapTrees, Function.comp_def, Node.mapMark_mapMark]

end Page.Document

/-- What is remembered, under other numbers. -/
def View.renamed (f : Nat → Nat) (v : View) : View where
  groups := f v.groups
  users := f v.users
  slots := v.slots.map f
  editor := v.editor.map f

namespace Canvas

def renamed (f : Nat → Nat) (c : Canvas) : Canvas where
  document := c.document.renamed f
  view := c.view.renamed f

variable {c : Canvas} {f : Nat → Nat} {bound : Nat}

theorem map_register (f : Nat → Nat) (slots : SlotMap Nat)
    (node : Node (Option Slot × Nat) Handler) :
    (register slots node).map f =
      register (slots.map f) (node.mapMark fun m => (m.1, f m.2)) := by
  rw [register_eq, register_eq, Node.marks_mapMark]
  induction node.marks generalizing slots with
  | nil => rfl
  | cons mark rest ih =>
    rw [List.foldl_cons, List.map_cons, List.foldl_cons, ih]
    obtain ⟨_ | x, n⟩ := mark
    · rfl
    · rw [note, SlotMap.map_insert, note]

theorem hasMark_renamed (hf : Renaming bound f) (n : Nat) (e : Element Nat Handler) :
    hasMark (f n) (e.setMark (f e.mark)) = hasMark n e := by
  rw [Bool.eq_iff_iff]
  exact beq_iff_eq.trans (hf.injective.eq_iff.trans beq_iff_eq.symm)

theorem renamed_place (hf : Renaming bound f) (hbound : bound ≤ c.document.fresh) (n : Nat)
    (s : Sketch) : (c.place n s).2.renamed f = ((c.renamed f).place (f n) s).2 := by
  have hnumber := Node.number_renamed hf.succ s hbound
  have hentered : (c.renamed f).entered s = (c.entered s).mapMark f := by
    show ((s.number (f c.document.fresh)).1).mapMark (·.2) = _
    rw [hnumber, Node.mapMark_mapMark, entered, Node.mapMark_mapMark]
    rfl
  have hadded : ∀ l : List (Node Nat Handler), (l ++ [c.entered s]).map (Node.mapMark f) =
      l.map (Node.mapMark f) ++ [(c.renamed f).entered s] := by
    intro l
    rw [List.map_append, List.map_singleton, hentered]
  have hdocument : ((c.place n s).2.renamed f).document =
      ((c.renamed f).place (f n) s).2.document := by
    show _ = Document.mapTrees { c.document.mapTrees (Node.mapMark f) with
      fresh := (s.number (f c.document.fresh)).2 } _
    rw [hnumber]
    exact Document.mapTrees_comm
      (Node.mapMark_adjust_children (hasMark_renamed hf n) hadded)
      { c.document with fresh := f (s.number c.document.fresh).2 }
  have hslots : (register c.view.slots (s.number c.document.fresh).1).map f =
      register (c.view.slots.map f) (s.number (f c.document.fresh)).1 := by
    rw [map_register, hnumber]
  exact congrArg₂ Canvas.mk hdocument
    (congrArg (fun slots => ({ c.view.renamed f with slots } : View)) hslots)

theorem container_renamed (f : Nat → Nat) (v : View) (k : EntityKind) :
    (v.renamed f).container k = f (v.container k) := by
  cases k <;> rfl

theorem anchor?_renamed (f : Nat → Nat) (v : View) (a : Anchor) :
    (v.renamed f).anchor? a = (v.anchor? a).map f := by
  cases a with
  | container k => exact congrArg some (container_renamed f v k)
  | slot s => exact v.slots.get?_map f s

theorem renamed_put (hf : Renaming bound f) (hbound : bound ≤ c.document.fresh) (x : Placement) :
    (c.put x).renamed f = (c.renamed f).put x := by
  have hanchor : (c.renamed f).view.anchor? x.anchor = (c.view.anchor? x.anchor).map f :=
    anchor?_renamed f c.view x.anchor
  cases hn : c.view.anchor? x.anchor with
  | none =>
    rw [hn] at hanchor
    rw [put_of_none hn, put_of_none hanchor]
  | some n =>
    rw [hn] at hanchor
    rw [put_of_some hn, put_of_some hanchor]
    exact renamed_place hf hbound n x.sketch

theorem renamed_putAll (hf : Renaming bound f) (hbound : bound ≤ c.document.fresh)
    (xs : List Placement) : (c.putAll xs).renamed f = (c.renamed f).putAll xs := by
  induction xs generalizing c with
  | nil => rfl
  | cons x rest ih =>
    show ((c.put x).putAll rest).renamed f = ((c.renamed f).put x).putAll rest
    rw [ih (Nat.le_trans hbound (c.fresh_le_put x)), renamed_put hf hbound]

theorem renamed_mounted (hf : Renaming bound f) (hbound : bound ≤ c.document.fresh) (p : Panel) :
    (c.mounted p).renamed f = (c.renamed f).mounted p := by
  unfold mounted
  cases p.editor with
  | none => rfl
  | some e =>
    have hslot : (c.renamed f).slot? (Slot.ofTarget e.target) =
        (c.slot? (Slot.ofTarget e.target)).map f := c.view.slots.get?_map f _
    simp only [hslot]
    cases c.slot? (Slot.ofTarget e.target) with
    | none => rfl
    | some anchor =>
      have hplaced := renamed_place hf hbound anchor (Sketch.propertyPanel e)
      exact congrArg (fun d : Canvas => ({ d with
        view := { d.view with editor := some (f c.document.fresh) } } : Canvas)) hplaced

end Canvas

/-! ## Numbers that have been given out -/

/-- All numbers that a view remembers have been given out, and no slot is remembered twice. -/
structure View.Issued (v : View) (fresh : Nat) : Prop where
  container : ∀ k, v.container k < fresh
  slots : ∀ e ∈ v.slots.entries, e.2 < fresh
  keyed : v.slots.Keyed
  editor : ∀ n ∈ v.editor.toList, n < fresh

theorem View.Issued.mono {v : View} {fresh fresh' : Nat} (h : v.Issued fresh)
    (hle : fresh ≤ fresh') : v.Issued fresh' where
  container k := Nat.lt_of_lt_of_le (h.container k) hle
  slots e he := Nat.lt_of_lt_of_le (h.slots e he) hle
  keyed := h.keyed
  editor n hn := Nat.lt_of_lt_of_le (h.editor n hn) hle

theorem View.Issued.removeWhere {v : View} {fresh : Nat} (h : v.Issued fresh) (p : Slot → Bool) :
    ({ v with slots := (v.slots.removeWhere p).2 } : View).Issued fresh where
  container k := by
    cases k with
    | group => exact h.container .group
    | user => exact h.container .user
  slots e he := by
    rw [SlotMap.entries_removeWhere] at he
    exact h.slots e (List.mem_filter.1 he).1
  keyed := h.keyed.removeWhere p
  editor := h.editor

theorem View.Issued.withEditor {v : View} {fresh : Nat} (h : v.Issued fresh) {editor : Option Nat}
    (heditor : ∀ n ∈ editor.toList, n < fresh) : ({ v with editor } : View).Issued fresh where
  container k := by
    cases k with
    | group => exact h.container .group
    | user => exact h.container .user
  slots := h.slots
  keyed := h.keyed
  editor := heditor

/-- No number occurs twice, and what is remembered has been given out. -/
structure Canvas.Orderly (c : Canvas) : Prop where
  sound : c.document.Sound
  view : c.view.Issued c.document.fresh

namespace Canvas

variable {c : Canvas}

/-- A canvas that skips some numbers. -/
def ahead (gap : Nat) (c : Canvas) : Canvas :=
  { c with document := { c.document with fresh := c.document.fresh + gap } }

/-- Skipping numbers is renaming those that are not given out yet. -/
theorem Orderly.ahead_eq (h : c.Orderly) (gap : Nat) :
    c.ahead gap = c.renamed (moved c.document.fresh gap) := by
  have htrees : c.document.mapTrees (Node.mapMark (moved c.document.fresh gap)) = c.document := by
    refine Document.mapTrees_eq_self fun tree htree => Node.mapMark_eq_self fun n hn => ?_
    exact moved_of_lt (h.sound.bound n (List.mem_flatMap.2 ⟨tree, htree, hn⟩))
  have hslots : c.view.slots.map (moved c.document.fresh gap) = c.view.slots := by
    refine congrArg SlotMap.mk (Node.map_eq_self fun e he => ?_)
    rw [moved_of_lt (h.view.slots e he)]
  have heditor : c.view.editor.map (moved c.document.fresh gap) = c.view.editor := by
    cases hn : c.view.editor with
    | none => rfl
    | some n => rw [Option.map_some, moved_of_lt (h.view.editor n (by simp [hn]))]
  have hview : c.view.renamed (moved c.document.fresh gap) = c.view := by
    have hgroups : moved c.document.fresh gap c.view.groups = c.view.groups :=
      moved_of_lt (h.view.container .group)
    have husers : moved c.document.fresh gap c.view.users = c.view.users :=
      moved_of_lt (h.view.container .user)
    rw [View.renamed, hslots, heditor, hgroups, husers]
  rw [renamed, hview, Document.renamed, htrees, moved_of_le (Nat.le_refl _)]
  rfl

/-! ## What keeps canvases orderly -/

theorem mem_foldl_note {marks : List (Option Slot × Nat)} {slots : SlotMap Nat}
    {e : Slot × Nat} (h : e ∈ (marks.foldl note slots).entries) :
    e ∈ slots.entries ∨ (some e.1, e.2) ∈ marks := by
  induction marks generalizing slots with
  | nil => exact Or.inl h
  | cons mark rest ih =>
    rcases ih h with h | h
    · obtain ⟨_ | x, n⟩ := mark
      · exact Or.inl h
      · rcases List.mem_cons.1 h with rfl | h
        · exact Or.inr List.mem_cons_self
        · rw [SlotMap.entries_removeWhere] at h
          exact Or.inl (List.mem_filter.1 h).1
    · exact Or.inr (List.mem_cons_of_mem _ h)

/-- What is remembered once a sketch has been put on a canvas is old, or a new number. -/
theorem mem_slots_place {n : Nat} {s : Sketch} {e : Slot × Nat}
    (h : e ∈ (c.place n s).2.view.slots.entries) :
    e ∈ c.view.slots.entries ∨ e.1 ∈ Sketch.slots [s] ∧ c.document.fresh ≤ e.2 ∧
      e.2 < (c.place n s).2.document.fresh := by
  have h : e ∈ (register c.view.slots (s.number c.document.fresh).1).entries := h
  rw [register_eq] at h
  refine (mem_foldl_note h).imp_right fun hmem => ?_
  obtain ⟨count, hfresh, hmarks⟩ := s.number_marks c.document.fresh
  have hrange : e.2 ∈ List.range' c.document.fresh count := hmarks ▸ List.mem_map_of_mem hmem
  rw [List.mem_range'_1, ← hfresh] at hrange
  rw [← slots_number s c.document.fresh]
  exact ⟨List.mem_filterMap.2 ⟨_, hmem, rfl⟩, hrange⟩

namespace Orderly

theorem place (h : c.Orderly) (n : Nat) (s : Sketch) : (c.place n s).2.Orderly := by
  have hfresh : c.document.fresh ≤ (c.place n s).2.document.fresh := Node.le_number s _
  have hold := h.view.mono hfresh
  refine ⟨sound_place h.sound n s, fun k => ?_, fun e he => ?_, ?_, hold.editor⟩
  · have hsame : (c.place n s).2.view.container k = c.view.container k := by
      cases k <;> rfl
    exact hsame ▸ hold.container k
  · rcases mem_slots_place he with he | ⟨-, -, hlt⟩
    · exact hold.slots e he
    · exact hlt
  · show (register c.view.slots _).Keyed
    rw [register_eq]
    exact keyed_foldl_note h.view.keyed _

theorem put (h : c.Orderly) (x : Placement) : (c.put x).Orderly := by
  unfold Canvas.put
  split
  · exact h
  · exact h.place _ _

theorem putAll (h : c.Orderly) (xs : List Placement) : (c.putAll xs).Orderly := by
  induction xs generalizing c with
  | nil => exact h
  | cons x rest ih => exact ih (h.put x)

theorem page (h : c.Orderly) : c.page.Orderly := by
  have hnumbers : c.page.document.numbers.Sublist c.document.numbers :=
    ((List.Sublist.refl c.document.trees).append (List.nil_sublist c.document.loose)).flatMap
      Node.marks
  exact ⟨h.sound.of_count (Nat.le_refl _) fun n => hnumbers.count_le n, h.view⟩

/-- Taking elements out. -/
theorem mapTrees (h : c.Orderly) {f : Node Nat Handler → Node Nat Handler}
    (hf : ∀ node, (f node).selves.Sublist node.selves) : (c.mapTrees f).Orderly :=
  ⟨h.sound.mapTrees hf, h.view⟩

theorem forget (h : c.Orderly) (p : Slot → Bool) : (c.forget p).Orderly :=
  ⟨h.sound, h.view.removeWhere p⟩

theorem emptied (h : c.Orderly) (k : EntityKind) : (c.emptied k).Orderly :=
  (h.mapTrees (Node.selves_clear_sublist _)).forget _

theorem stripped (h : c.Orderly) (groupId : String) : (c.stripped groupId).Orderly :=
  (h.mapTrees (Node.selves_prune_sublist _)).forget _

theorem unmount (h : c.Orderly) : c.unmount.Orderly :=
  ⟨h.sound.mapTrees (Node.selves_prune_sublist _), h.view.withEditor fun _ hn => by cases hn⟩

theorem clear (h : c.Orderly) (n : Nat) : (c.clear n).Orderly := by
  refine ⟨h.sound.clear n, ?_⟩
  rw [Canvas.clear, Document.fresh_clear]
  exact h.view

theorem dropMembers (h : c.Orderly) (groupId : String) : (c.dropMembers groupId).Orderly := by
  have hfresh : (c.dropMembers groupId).document.fresh = c.document.fresh := by
    show ((c.memberNumbers groupId).foldl Document.detach c.document).fresh = _
    generalize c.memberNumbers groupId = numbers
    generalize c.document = d
    induction numbers generalizing d with
    | nil => rfl
    | cons n rest ih => rw [List.foldl_cons, ih, Document.fresh_detach]
  refine ⟨sound_dropMembers h.sound groupId, ?_⟩
  rw [hfresh]
  exact h.view.removeWhere _

theorem dropProperties (h : c.Orderly) : c.dropProperties.Orderly := by
  refine ⟨sound_dropProperties h.sound, ?_⟩
  unfold Canvas.dropProperties
  split
  · exact h.view
  · simp only [Document.fresh_detach]
    exact h.view.withEditor fun _ hn => by cases hn

theorem mounted (h : c.Orderly) (p : Panel) : (c.mounted p).Orderly := by
  unfold Canvas.mounted
  cases p.editor with
  | none => exact h
  | some e =>
    simp only
    split
    · exact h
    · next anchor _ =>
      have hplaced := h.place anchor (Sketch.propertyPanel e)
      refine ⟨hplaced.sound, hplaced.view.withEditor fun n hn => ?_⟩
      obtain rfl := List.mem_singleton.1 hn
      show c.document.fresh < (c.document.enter (Sketch.propertyPanel e)).2.fresh
      exact lt_fresh_enter _ _ _

theorem drawProperties (h : c.Orderly) (p : Panel) : (c.drawProperties p).Orderly :=
  h.dropProperties.mounted p

theorem drawArea (h : c.Orderly) (p : Panel) (k : EntityKind) : (c.drawArea p k).Orderly :=
  (((h.clear _).forget _).putAll _).drawProperties p

theorem drawMembers (h : c.Orderly) (p : Panel) (groupId : String) :
    (c.drawMembers p groupId).Orderly := by
  rw [drawMembers_eq]
  split
  · exact h
  · exact ((h.dropMembers groupId).putAll _).drawProperties p

/-- Changing an element, its children aside. -/
theorem adjustElement (h : c.Orderly) (n : Nat) {f : Element Nat Handler → Element Nat Handler}
    (hf : ∀ e, (f e).mark = e.mark) :
    ({ c with document := c.document.adjustElement n f } : Canvas).Orderly :=
  ⟨h.sound.adjustElement n hf, h.view⟩

theorem drawControl (h : c.Orderly) (control : Control) (disabled : Bool) :
    (c.drawControl control disabled).Orderly := by
  unfold Canvas.drawControl
  split
  · exact h
  · refine h.adjustElement _ fun e => ?_
    obtain ⟨attributes, heq⟩ := e.exists_setDisabled disabled
    rw [heq]

/-- Drawing keeps a canvas orderly. -/
theorem draw (h : c.Orderly) (p : Panel) (part : Drawing) : (c.draw p part).Orderly := by
  cases part with
  | groups =>
    show (c.drawGroups p).Orderly
    rw [drawGroups_eq]
    exact h.drawArea p .group
  | users =>
    show (c.drawUsers p).Orderly
    rw [drawUsers_eq]
    exact h.drawArea p .user
  | members groupId => exact h.drawMembers p groupId
  | properties => exact h.drawProperties p
  | control control disabled => exact h.drawControl control disabled

end Orderly

end Canvas

end RosterPanel
