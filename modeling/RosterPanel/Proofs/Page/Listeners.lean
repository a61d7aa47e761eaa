import RosterPanel.Proofs.Page.Trees
import RosterPanel.App.Gesture

/-!
# What listeners on the page do

Listeners come onto a page with the sketches of the panel's blocks only, and all they do is to
hand on gestures. Results:

* `Page.Document.Only`: that all listeners in a document pass, kept by every operation on it.
* `Handler.Tame`: what the listeners in sketches are like.
* `Shell.tame_draw`, `Shell.tame_notify`, `Shell.tame_mount`: a page stays tame whatever is done
  on it.
-/

namespace RosterPanel

namespace Page.Document

variable {H M : Type}

/-! ## Documents -/

/-- Whether all listeners in a document, on the page or off it, do only what passes. -/
def Only (P : H → Prop) (d : Document H) : Prop := ∀ node ∈ d.trees ++ d.loose, node.Only P

variable {P : H → Prop} {d : Document H}

theorem Only.mapTrees (h : d.Only P) {f : Node Nat H → Node Nat H}
    (hf : ∀ node, node.Only P → (f node).Only P) : (d.mapTrees f).Only P := by
  intro node hnode
  obtain ⟨old, hold, rfl⟩ : ∃ old ∈ d.trees ++ d.loose, f old = node := by
    simpa [trees, Document.mapTrees, or_and_right, exists_or] using hnode
  exact hf old (h old hold)

theorem Only.find? (h : d.Only P) {n : Nat} {node : Node Nat H} (hnode : d.find? n = some node) :
    node.Only P := by
  have hmem := List.mem_of_find?_eq_some hnode
  rw [Node.elementsAmong_eq, List.mem_flatMap] at hmem
  obtain ⟨tree, htree, hmem⟩ := hmem
  exact (h tree htree).of_mem_elements hmem

theorem Only.adjustElement (h : d.Only P) (n : Nat) {f : Element Nat H → Element Nat H}
    (hf : ∀ e, (f e).listeners = e.listeners) : (d.adjustElement n f).Only P := by
  refine h.mapTrees fun node hnode => hnode.adjust fun self children hself => ?_
  rw [Node.only_element] at hself ⊢
  exact ⟨by rw [hf]; exact hself.1, hself.2⟩

theorem Only.adjustChildren (h : d.Only P) (n : Nat)
    {f : List (Node Nat H) → List (Node Nat H)}
    (hf : ∀ l : List (Node Nat H), (∀ node ∈ l, node.Only P) → ∀ node ∈ f l, node.Only P) :
    (d.adjustChildren n f).Only P := by
  refine h.mapTrees fun node hnode => hnode.adjust fun self children hself => ?_
  rw [Node.only_element] at hself ⊢
  exact ⟨hself.1, hf children hself.2⟩

theorem Only.of_loose (h : d.Only P) {l : List (Node Nat H)} (hl : ∀ node ∈ l, node.Only P) :
    ({ d with loose := d.loose ++ l } : Document H).Only P := by
  intro node hnode
  have hnode : node ∈ (d.trees ++ d.loose) ++ l := by simpa [trees] using hnode
  rcases List.mem_append.1 hnode with hnode | hnode
  · exact h node hnode
  · exact hl node hnode

theorem Only.detach (h : d.Only P) (n : Nat) : (d.detach n).Only P := by
  unfold Document.detach
  split
  · exact h
  · split
    · exact h
    · next node hnode =>
      refine (h.mapTrees fun _ htree => htree.prune).of_loose fun x hx => ?_
      rw [List.mem_singleton.1 hx]
      exact h.find? hnode

theorem Only.clear (h : d.Only P) (n : Nat) : (d.clear n).Only P := by
  unfold Document.clear
  split
  · exact h
  · next node hnode =>
    refine Only.of_loose (h.adjustChildren n fun _ _ => by simp) fun x hx => ?_
    have hx := (List.mem_filter.1 hx).1
    have hnode := h.find? hnode
    cases node with
    | text content => cases hx
    | element self children => exact ((Node.only_element self children).1 hnode).2 x hx

theorem Only.append (h : d.Only P) (n : Nat) {node : Node Nat H} (hnode : node.Only P) :
    (d.append n node).Only P := by
  refine h.adjustChildren n fun l hl x hx => ?_
  rcases List.mem_append.1 hx with hx | hx
  · exact hl x hx
  · rw [List.mem_singleton.1 hx]
    exact hnode

theorem Only.prepend (h : d.Only P) (n : Nat) {node : Node Nat H} (hnode : node.Only P) :
    (d.prepend n node).Only P := by
  refine h.adjustChildren n fun l hl x hx => ?_
  rcases List.mem_cons.1 hx with rfl | hx
  · exact hnode
  · exact hl x hx

/-- The listeners that an event can meet are listeners of the document. -/
theorem Only.path (h : d.Only P) {n : Nat} {e : Element Nat H} (he : e ∈ d.path n) :
    ∀ l ∈ e.listeners, P l.handler := by
  obtain ⟨node, hnode, he⟩ := Node.mem_selves_of_mem_pathAmong he
  intro l hl
  refine h node (List.mem_append_left _ hnode) _ (List.mem_flatMap.2 ⟨e, he, ?_⟩)
  exact List.mem_map_of_mem hl

/-- Numbering a sketch leaves the document as it is but for the numbers given out. -/
theorem Only.enter (h : d.Only P) (sketch : Node M H) : (d.enter sketch).2.Only P := h

theorem only_entered (d : Document H) {sketch : Node M H} (hsketch : sketch.Only P) :
    ((d.enter sketch).1.mapMark (·.2)).Only P := by
  intro x hx
  rw [Node.handlers_mapMark] at hx
  exact hsketch x (Node.handlers_number sketch d.fresh ▸ hx)

end Page.Document

/-! ## Sketches -/

/-- Whether a message can come from a gesture on the page. -/
def Message.IsGesture : Message → Prop
  | .requestCreateGroup | .requestCreateUser | .requestDelete _ => True
  | .assignUser _ _ | .removeUser _ _ | .editProperties _ | .updateProperty _ _ _ => True
  | _ => False

/-- Whether a listener hands on nothing but gestures. -/
def Handler.Tame : Handler → Prop
  | .post m | .control m _ => m.IsGesture
  | _ => True

namespace Sketch

/-- Whether all listeners of a sketch are tame. -/
abbrev Tame (s : Sketch) : Prop := Page.Node.Only Handler.Tame s

@[simp] theorem listeners_styled (tag className : String) : (styled tag className).listeners = [] :=
  rfl

@[simp] theorem listeners_plain (tag : String) : (plain tag).listeners = [] := rfl

@[simp] theorem listeners_on (e : Page.Element (Option Slot) Handler) (event : String)
    (h : Handler) : (on e event h).listeners = e.listeners ++ [⟨event, h⟩] := rfl

@[simp] theorem listeners_inSlot (e : Page.Element (Option Slot) Handler) (s : Slot) :
    (inSlot e s).listeners = e.listeners := rfl

@[simp] theorem listeners_icon (source className title : String) :
    (icon source className title).listeners = [] := by
  unfold icon
  split <;> rfl

end Sketch

namespace Page.Element

variable {M H : Type}

@[simp] theorem listeners_setAttribute (e : Element M H) (name value : String) :
    (e.setAttribute name value).listeners = e.listeners := rfl

@[simp] theorem listeners_removeAttribute (e : Element M H) (name : String) :
    (e.removeAttribute name).listeners = e.listeners := rfl

@[simp] theorem listeners_setClasses (e : Element M H) (names : List String) :
    (e.setClasses names).listeners = e.listeners := by
  unfold setClasses
  split <;> rfl

@[simp] theorem listeners_addClass (e : Element M H) (name : String) :
    (e.addClass name).listeners = e.listeners := listeners_setClasses _ _

@[simp] theorem listeners_removeClass (e : Element M H) (name : String) :
    (e.removeClass name).listeners = e.listeners := listeners_setClasses _ _

@[simp] theorem listeners_setDisabled (e : Element M H) (disabled : Bool) :
    (e.setDisabled disabled).listeners = e.listeners := by
  unfold setDisabled
  split
  · rw [listeners_setAttribute, listeners_addClass]
  · rw [listeners_removeAttribute, listeners_removeClass]

@[simp] theorem listeners_fill (text : String) (e : Element M H) :
    (e.fill text).listeners = e.listeners := by
  unfold fill
  split <;> rfl

@[simp] theorem mark_fill (text : String) (e : Element M H) : (e.fill text).mark = e.mark := by
  unfold fill
  split <;> rfl

end Page.Element

namespace Sketch

@[simp] theorem listeners_controlled (e : Page.Element (Option Slot) Handler) (c : Control)
    (latched : Control → Bool) (m : Message) (question : Option String) :
    (controlled e c latched m question).listeners =
      e.listeners ++ [⟨"click", .control m question⟩] := by
  unfold controlled
  split <;> simp

theorem tame_textNodes (text : String) : ∀ s ∈ textNodes text, s.Tame := by
  intro s hs
  unfold textNodes at hs
  split at hs
  · cases hs
  · rw [List.mem_singleton.1 hs]
    exact Page.Node.only_text text

theorem tame_label (source nameClass name id : String) (target : Target) :
    ∀ s ∈ label source nameClass name id target, s.Tame := by
  have hname := tame_textNodes name
  have hid := tame_textNodes (" [" ++ id ++ "]")
  intro s hs
  rcases List.mem_cons.1 hs with rfl | hs
  · simp
  rcases List.mem_cons.1 hs with rfl | hs
  · simpa [Handler.Tame, Message.IsGesture] using hname
  · rw [List.mem_singleton.1 hs]
    simpa using hid

theorem tame_groupBlock (latched : Control → Bool) (g : Group) : (groupBlock latched g).Tame := by
  refine (Page.Node.only_element _ _).2 ⟨by simp [Handler.Tame], fun s hs => ?_⟩
  rcases List.mem_append.1 hs with hs | hs
  · exact tame_label _ _ _ _ _ s hs
  · rw [List.mem_singleton.1 hs]
    simp [Handler.Tame, Message.IsGesture]

theorem tame_memberBlock (groupId : String) (u : User) : (memberBlock groupId u).Tame := by
  refine (Page.Node.only_element _ _).2 ⟨by simp, fun s hs => ?_⟩
  rcases List.mem_append.1 hs with hs | hs
  · exact tame_label _ _ _ _ _ s hs
  · rw [List.mem_singleton.1 hs]
    simp [Handler.Tame, Message.IsGesture]

theorem tame_userBlock (latched : Control → Bool) (u : User) : (userBlock latched u).Tame := by
  refine (Page.Node.only_element _ _).2 ⟨by simp [Handler.Tame], fun s hs => ?_⟩
  rcases List.mem_append.1 hs with hs | hs
  · exact tame_label _ _ _ _ _ s hs
  · rw [List.mem_singleton.1 hs]
    simp [Handler.Tame, Message.IsGesture]

theorem tame_addGroupButton (latched : Control → Bool) : (addGroupButton latched).Tame := by
  simp [addGroupButton, addButton, Handler.Tame, Message.IsGesture]

theorem tame_addUserButton (latched : Control → Bool) : (addUserButton latched).Tame := by
  simp [addUserButton, addButton, Handler.Tame, Message.IsGesture]

theorem tame_propertyRow (id : String) (property : String × Json.Value) :
    (propertyRow id property).Tame := by
  have hkey := tame_textNodes property.1
  have hvalue := tame_textNodes property.2.display
  by_cases hread : isReadOnly property.1 = true
  · simpa [propertyRow, hread, or_imp, forall_and] using ⟨hkey, hvalue⟩
  · simpa [propertyRow, hread, Handler.Tame] using hkey

theorem tame_propertyPanel (e : Editor) : (propertyPanel e).Tame := by
  refine (Page.Node.only_element _ _).2 ⟨by simp, fun s hs => ?_⟩
  rcases List.mem_cons.1 hs with rfl | hs
  · simp [Handler.Tame, Message.IsGesture]
  rw [List.mem_singleton.1 hs]
  cases e.properties with
  | none => simp
  | some properties =>
    refine (Page.Node.only_element _ _).2 ⟨by simp, fun row hrow => ?_⟩
    obtain ⟨property, -, rfl⟩ := List.mem_map.1 hrow
    exact tame_propertyRow _ property

end Sketch

/-! ## Drawing -/

namespace Canvas

/-- Whether all listeners on a canvas are tame. -/
def Tame (c : Canvas) : Prop := c.document.Only Handler.Tame

variable {c : Canvas}

theorem Tame.place (h : c.Tame) (parent : Nat) {sketch : Sketch} (hsketch : sketch.Tame) :
    (c.place parent sketch).2.Tame :=
  (Page.Document.Only.enter h sketch).append parent (c.document.only_entered hsketch)

theorem Tame.addMember (h : c.Tame) (groupId : String) (u : User) :
    (c.addMember groupId u).Tame := by
  unfold Canvas.addMember addMember?
  cases c.slot? (.group groupId) with
  | none => exact h
  | some parent =>
    have hplaced := h.place parent (Sketch.tame_memberBlock groupId u)
    rw [Option.map_some]
    -- The match takes the pair apart; it need not be computed for that.
    generalize c.place parent (Sketch.memberBlock groupId u) = placed at hplaced ⊢
    exact hplaced

theorem Tame.addMembers (h : c.Tame) (groupId : String) (users : List User) :
    (users.foldl (fun c u => c.addMember groupId u) c).Tame := by
  induction users generalizing c with
  | nil => exact h
  | cons u rest ih => exact ih (h.addMember groupId u)

theorem Tame.dropProperties (h : c.Tame) : c.dropProperties.Tame := by
  unfold Canvas.dropProperties
  split
  · exact h
  · exact Page.Document.Only.detach h _

theorem Tame.drawProperties (h : c.Tame) (p : Panel) : (c.drawProperties p).Tame := by
  have h := h.dropProperties
  simp only [Canvas.drawProperties]
  split
  · exact h
  · next e _ =>
    split
    · exact h
    · next anchor _ =>
      have hplaced := h.place anchor (Sketch.tame_propertyPanel e)
      generalize c.dropProperties.place anchor (Sketch.propertyPanel e) = placed at hplaced ⊢
      exact hplaced

theorem Tame.clear (h : c.Tame) (n : Nat) : (c.clear n).Tame := Page.Document.Only.clear h n

theorem Tame.drawGroups (h : c.Tame) (p : Panel) : (c.drawGroups p).Tame := by
  have hblocks : ∀ (groups : List Group) (c : Canvas), c.Tame →
      (groups.foldl (addGroupWithMembers p) c).Tame := by
    intro groups
    induction groups with
    | nil => exact fun _ h => h
    | cons g rest ih =>
      exact fun _ h => ih _ ((h.place _ (Sketch.tame_groupBlock _ g)).addMembers _ _)
  have hblocks := hblocks p.groups ((c.clear c.view.groups).forget Slot.inGroups) (h.clear _)
  refine Tame.drawProperties ?_ p
  split
  · exact hblocks
  · exact hblocks.place _ (Sketch.tame_addGroupButton _)

theorem Tame.drawUsers (h : c.Tame) (p : Panel) : (c.drawUsers p).Tame := by
  have hblocks : ∀ (users : List User) (c : Canvas), c.Tame →
      (users.foldl (fun c u => (c.addUser p.latches.isLatched u).2) c).Tame := by
    intro users
    induction users with
    | nil => exact fun _ h => h
    | cons u rest ih => exact fun _ h => ih _ (h.place _ (Sketch.tame_userBlock _ u))
  have hblocks := hblocks p.users ((c.clear c.view.users).forget Slot.inUsers) (h.clear _)
  refine Tame.drawProperties ?_ p
  split
  · exact hblocks
  · exact hblocks.place _ (Sketch.tame_addUserButton _)

theorem Tame.drawMembers (h : c.Tame) (p : Panel) (groupId : String) :
    (c.drawMembers p groupId).Tame := by
  have hdetach : ∀ (removed : List Nat) (d : Page.Document Handler), d.Only Handler.Tame →
      (removed.foldl Page.Document.detach d).Only Handler.Tame := by
    intro removed
    induction removed with
    | nil => exact fun _ h => h
    | cons n rest ih => exact fun _ h => ih _ (h.detach n)
  unfold Canvas.drawMembers
  split
  · exact h
  · refine Tame.drawProperties (Tame.addMembers ?_ _ _) p
    exact hdetach _ _ h

theorem Tame.draw (h : c.Tame) (p : Panel) (part : Drawing) : (c.draw p part).Tame := by
  cases part with
  | groups => exact h.drawGroups p
  | users => exact h.drawUsers p
  | members groupId => exact h.drawMembers p groupId
  | properties => exact h.drawProperties p
  | control control disabled =>
    show (c.drawControl control disabled).Tame
    unfold drawControl
    split
    · exact h
    · exact Page.Document.Only.adjustElement h _ fun e => e.listeners_setDisabled disabled

end Canvas

/-! ## The frame of the page, and notices -/

namespace Layout

open Page (Document)

variable {d d' : Document Handler}

theorem tame_put (h : d.Only Handler.Tame) (parent : Nat) {s : Sketch} (hs : s.Tame) :
    (put d parent s).2.Only Handler.Tame :=
  (Document.Only.enter h s).append parent (d.only_entered hs)

theorem tame_ensureStyles (h : d.Only Handler.Tame) {id : String} {rules : List StyleRule}
    (hd' : ensureStyles? d id rules = some d') : d'.Only Handler.Tame := by
  unfold ensureStyles? at hd'
  split at hd'
  · exact Option.some.inj hd' ▸ h
  · obtain ⟨parent, -, rfl⟩ := Option.map_eq_some_iff.1 hd'
    exact tame_put h parent (by simp)

theorem tame_ensureMain (h : d.Only Handler.Tame) {main : Nat}
    (hd' : ensureMain? d = some (main, d')) : d'.Only Handler.Tame := by
  unfold ensureMain? at hd'
  split at hd'
  · cases hd'
    exact h
  · obtain ⟨parent, -, heq⟩ := Option.map_eq_some_iff.1 hd'
    have htame := tame_put h parent (s := mainArea) (by simp [mainArea])
    rw [heq] at htame
    exact htame

theorem tame_ensureContainer (h : d.Only Handler.Tame) (main : Nat) (id : String) :
    (ensureContainer d main id).2.Only Handler.Tame := by
  unfold ensureContainer
  split
  · exact h
  · exact tame_put h main (by simp)

theorem tame_mount (h : d.Only Handler.Tame) : (mount d).2.Only Handler.Tame := by
  unfold mount
  split
  · exact h
  · next d₁ hstyles =>
    have h₁ := tame_ensureStyles h hstyles
    split
    · exact h₁
    · next main d₂ hmain =>
      have h₂ := tame_ensureMain h₁ hmain
      exact tame_ensureContainer (tame_ensureContainer h₂ main "groups") main "users"

end Layout

theorem Notice.tame_display {d : Page.Document Handler} (h : d.Only Handler.Tame)
    (kind : NoticeKind) (text : String) (b : Browser) :
    (Notice.display kind text d b).1.Only Handler.Tame := by
  have hsketch : (Notice.sketch kind text).Tame :=
    (Page.Node.only_element _ _).2 ⟨by simp, Sketch.tame_textNodes text⟩
  unfold Notice.display
  split
  · split
    · exact h
    · next d₁ hstyles =>
      have h₁ := Layout.tame_ensureStyles h hstyles
      split
      · exact h₁
      · next root d₂ hroot =>
        have h₂ : d₂.Only Handler.Tame := by
          unfold ensureRoot? at hroot
          split at hroot
          · cases hroot
            exact h₁
          · obtain ⟨parent, -, heq⟩ := Option.map_eq_some_iff.1 hroot
            have htame := Layout.tame_put h₁ parent (s := .element
              ((Sketch.styled "div" rootId).setAttribute "id" rootId) []) (by simp)
            rw [heq] at htame
            exact htame
        have hshown := Page.Document.Only.prepend (h₂.enter (Notice.sketch kind text)) root
          (d₂.only_entered hsketch)
        simp only
        split <;> exact hshown
  · exact h

namespace Shell

/-- Whether all listeners in the document of a shell are tame. -/
def Tame (s : Shell) : Prop := s.document.Only Handler.Tame

variable {s : Shell}

theorem tame_draw (h : s.Tame) (p : Panel) (part : Drawing) : (s.draw p part).Tame := by
  unfold draw
  split
  · split
    · exact h
    · next view _ => exact Canvas.Tame.draw (c := { document := s.document, view }) h p part
  · exact h

theorem tame_notify (h : s.Tame) (kind : NoticeKind) (text : String) :
    (s.notify kind text).Tame :=
  Notice.tame_display h kind text s.browser

theorem tame_mount (h : s.Tame) : s.mount.2.Tame := by
  have hmount := Layout.tame_mount h
  unfold mount
  split
  · split
    · next heq => rw [heq] at hmount; exact hmount
    · next heq => rw [heq] at hmount; exact hmount
  · exact h

end Shell

end RosterPanel
