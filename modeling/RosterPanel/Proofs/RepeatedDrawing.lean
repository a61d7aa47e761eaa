import RosterPanel.Proofs.AppRun
import RosterPanel.Proofs.DrawingTwice

/-!
# Repeated drawing in a running application

Whatever happens to an application, no number occurs twice on its page, and all numbers that are
remembered have been given out. So drawing any part of the page once more changes nothing, with the
one exception of a group with two members of the same id. Results:

* `App.orderly_afterStart`: numbers are in order whatever happens.
* `App.draw_twice_tfae`: to render a part once more changes nothing if and only if it is not
  `render_members` of a group with two members of the same id; `App.look_draw_members_listedTwice`
  is such a group.
-/

namespace RosterPanel

open Page (Document Element Node)

namespace Page.Document

variable {H : Type} {d d' d'' : Document H}

/-- No number of a document occurs twice, and none that was given out before is yet to be given
out. -/
structure Grows (d d' : Document H) : Prop where
  sound : d'.Sound
  fresh : d.fresh ≤ d'.fresh

theorem Grows.trans (h : d.Grows d') (h' : d'.Grows d'') : d.Grows d'' :=
  ⟨h'.sound, Nat.le_trans h.fresh h'.fresh⟩

theorem Sound.grows (h : d.Sound) : d.Grows d := ⟨h, Nat.le_refl _⟩

theorem Sound.grows_detach (h : d.Sound) (n : Nat) : d.Grows (d.detach n) :=
  ⟨h.detach n, Nat.le_of_eq (d.fresh_detach n).symm⟩

theorem Sound.grows_adjustElement (h : d.Sound) (n : Nat) {f : Element Nat H → Element Nat H}
    (hf : ∀ e, (f e).mark = e.mark) : d.Grows (d.adjustElement n f) :=
  ⟨h.adjustElement n hf, Nat.le_refl _⟩

theorem Sound.grows_prepend {M : Type} (h : d.Sound) (n : Nat) (sketch : Node M H) :
    d.Grows ((d.enter sketch).2.prepend n ((d.enter sketch).1.mapMark (·.2))) :=
  ⟨h.prepend_entered sketch n, sketch.le_number d.fresh⟩

/-- What is found by its `id` is an element on the page. -/
theorem exists_of_byId? {id : String} {n : Nat} (h : d.byId? id = some n) :
    ∃ e ∈ d.trees.flatMap Node.selves, e.mark = n ∧ e.attribute? "id" = some id := by
  obtain ⟨node, hfind, hmark⟩ := Option.bind_eq_some_iff.1 h
  have hmem := List.mem_of_find?_eq_some hfind
  have htest := List.find?_some hfind
  cases node with
  | text content => cases hmark
  | element e inner =>
    rw [elements, Node.elementsAmong_eq] at hmem
    obtain ⟨tree, htree, hmem⟩ := List.mem_flatMap.1 hmem
    have he : e ∈ tree.selves := List.mem_filterMap.2 ⟨_, hmem, rfl⟩
    exact ⟨e, List.mem_flatMap.2 ⟨tree, htree, he⟩, Option.some.inj hmark, beq_iff_eq.1 htest⟩

theorem mem_numbers_of_byId? {id : String} {n : Nat} (h : d.byId? id = some n) : n ∈ d.numbers := by
  obtain ⟨e, he, rfl, -⟩ := exists_of_byId? h
  obtain ⟨tree, htree, he⟩ := List.mem_flatMap.1 he
  exact List.mem_flatMap.2 ⟨tree, List.mem_append_left _ htree, List.mem_map_of_mem he⟩

end Page.Document

namespace Layout

variable {d d' : Document Handler}

theorem grows_put (h : d.Sound) (parent : Nat) (s : Sketch) : d.Grows (put d parent s).2 :=
  ⟨h.append_entered s parent, Node.le_number s d.fresh⟩

theorem grows_ensureStyles (h : d.Sound) {id : String} {rules : List StyleRule}
    (hd' : ensureStyles? d id rules = some d') : d.Grows d' := by
  unfold ensureStyles? at hd'
  split at hd'
  · exact Option.some.inj hd' ▸ h.grows
  · obtain ⟨parent, -, rfl⟩ := Option.map_eq_some_iff.1 hd'
    exact grows_put h parent _

theorem grows_ensureMain (h : d.Sound) {main : Nat} (hd' : ensureMain? d = some (main, d')) :
    d.Grows d' := by
  unfold ensureMain? at hd'
  split at hd'
  · cases hd'
    exact h.grows
  · obtain ⟨parent, -, heq⟩ := Option.map_eq_some_iff.1 hd'
    have hput := grows_put h parent mainArea
    rw [heq] at hput
    exact hput

/-- A container is an element that is there. -/
theorem grows_ensureContainer (h : d.Sound) (main : Nat) (id : String) :
    d.Grows (ensureContainer d main id).2 ∧
      (ensureContainer d main id).1 < (ensureContainer d main id).2.fresh := by
  unfold ensureContainer
  split
  · next n hn => exact ⟨h.grows, h.bound n (Document.mem_numbers_of_byId? hn)⟩
  · refine ⟨grows_put h main _, ?_⟩
    show d.fresh <
      (d.enter (.element ((Sketch.styled "div" "column").setAttribute "id" id) [])).2.fresh
    exact Canvas.lt_fresh_enter d _ _

/-- Laying out a page keeps numbers in order, and what is remembered then has been given out. -/
theorem grows_mount (h : d.Sound) : d.Grows (mount d).2 ∧
    ∀ view, (mount d).1 = .ok view → view.Issued (mount d).2.fresh := by
  unfold mount
  split
  · exact ⟨h.grows, fun view hview => by cases hview⟩
  · next d₁ hstyles =>
    have h₁ := grows_ensureStyles h hstyles
    split
    · exact ⟨h₁, fun view hview => by cases hview⟩
    · next main d₂ hmain =>
      have h₂ := h₁.trans (grows_ensureMain h₁.sound hmain)
      obtain ⟨h₃, hgroups⟩ := grows_ensureContainer h₂.sound main "groups"
      obtain ⟨h₄, husers⟩ := grows_ensureContainer h₃.sound main "users"
      refine ⟨h₂.trans (h₃.trans h₄), fun view hview => ?_⟩
      cases hview
      refine ⟨fun k => ?_, fun e he => absurd he List.not_mem_nil, SlotMap.keyed_empty,
        fun n hn => absurd hn List.not_mem_nil⟩
      cases k with
      | group => exact Nat.lt_of_lt_of_le hgroups h₄.fresh
      | user => exact husers

end Layout

theorem Notice.grows_display {d : Document Handler} (h : d.Sound) (kind : NoticeKind)
    (text : String) (b : Browser) : d.Grows (Notice.display kind text d b).1 := by
  unfold Notice.display
  split
  · split
    · exact h.grows
    · next d₁ hstyles =>
      have h₁ := Layout.grows_ensureStyles h hstyles
      split
      · exact h₁
      · next root d₂ hroot =>
        have h₂ : d₁.Grows d₂ := by
          unfold ensureRoot? at hroot
          split at hroot
          · cases hroot
            exact h₁.sound.grows
          · obtain ⟨parent, -, heq⟩ := Option.map_eq_some_iff.1 hroot
            have hput := Layout.grows_put h₁.sound parent
              (.element ((Sketch.styled "div" rootId).setAttribute "id" rootId) [])
            rw [heq] at hput
            exact hput
        have hshown := h₁.trans (h₂.trans (h₂.sound.grows_prepend root (Notice.sketch kind text)))
        simp only
        split <;> exact hshown
  · exact h.grows

namespace Shell

/-- What can be drawn on, once there is a page that is laid out. -/
def canvas? (s : Shell) : Option Canvas :=
  if s.hasDocument then s.view.map fun view => { document := s.document, view } else none

/-- A shell after something has been drawn. -/
def withCanvas (s : Shell) (c : Canvas) : Shell :=
  { s with document := c.document, view := some c.view }

/-- Whether the block of a group is on the page. -/
def ShowsGroup (s : Shell) (groupId : String) : Prop :=
  ∃ c n, s.canvas? = some c ∧ c.slot? (.group groupId) = some n ∧ n ∈ c.shown

/-- No number occurs twice on the page of a shell, and what is remembered has been given out. -/
structure Orderly (s : Shell) : Prop where
  sound : s.document.Sound
  view : ∀ view, s.view = some view → view.Issued s.document.fresh

section

variable {s : Shell} {c : Canvas}

theorem canvas?_withCanvas (h : s.canvas? = some c) (c' : Canvas) :
    (s.withCanvas c').canvas? = some c' := by
  have hdocument : s.hasDocument = true := by
    by_contra hnone
    rw [canvas?, if_neg hnone] at h
    cases h
  exact if_pos hdocument

theorem draw_of_canvas (h : s.canvas? = some c) (p : Panel) (part : Drawing) :
    s.draw p part = s.withCanvas (c.draw p part) := by
  unfold canvas? at h
  split at h
  · next hdocument =>
    obtain ⟨view, hview, rfl⟩ := Option.map_eq_some_iff.1 h
    rw [draw, if_pos hdocument, hview]
    rfl
  · cases h

/-- Without a page that is laid out, drawing changes nothing on it. -/
theorem draw_of_no_canvas (h : s.canvas? = none) (p : Panel) (part : Drawing) :
    (s.draw p part).document = s.document ∧ (s.draw p part).canvas? = none := by
  unfold draw
  split
  · next hdocument =>
    split
    · exact ⟨rfl, h⟩
    · next view hview =>
      rw [canvas?, if_pos hdocument, hview] at h
      cases h
  · next hdocument => exact ⟨rfl, if_neg hdocument⟩

end

namespace Orderly

variable {s : Shell}

/-- The document may grow. -/
theorem grow (h : s.Orderly) {d : Document Handler} (hd : s.document.Grows d) :
    ({ s with document := d } : Shell).Orderly :=
  ⟨hd.sound, fun view hview => (h.view view hview).mono hd.fresh⟩

theorem draw (h : s.Orderly) (p : Panel) (part : Drawing) : (s.draw p part).Orderly := by
  unfold Shell.draw
  split
  · split
    · exact h
    · next view hview =>
      have hcanvas : ({ document := s.document, view } : Canvas).Orderly :=
        ⟨h.sound, h.view view hview⟩
      have hdrawn := hcanvas.draw p part
      exact ⟨hdrawn.sound, fun view hview => Option.some.inj hview ▸ hdrawn.view⟩
  · exact ⟨h.sound, h.view⟩

theorem notify (h : s.Orderly) (kind : NoticeKind) (text : String) :
    (s.notify kind text).Orderly := by
  have hgrown := h.grow (Notice.grows_display h.sound kind text s.browser)
  exact ⟨hgrown.sound, hgrown.view⟩

theorem mount (h : s.Orderly) : s.mount.2.Orderly := by
  obtain ⟨hgrows, hview⟩ := Layout.grows_mount h.sound
  unfold Shell.mount
  split
  · split
    · next view d heq =>
      rw [heq] at hgrows hview
      exact ⟨hgrows.sound, fun view hsome => Option.some.inj hsome ▸ hview _ rfl⟩
    · next error d heq =>
      rw [heq] at hgrows
      exact h.grow hgrows
  · exact h

theorem run (h : s.Orderly) (task : Task) : (s.run task).Orderly := by
  unfold Shell.run
  split
  · exact ⟨h.sound, h.view⟩
  · exact h.grow (h.sound.grows_detach _)

theorem canvas (h : s.Orderly) {c : Canvas} (hc : s.canvas? = some c) : c.Orderly := by
  unfold canvas? at hc
  split at hc
  · obtain ⟨view, hview, rfl⟩ := Option.map_eq_some_iff.1 hc
    exact ⟨h.sound, h.view view hview⟩
  · cases hc

/-- Drawing a part once more, whether or not there is a page to draw on. -/
theorem tfae_draw_draw (h : s.Orderly) (p : Panel) (part : Drawing) :
    [((s.draw p part).draw p part).document.face = (s.draw p part).document.face,
      ((s.draw p part).draw p part).document.look = (s.draw p part).document.look,
      ∀ groupId, part = .members groupId → (s.draw p part).ShowsGroup groupId →
        ((p.membersOf groupId).map (·.id)).Nodup].TFAE := by
  cases hcanvas : s.canvas? with
  | none =>
    obtain ⟨-, honce⟩ := draw_of_no_canvas hcanvas p part
    obtain ⟨htwice, -⟩ := draw_of_no_canvas honce p part
    rw [htwice]
    tfae_have 1 → 2 := fun _ => rfl
    tfae_have 2 → 3 := by
      rintro - groupId - ⟨c, n, hc, -⟩
      rw [honce] at hc
      cases hc
    tfae_have 3 → 1 := fun _ => rfl
    tfae_finish
  | some c =>
    have honce := canvas?_withCanvas hcanvas (c.draw p part)
    have hclean : (c.draw p part).Clean p part ↔ ∀ groupId, part = .members groupId →
        (s.withCanvas (c.draw p part)).ShowsGroup groupId →
        ((p.membersOf groupId).map (·.id)).Nodup := by
      constructor
      · rintro hclean groupId hpart ⟨c', n, hc', hslot, hshown⟩
        cases honce.symm.trans hc'
        exact hclean groupId n hpart hslot hshown
      · exact fun hclean groupId n hpart hslot hshown =>
          hclean groupId hpart ⟨_, n, honce, hslot, hshown⟩
    rw [draw_of_canvas hcanvas, draw_of_canvas honce, ← hclean]
    exact (h.canvas hcanvas).tfae_draw_draw p part

end Orderly

end Shell

namespace App

variable {a : App}

/-! ## Runs -/

theorem orderly_post (m : Message) (h : a.shell.Orderly) : (a.post m).shell.Orderly := by
  have hkept : Kept Shell.host (fun _ => True) (fun _ s => s.Orderly) := by
    refine Kept.of_world (fun s r hs => ?_) (fun p s part hs => Shell.Orderly.draw hs p part)
      fun s kind text hs => Shell.Orderly.notify hs kind text
    show (s.send r).2.Orderly
    unfold Shell.send
    split <;> exact ⟨hs.sound, hs.view⟩
  exact hkept.dispatch trivial h

theorem orderly_told (signal : Signal) (h : a.shell.Orderly) : (a.told signal).shell.Orderly := by
  cases signal with
  | connected => exact orderly_post _ h
  | disconnected => exact orderly_post _ h
  | received text =>
    unfold told
    simp only
    split
    · exact orderly_post _ h
    · exact h

theorem orderly_start (h : a.shell.Orderly) : a.start.2.shell.Orderly := by
  have hmount : a.mount.2.shell.Orderly := h.mount
  rcases a.start_cases with heq | heq
  · rw [heq]
    exact hmount
  · rw [heq]
    show Shell.Orderly (Shell.connect _).2
    unfold Shell.connect
    split
    · exact hmount
    · exact ⟨hmount.sound, hmount.view⟩

/-- Changing an element, its children aside. -/
theorem orderly_adjust (h : a.shell.Orderly) (n : Nat)
    {f : Element Nat Handler → Element Nat Handler} (hf : ∀ e, (f e).mark = e.mark) :
    (a.adjust n f).shell.Orderly :=
  h.grow (h.sound.grows_adjustElement n hf)

theorem orderly_fire_timer (t : Timer) (h : a.shell.Orderly) :
    (Networked.fire run t a).shell.Orderly := by
  have hexpired : (Networked.setBrowser (·.expire t) a).shell.Orderly := ⟨h.sound, h.view⟩
  exact hexpired.run t.task

theorem orderly_socketEvent (n : Nat) (event : SocketEvent) (h : a.shell.Orderly) :
    (a.socketEvent n event).shell.Orderly := by
  have hheed : ∀ signal, ((a.withNetwork (a.shell.network.hear n event).2).heed
      signal).shell.Orderly := by
    rintro (_ | signal)
    · exact ⟨h.sound, h.view⟩
    · exact orderly_told signal ⟨h.sound, h.view⟩
  have hheard := hheed (a.shell.network.hear n event).1
  rw [socketEvent_eq]
  simp only
  split
  · exact ⟨hheard.sound, hheard.view⟩
  · exact hheard

theorem orderly_onGesture : OnGesture fun a => a.shell.Orderly := by
  have hclass : ∀ (e : Element Nat Handler) names, (e.setClasses names).mark = e.mark := by
    intro e names
    obtain ⟨attributes, heq⟩ := e.exists_setClasses names
    rw [heq]
  exact {
    post := fun _ m _ h => orderly_post m h
    addHover := fun _ n h => orderly_adjust h n fun e => hclass e _
    removeHover := fun _ n h => orderly_adjust h n fun e => hclass e _
    say := fun _ _ _ h => ⟨h.sound, h.view⟩
    ask := fun _ _ h => ⟨h.sound, h.view⟩ }

/-- Numbers stay in order whatever happens. -/
theorem orderly_happen (htame : a.shell.Tame) (x : Happening) (h : a.shell.Orderly) :
    (a.happen x).shell.Orderly := by
  cases x with
  | socket n event => exact orderly_socketEvent n event h
  | receive frame =>
    show (a.receive frame).shell.Orderly
    unfold receive
    split
    · exact orderly_post _ h
    · exact h
  | refreshGroups => exact orderly_post _ h
  | refreshUsers => exact orderly_post _ h
  | refreshGroup groupId => exact orderly_post _ h
  | gesture target g => exact fire_induct orderly_onGesture htame target g h
  | fill n text => exact orderly_adjust h n fun e => e.mark_fill text
  | timer i =>
    simp only [happen]
    split
    · exact orderly_fire_timer _ h
    · exact h
  | tick ms =>
    show (a.tick ms).shell.Orderly
    exact tick_induct (P := fun a => a.shell.Orderly) (fun _ t _ h => orderly_fire_timer t h)
      (fun _ _ h => ⟨h.sound, h.view⟩) ms h
  | refuse error => exact ⟨h.sound, h.view⟩
  | obstruct n sendErrors sendError closeError => exact ⟨h.sound, h.view⟩

theorem orderly_runAll (htame : a.shell.Tame) (h : a.shell.Orderly) (xs : List Happening) :
    (a.runAll xs).shell.Orderly := by
  induction xs generalizing a with
  | nil => exact h
  | cons x rest ih => exact ih (tame_happen x htame) (orderly_happen htame x h)

/-- Once an application has been started on a page where no number occurs twice, numbers are in
order whatever happens. -/
theorem orderly_afterStart {d : Document Handler} (hsound : d.Sound) (hsilent : d.Silent)
    (words : Words) (b : Browser) (endpoint : Option Endpoint) (xs : List Happening) :
    (afterStart words b d endpoint xs).shell.Orderly := by
  have htame := tame_unstarted words b hsilent endpoint
  have hunstarted : (unstarted words b d endpoint).shell.Orderly :=
    ⟨hsound, fun view hview => by cases hview⟩
  exact orderly_runAll (tame_start htame) (orderly_start hunstarted) xs

/-- After `start` and any happenings, three things are the same for every part: to render it a
second time leaves the page as it is, listeners included (`face`); it leaves what can be seen of the
page (`look`); and the part is not `render_members` of a group on the page with two members of the
same id. Of two such blocks the registry has the later one only, and so `remove_members_of` leaves
the other. -/
theorem draw_twice_tfae {d : Document Handler} (hsound : d.Sound) (hsilent : d.Silent)
    (words : Words) (b : Browser) (endpoint : Option Endpoint) (xs : List Happening)
    (part : Drawing) :
    let a := afterStart words b d endpoint xs
    let once := a.shell.draw a.panel part
    [(once.draw a.panel part).document.face = once.document.face,
      (once.draw a.panel part).document.look = once.document.look,
      ∀ groupId, part = .members groupId → once.ShowsGroup groupId →
        ((a.panel.membersOf groupId).map (·.id)).Nodup].TFAE :=
  (orderly_afterStart hsound hsilent words b endpoint xs).tfae_draw_draw _ part

/-- The socket opens, a group is listed, and then its members, the same user twice. -/
def listedTwice : App :=
  let user : Entity := .user ⟨"u1", "ada", none⟩
  let listing : Frame :=
    ⟨.list, none, none, none, none, none, some [(Entity.group ⟨"g1", "Staff"⟩).json]⟩
  let members : Frame :=
    ⟨.children, some "g1", none, none, none, none, some [user.json, user.json]⟩
  afterStart { ahead := [] } { host := some "panel", protocol := some "http:" } .blank none
    [.socket 0 .opened, .receive listing, .receive members]

/-- On a blank page, drawing all groups once more changes nothing. -/
theorem draw_groups_listedTwice :
    (Document.blank : Document Handler).Sound ∧ (Document.blank : Document Handler).Silent ∧
      let once := listedTwice.shell.draw listedTwice.panel .groups
      (once.draw listedTwice.panel .groups).document.face = once.document.face := by
  have hsound : (Document.blank : Document Handler).Sound := ⟨by decide, by decide⟩
  refine ⟨hsound, Document.silent_blank, ?_⟩
  exact ((draw_twice_tfae hsound Document.silent_blank _ _ _ _ .groups).out 0 2).2
    fun groupId hpart => by cases hpart

/-- For a group that lists one user twice, a second `render_members` adds a third block. -/
theorem look_draw_members_listedTwice :
    let once := listedTwice.shell.draw listedTwice.panel (.members "g1")
    (once.draw listedTwice.panel (.members "g1")).document.look ≠ once.document.look := by
  intro once hlook
  have honce : once.document.blockCount = 8 := by decide +kernel
  have htwice : (once.draw listedTwice.panel (.members "g1")).document.blockCount = 9 := by
    decide +kernel
  have hsame := Document.blockCount_eq_of_look hlook
  rw [honce, htwice] at hsame
  exact absurd hsame (by decide)

end App

end RosterPanel
