import RosterPanel.Proofs.Reactions

/-!
# The page is in sync with the panel

Whatever happens once the panel has been started on a blank page, the page shows what the panel
knows, with the controls that are latched as disabled. Results:

* `InSync`: the invariant of a panel and a shell, with `InSync.dispatch`.
* `Happening.Distinct`: the lists that arrive name nothing twice.
* `App.inSync_start`, `App.InSync.happen`, `App.InSync.runAll`: the invariant along a run.
-/

namespace RosterPanel

open Page (Document Element Node)
open Page.Node (LikeAll)

/-- The page of a shell shows what a panel knows; `typed` are the numbers of the elements that a
text was put into. -/
structure InSync (typed : List Nat) (p : Panel) (s : Shell) : Prop where
  distinct : p.Distinct
  displays : s.Displays typed p.latches.isLatched p.display

namespace InSync

variable {typed : List Nat} {p : Panel} {s : Shell}

theorem foldl_take_ofDraw (p : Panel) (D : Display) (draws : List (Control × Bool)) :
    (draws.map Effect.ofDraw).foldl (Display.take p) D = D := by
  induction draws with
  | nil => rfl
  | cons d rest ih => exact ih

/-- Handling a message that chains no others. -/
theorem dispatch_of_ne (h : InSync typed p s) {m : Message} (hm : m.Distinct)
    (hne : m ≠ .connectionOpened) :
    InSync typed (dispatch Shell.host m (p, s)).1 (dispatch Shell.host m (p, s)).2 := by
  have hdistinct := h.distinct.react hm
  have hcovers := (p.covers_react m).display
  have hchain := p.chain_notMem_react m
  obtain ⟨draws, rest, hes, hspares, hredraw⟩ :=
    (p.latchStep_react m).exists_draws h.distinct.latches
  rw [dispatch_eq]
  rw [hes] at hcovers hchain ⊢
  rw [List.foldl_append, foldl_take_ofDraw] at hcovers
  -- First the controls that the message has latched or freed are shown, then the rest.
  obtain ⟨s', hdraws, hshown⟩ := h.displays.performDraws (p.react m).1 draws
  rw [hredraw] at hshown
  obtain ⟨l, s'', hrest, hl, hshown'⟩ := hshown.performAll hdistinct fun e he =>
    ⟨fun m' heq => hchain m' hne (List.mem_append_right _ (heq ▸ he)), hspares e he⟩
  rw [hcovers] at hshown'
  rw [List.foldl_append, hdraws, hrest]
  exact ⟨hdistinct.withLatches hl, hshown'⟩

/-- Handling a message keeps the page in sync. -/
theorem dispatch (h : InSync typed p s) {m : Message} (hm : m.Distinct) :
    InSync typed (dispatch Shell.host m (p, s)).1 (dispatch Shell.host m (p, s)).2 := by
  by_cases hne : m = .connectionOpened
  · subst hne
    have hopened : InSync typed { p with connected := true } s :=
      ⟨⟨h.distinct.toApart, h.distinct.latches⟩, h.displays⟩
    have hgroups := hopened.dispatch_of_ne (m := .refreshGroups) trivial (by simp)
    rw [dispatch_connectionOpened]
    exact hgroups.dispatch_of_ne (m := .refreshUsers) trivial (by simp)
  · exact h.dispatch_of_ne hm hne

end InSync

/-! ## Lists from the backend -/

/-- A list of entities names none of them twice, and a list of members neither. -/
structure Frame.Distinct (f : Frame) : Prop where
  entities : f.verb = .list → (f.entities.map Entity.id).Nodup
  members : f.verb = .children → ((f.entities.filterMap Entity.user?).map (·.id)).Nodup

theorem Frame.Distinct.message {f : Frame} (h : f.Distinct) {m : Message}
    (hm : f.message? = some m) : m.Distinct := by
  cases Frame.means_of_message? hm with
  | listed hverb => exact (h.entities hverb).sublist (List.filter_sublist.map _)
  | peopled hverb => exact h.members hverb
  | failed | created | deleted | added | removed | loaded | updated => trivial

theorem Message.IsGesture.distinct {m : Message} (h : m.IsGesture) : m.Distinct := by
  cases m <;> first | exact trivial | exact h.elim

/-- The lists that arrive name nothing twice. -/
def Happening.Distinct : Happening → Prop
  | .receive frame => frame.Distinct
  | .socket _ (.message (some text)) => ∀ frame, Frame.ofText? text = some frame → frame.Distinct
  | _ => True

/-- The number of the element that a text is put into. -/
def Happening.filled? : Happening → Option Nat
  | .fill n _ => some n
  | _ => none

/-! ## What happens to a shell -/

namespace Shell.Displays

variable {typed : List Nat} {latched : Control → Bool} {D : Display} {s : Shell}

/-- Changing an element on the page, its children aside. -/
theorem adjust (h : s.Displays typed latched D) {typed' : List Nat} (n : Nat)
    {f : Element Nat Handler → Element Nat Handler} (hmark : ∀ e, (f e).mark = e.mark)
    (hlisteners : ∀ e, (f e).listeners = e.listeners)
    (hid : ∀ e, (f e).attribute? "id" = e.attribute? "id")
    (hsub : typed ⊆ typed') (hresembles : ∀ e t, e.mark = n →
      Resembles typed' e t → Resembles typed' (f e) t) :
    Displays typed' latched D { s with document := s.document.adjustElement n f } := by
  obtain ⟨view, hview, hshows⟩ := h.shows
  refine ⟨h.window, h.document, view, hview,
    hshows.adjustElement n hmark hlisteners hid fun e t hstands => ?_⟩
  have hgrown := hstands.mono hsub
  unfold Scene.changeAt
  split
  · next hn => exact hgrown.change (hmark e) (hresembles e _ hn hgrown.resembles)
  · exact hgrown

/-- Only class names are changed, and only that of hovered blocks comes or goes. -/
theorem adjustClasses (h : s.Displays typed latched D) (n : Nat)
    {names : Element Nat Handler → List String}
    (hresembles : ∀ e t, Resembles typed e t → Resembles typed (e.setClasses (names e)) t) :
    Displays typed latched D
      { s with document := s.document.adjustElement n fun e => e.setClasses (names e) } := by
  refine h.adjust n (fun e => ?_) (fun e => e.listeners_setClasses _)
    (fun e => e.attribute?_setClasses _ (by decide)) (List.Subset.refl _)
    fun e t _ => hresembles e t
  obtain ⟨attributes, heq⟩ := e.exists_setClasses (names e)
  rw [heq]

theorem addHover (h : s.Displays typed latched D) (n : Nat) :
    Displays typed latched D
      { s with document := s.document.adjustElement n (·.addClass Handler.hoverClass) } :=
  h.adjustClasses n fun _ _ h => h.addHover

theorem removeHover (h : s.Displays typed latched D) (n : Nat) :
    Displays typed latched D
      { s with document := s.document.adjustElement n (·.removeClass Handler.hoverClass) } :=
  h.adjustClasses n fun _ _ h => h.removeHover

/-- A text is put into a field. -/
theorem fill (h : s.Displays typed latched D) (n : Nat) (text : String) :
    Displays (typed ++ [n]) latched D
      { s with document := s.document.adjustElement n (Element.fill text) } := by
  refine h.adjust n (fun e => e.mark_fill text) (fun e => e.listeners_fill text) (fun e => ?_)
    (List.subset_append_left _ _) fun e t hn hresembles => ?_
  · unfold Element.fill
    split <;> rfl
  · exact hresembles.fill (by rw [hn]; simp) text

/-- A timer fires. -/
theorem fire (h : s.Displays typed latched D) {t : Timer} (ht : t ∈ s.browser.timers) :
    ((Networked.setBrowser (·.expire t) s).run t.task).Displays typed latched D := by
  have hexpired : (Networked.setBrowser (·.expire t) s : Shell).Displays typed latched D :=
    h.withNetwork (.expire s.browser t)
  unfold Shell.run
  split
  · next i _ => exact hexpired.withNetwork (Network.calm_retry _ i)
  · next n htask =>
    have hn : n ∈ s.browser.dismissals := List.mem_filterMap.2 ⟨t, ht, by rw [htask]⟩
    obtain ⟨view, hview, hshows⟩ := h.shows
    have hdismissed : Displays typed latched D { s with document := s.document.detach n } :=
      ⟨h.window, h.document, view, hview, hshows.dismiss hn⟩
    exact hdismissed.withNetwork (.expire s.browser t)

/-- A link is made and connected. -/
theorem connect (h : s.Displays typed latched D) : s.connect.2.Displays typed latched D := by
  unfold Shell.connect
  split
  · exact h
  · next url _ =>
    have hcalm := Network.calm_connect (s.network.addLink { url }).2 (s.network.addLink { url }).1
    have hconnected := h.withNetwork (n := ((s.network.addLink { url }).2.connect
      (s.network.addLink { url }).1).2) hcalm
    exact ⟨hconnected.window, hconnected.document, hconnected.shows⟩

end Shell.Displays

namespace App

/-- The page of an application shows what its panel knows. -/
structure InSync (typed : List Nat) (a : App) : Prop
    extends RosterPanel.InSync typed a.panel a.shell where
  tame : a.shell.Tame

namespace InSync

variable {typed : List Nat} {a : App}

theorem post (h : a.InSync typed) {m : Message} (hm : m.Distinct) : (a.post m).InSync typed :=
  ⟨h.toInSync.dispatch hm, tame_post m h.tame⟩

/-- What the panel knows stays, and so does what the page shows. -/
theorem ofDisplays (h : a.InSync typed) {typed' : List Nat} {s : Shell}
    (hshown : s.Displays typed' a.panel.latches.isLatched a.panel.display) (htame : s.Tame) :
    App.InSync typed' { a with shell := s } :=
  ⟨⟨h.distinct, hshown⟩, htame⟩

theorem withNetwork (h : a.InSync typed) {n : Network} (hn : a.shell.browser.Calm n.browser) :
    (a.withNetwork n).InSync typed :=
  h.ofDisplays (h.displays.withNetwork hn) h.tame

theorem receive (h : a.InSync typed) {f : Frame} (hf : f.Distinct) :
    (a.receive f).InSync typed := by
  unfold App.receive
  split
  · next m hm => exact h.post (hf.message hm)
  · exact h

theorem told (h : a.InSync typed) {signal : Signal}
    (hdistinct : ∀ text, signal = .received text →
      ∀ f, Frame.ofText? text = some f → f.Distinct) :
    (a.told signal).InSync typed := by
  cases signal with
  | connected => exact h.post (m := .connectionOpened) trivial
  | disconnected => exact h.post (m := .connectionLost) trivial
  | received text =>
    unfold App.told
    simp only
    split
    · next m hm =>
      obtain ⟨f, hf, hm⟩ := Option.bind_eq_some_iff.1 hm
      exact h.post ((hdistinct text rfl f hf).message hm)
    · exact h

theorem fire_timer (h : a.InSync typed) {t : Timer} (ht : t ∈ a.shell.browser.timers) :
    (Networked.fire run t a).InSync typed := by
  refine ⟨⟨h.distinct, h.displays.fire ht⟩, ?_⟩
  exact tame_fire_timer t h.tame

/-- What a link tells of an event on a socket are texts that arrive, or no texts. -/
theorem hear_received {n : Network} {s : Nat} {event : SocketEvent} {text : String}
    (h : (n.hear s event).1 = some (.received text)) : event = .message (some text) := by
  unfold Network.hear at h
  split at h
  · cases h
  · unfold Network.act at h
    split at h
    · cases h
    · cases event with
      | opened | closed | failed => cases h
      | message received =>
        cases received with
        | none => cases h
        | some received =>
          cases h
          rfl

theorem socketEvent (h : a.InSync typed) (n : Nat) (event : SocketEvent)
    (hdistinct : (Happening.socket n event).Distinct) :
    (a.socketEvent n event).InSync typed := by
  have hheard := h.withNetwork (a.shell.network.calm_hear n event)
  have hheed : ((a.withNetwork (a.shell.network.hear n event).2).heed
      (a.shell.network.hear n event).1).InSync typed := by
    cases hsignal : (a.shell.network.hear n event).1 with
    | none => exact hheard
    | some signal =>
      refine hheard.told fun text htext f hf => ?_
      rw [htext] at hsignal
      rw [hear_received hsignal] at hdistinct
      exact hdistinct f hf
  rw [socketEvent_eq]
  simp only
  split
  · exact hheed.withNetwork (Network.calm_afterClose _ n)
  · exact hheed

/-- The page stays in sync whatever happens. -/
theorem happen (h : a.InSync typed) (x : Happening) (hx : x.Distinct) :
    (a.happen x).InSync (typed ++ x.filled?.toList) := by
  have hnone : ∀ {a : App}, a.InSync typed → a.InSync (typed ++ []) := by
    intro a h
    rw [List.append_nil]
    exact h
  cases x with
  | socket n event => exact hnone (h.socketEvent n event hx)
  | receive frame => exact hnone (h.receive hx)
  | refreshGroups => exact hnone (h.post (m := .refreshGroups) trivial)
  | refreshUsers => exact hnone (h.post (m := .refreshUsers) trivial)
  | refreshGroup groupId => exact hnone (h.post (m := .refreshGroup groupId) trivial)
  | gesture target g =>
    have hon : OnGesture (App.InSync typed) :=
      { post := fun _ m hm h => h.post hm.distinct
        addHover := fun _ n h => h.ofDisplays (h.displays.addHover n)
          (Document.Only.adjustElement h.tame n fun e => e.listeners_addClass _)
        removeHover := fun _ n h => h.ofDisplays (h.displays.removeHover n)
          (Document.Only.adjustElement h.tame n fun e => e.listeners_removeClass _)
        say := fun a level text h => h.withNetwork (.say a.shell.browser level text)
        ask := fun _ _ h => h.ofDisplays ⟨h.displays.window, h.displays.document,
          h.displays.shows⟩ h.tame }
    exact hnone (fire_induct hon h.tame target g h)
  | fill n text =>
    exact h.ofDisplays (h.displays.fill n text)
      (Document.Only.adjustElement h.tame n fun e => e.listeners_fill text)
  | timer i =>
    simp only [App.happen]
    split
    · next t ht => exact hnone (h.fire_timer (List.mem_of_getElem? ht))
    · exact hnone h
  | tick ms =>
    have hticked : (a.tick ms).InSync typed :=
      tick_induct (fun _ _ ht h => h.fire_timer ht)
        (fun a now h => h.withNetwork (.of_timers rfl rfl (List.Subset.refl _))) ms h
    exact hnone hticked
  | refuse error => exact hnone (h.withNetwork (.of_timers rfl rfl (List.Subset.refl _)))
  | obstruct n sendErrors sendError closeError =>
    exact hnone (h.withNetwork (.modifySocket _ n _))

theorem runAll (h : a.InSync typed) (xs : List Happening) (hxs : ∀ x ∈ xs, x.Distinct) :
    (a.runAll xs).InSync (typed ++ xs.filterMap Happening.filled?) := by
  induction xs generalizing a typed with
  | nil =>
    rw [List.filterMap_nil, List.append_nil]
    exact h
  | cons x rest ih =>
    rw [List.forall_mem_cons] at hxs
    have hrest := ih (h.happen x hxs.1) hxs.2
    have hsplit : (x :: rest).filterMap Happening.filled? =
        x.filled?.toList ++ rest.filterMap Happening.filled? := by
      cases hx : x.filled? <;> simp [hx]
    rw [hsplit, ← List.append_assoc]
    exact hrest

end InSync

end App

/-! ## The start -/

namespace Layout

/-- What is around the containers of a page that was blank. -/
def backdrop : Backdrop where
  head := { mark := 0, tag := "head" }
  inHead := [.element (((Sketch.plain "style").setAttribute "id" styleId).setMark 2)
    [.text (StyleRule.sheet styles)]]
  body := { mark := 1, tag := "body" }
  main := ((Sketch.plain "div").setAttribute "id" "main").setMark 3
  heading := [.element ((Sketch.styled "div" "header").setMark 4)
    [.element ((Sketch.plain "h1").setMark 5) [.text "Users and Groups"]]]
  container k := ((Sketch.styled "div" "column").setAttribute "id" k.containerId).setMark
    (View.container { groups := 6, users := 7 } k)
  rest := []

/-- A blank page gets both containers, and they are empty. -/
theorem mount_blank :
    (mount (Document.blank : Document Handler)).1 = .ok { groups := 6, users := 7 } ∧
      Scene [] ⟨(mount (Document.blank : Document Handler)).2, { groups := 6, users := 7 }⟩
        backdrop fun _ => [] := by
  have hsilent : ∀ e ∈ backdrop.others, e.listeners.isEmpty = true := by decide
  have hid : ∀ e ∈ backdrop.others, ∀ k : EntityKind,
      e.attribute? "id" ≠ some k.containerId := by
    intro e he k
    revert e
    cases k <;> decide
  refine ⟨rfl, ⟨by decide, by decide⟩, rfl, rfl, fun _ => rfl, ⟨fun e he => ?_, fun _ => rfl,
    fun k => ?_, by decide⟩, fun n hn => by cases hn⟩
  · exact ⟨List.isEmpty_iff.1 (hsilent e he), hid e he⟩
  · cases k <;> decide

/-- A canvas with empty containers shows a panel that has heard nothing yet. -/
theorem shows_fresh {c : Canvas} {B : Backdrop} (h : Scene [] c B fun _ => [])
    (hslots : c.view.slots = ∅) (heditor : c.view.editor = none) (latched : Control → Bool)
    (words : Words) :
    Shows [] latched [] (Panel.fresh words).shown.area none c := by
  have hlike : ∀ k, LikeAll (Stands c.view.slots latched []) []
      ((Panel.fresh words).shown.area k) := by
    intro k
    cases k <;> exact .nil
  refine ⟨B, _, ⟨h, fun k => ?_, fun x n hx => ?_, ?_, fun n hn => ?_⟩, fun k => hlike k⟩
  · rw [View.bare_of_none heditor]
    exact hlike k
  · rw [hslots] at hx
    cases hx
  · rw [hslots]
    exact SlotMap.keyed_empty
  · rw [heditor] at hn
    cases hn

end Layout

namespace App

/-- The blank page once it is laid out. -/
theorem shell_mount_blank (words : Words) (b : Browser) (hwindow : b.window = true)
    (hdocument : b.document = true) (endpoint : Option Endpoint) :
    (unstarted words b .blank endpoint).mount.2.shell =
      { (unstarted words b .blank endpoint).shell with
        document := (Layout.mount Document.blank).2
        view := some { groups := 6, users := 7 } } := by
  have hpage : Shell.hasDocument (unstarted words b .blank endpoint).shell = true := by
    show (b.window && b.document) = true
    rw [hwindow, hdocument]
    rfl
  show (Shell.mount _).2 = _
  unfold Shell.mount
  rw [hpage, if_pos rfl]
  rfl

/-- The blank page once the two containers are on it. -/
theorem displays_mount (words : Words) (b : Browser) (hwindow : b.window = true)
    (hdocument : b.document = true) (htimers : b.timers = []) (endpoint : Option Endpoint) :
    (unstarted words b .blank endpoint).mount.2.shell.Displays []
      (Panel.fresh words).latches.isLatched (Panel.fresh words).display := by
  obtain ⟨-, hscene⟩ := Layout.mount_blank
  rw [shell_mount_blank words b hwindow hdocument endpoint]
  refine ⟨hwindow, hdocument, _, rfl, ?_⟩
  show Shows b.dismissals _ _ _ _ _
  rw [Browser.dismissals, htimers]
  exact Layout.shows_fresh hscene rfl rfl _ words

/-- A start on a blank page leaves the page in sync, whether or not a link could be made. -/
theorem inSync_start (words : Words) (b : Browser) (hwindow : b.window = true)
    (hdocument : b.document = true) (htimers : b.timers = []) (endpoint : Option Endpoint) :
    (unstarted words b .blank endpoint).start.2.InSync [] := by
  have htame := tame_start (tame_unstarted words b Document.silent_blank endpoint)
  have hmounted := displays_mount words b hwindow hdocument htimers endpoint
  have hsync : (unstarted words b .blank endpoint).start.2.shell.Displays []
      (Panel.fresh words).latches.isLatched (Panel.fresh words).display := by
    rcases (unstarted words b .blank endpoint).start_cases with heq | heq
    · rw [heq]
      exact hmounted
    · rw [heq]
      exact hmounted.connect
  have hpanel : (unstarted words b .blank endpoint).start.2.panel = Panel.fresh words := by
    rcases (unstarted words b .blank endpoint).start_cases with heq | heq <;> rw [heq] <;> rfl
  refine ⟨⟨?_, ?_⟩, htame⟩
  · rw [hpanel]
    exact ⟨⟨List.nodup_nil, List.nodup_nil, fun _ _ h => by cases h⟩, List.nodup_nil⟩
  · rw [hpanel]
    exact hsync

end App

end RosterPanel
