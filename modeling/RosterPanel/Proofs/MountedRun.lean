import RosterPanel.Proofs.Mounting
import RosterPanel.Proofs.PageInSync

/-!
# The property panel in a running application

Whatever happens to an application, and whatever the lists that arrive name, its page holds the
property panel for what the panel knows. Results:

* `Shell.Holds`: the page of a shell holds the property panel for an editor.
* `Shell.Holds.dispatch`: handling a message keeps that.
* `App.holds_start`, `App.Holds.happen`, `App.Holds.runAll`: so does a run after a start on any
  page, whatever tables are on it.
-/

namespace RosterPanel

open Page (Document Element Node)

theorem Panel.editor_eq_of_withoutLatches {p q : Panel}
    (h : p.withoutLatches = q.withoutLatches) : p.editor = q.editor := by
  have heditor := congrArg Panel.editor h
  exact heditor

namespace Shell

theorem canvas?_eq_some_iff {s : Shell} {c : Canvas} : s.canvas? = some c ↔
    s.hasDocument = true ∧ s.view = some c.view ∧ c.document = s.document := by
  obtain ⟨document, view⟩ := c
  unfold canvas?
  by_cases hdocument : s.hasDocument = true
  · rw [if_pos hdocument]
    cases s.view with
    | none => simp
    | some view' => simp [hdocument, and_comm, eq_comm]
  · simp [hdocument]

/-- The page of a shell, once it is laid out, holds the property panel for an editor. -/
def Holds (tables typed : List Nat) (editor : Option Editor) (s : Shell) : Prop :=
  ∀ c, s.canvas? = some c → c.Holds tables typed s.browser.dismissals editor

namespace Holds

variable {tables typed : List Nat} {editor : Option Editor} {s s' : Shell}

theorem closed (h : s.Holds tables typed editor) : s.Holds tables typed none :=
  fun c hc => (h c hc).closed

/-- A step that neither lays the page out nor takes it away. -/
theorem step (h : s.Holds tables typed editor) {typed' : List Nat}
    (hwindow : s'.browser.window = s.browser.window)
    (hdocument : s'.browser.document = s.browser.document) (hview : s'.view = s.view)
    (hstep : ∀ c : Canvas, c.document = s.document →
      c.Holds tables typed s.browser.dismissals editor →
      Canvas.Holds tables typed' s'.browser.dismissals editor { c with document := s'.document }) :
    s'.Holds tables typed' editor := by
  intro c' hc'
  obtain ⟨hpage, hview', hdocument'⟩ := canvas?_eq_some_iff.1 hc'
  have hc : s.canvas? = some { c' with document := s.document } := by
    refine canvas?_eq_some_iff.2 ⟨?_, hview.symm.trans hview', rfl⟩
    rw [hasDocument, ← hwindow, ← hdocument]
    exact hpage
  have hheld := hstep _ rfl (h _ hc)
  rwa [← hdocument'] at hheld

theorem withNetwork (h : s.Holds tables typed editor) {n : Network}
    (hn : s.browser.Calm n.browser) :
    Shell.Holds tables typed editor { s with network := n } := by
  refine h.step hn.window hn.document rfl fun c hc hheld => ?_
  have hsame : c = { c with document := s.document } := hc ▸ rfl
  exact hsame ▸ hheld.mono hn.dismissals

theorem send (h : s.Holds tables typed editor) (r : Request) :
    (s.send r).2.Holds tables typed editor := by
  unfold Shell.send
  split
  · exact h
  · next i _ => exact h.withNetwork (s.network.calm_send i r.text)

theorem notify (h : s.Holds tables typed editor) (kind : NoticeKind) (text : String) :
    (s.notify kind text).Holds tables typed editor := by
  obtain ⟨hwindow, hdocument⟩ := Notice.display_window kind text s.document s.browser
  refine h.step hwindow hdocument rfl fun c hc hheld => ?_
  have hshown := hheld.display kind text
  rwa [hc] at hshown

/-- What drawing on the page comes to. -/
theorem draw_of (h : s.Holds tables typed editor) {editor' : Option Editor} {p : Panel}
    {part : Drawing} (hdraw : ∀ c, Canvas.Holds tables typed s.browser.dismissals editor c →
      (c.draw p part).Holds tables typed s.browser.dismissals editor') :
    (s.draw p part).Holds tables typed editor' := by
  cases hcanvas : s.canvas? with
  | none =>
    intro c hc
    rw [(draw_of_no_canvas hcanvas p part).2] at hc
    cases hc
  | some c =>
    rw [draw_of_canvas hcanvas]
    intro c' hc'
    rw [canvas?_withCanvas hcanvas] at hc'
    cases hc'
    exact hdraw c (h c hcanvas)

/-! ### Messages -/

/-- What effects leave of the page: of the property panel what is known of it, or nothing that is
said. -/
theorem kept {q : Panel} {shown : Option Editor} (hshown : shown = q.editor ∨ shown = none) :
    Kept Shell.host (fun m => m.rank = 0)
      fun p s => p.withoutLatches = q.withoutLatches ∧ s.Holds tables typed shown where
  react p s m hm h :=
    ⟨(Kept.withoutLatches Shell.host q.withoutLatches).react p s m hm h.1, h.2⟩
  chain := (Kept.withoutLatches Shell.host q.withoutLatches).chain
  fail := (Kept.withoutLatches Shell.host q.withoutLatches).fail
  send p s r h := ⟨h.1, h.2.send r⟩
  draw p s part h := by
    have heditor := Panel.editor_eq_of_withoutLatches h.1
    refine ⟨h.1, h.2.draw_of fun c hc => ?_⟩
    rcases hshown with rfl | rfl
    · rw [← heditor]
      exact hc.draw (Or.inl heditor.symm)
    · exact hc.draw_closed p part
  notify p s kind text h := ⟨h.1, h.2.notify kind text⟩

variable {p : Panel}

/-- Handling a message that chains no others. -/
theorem dispatch_of_ne (h : s.Holds tables typed p.editor) {m : Message}
    (hne : m ≠ .connectionOpened) : (dispatch Shell.host m (p, s)).2.Holds tables typed
      (dispatch Shell.host m (p, s)).1.editor := by
  have hsuffices : ∀ {x : Panel × Shell}, (x.1.withoutLatches = (p.react m).1.withoutLatches ∧
      x.2.Holds tables typed (p.react m).1.editor) → x.2.Holds tables typed x.1.editor := by
    rintro x ⟨hsame, hholds⟩
    rwa [Panel.editor_eq_of_withoutLatches hsame]
  have hchain : ∀ m', .chain m' ∉ (p.react m).2 := fun m' => p.chain_notMem_react m m' hne
  rw [dispatch_eq]
  rcases (p.covers_react m).editor with heq | hdrawn
  · refine hsuffices ((kept (Or.inl rfl)).performAll (fun m' hm' => absurd hm' (hchain m'))
      ⟨rfl, ?_⟩)
    rw [heq]
    exact h
  · -- What the property panel shows is not told until it is drawn.
    obtain ⟨before, after, heffects⟩ := List.append_of_mem hdrawn
    rw [heffects] at hchain ⊢
    have hclosed : Kept Shell.host (fun m => m.rank = 0) fun p' s' =>
        p'.withoutLatches = (p.react m).1.withoutLatches ∧ s'.Holds tables typed none :=
      kept (Or.inr rfl)
    have hbefore := hclosed.performAll (l := before) (s := ((p.react m).1, s))
      (fun m' hm' => absurd (List.mem_append_left _ hm') (hchain m')) ⟨rfl, h.closed⟩
    rw [List.foldl_append, List.foldl_cons]
    refine hsuffices ((kept (Or.inl rfl)).performAll (fun m' hm' => absurd
      (List.mem_append_right _ (List.mem_cons_of_mem _ hm')) (hchain m')) ⟨hbefore.1, ?_⟩)
    have heditor := Panel.editor_eq_of_withoutLatches hbefore.1
    exact hbefore.2.draw_of fun c hc => heditor ▸ hc.draw (Or.inr rfl)

/-- Handling a message. -/
theorem dispatch (h : s.Holds tables typed p.editor) (m : Message) :
    (dispatch Shell.host m (p, s)).2.Holds tables typed
      (dispatch Shell.host m (p, s)).1.editor := by
  by_cases hne : m = .connectionOpened
  · subst hne
    have hopened : s.Holds tables typed ({ p with connected := true } : Panel).editor := h
    rw [dispatch_connectionOpened]
    exact (hopened.dispatch_of_ne (m := .refreshGroups) nofun).dispatch_of_ne nofun
  · exact h.dispatch_of_ne hne

/-! ### What else happens -/

/-- Changing an element on the page, its children aside. -/
theorem adjust (h : s.Holds tables typed editor) {typed' : List Nat} (n : Nat)
    {f : Element Nat Handler → Element Nat Handler} (hmark : ∀ e, (f e).mark = e.mark)
    (hforeign : ∀ e, e.Foreign tables → (f e).Foreign tables) (hsub : typed ⊆ typed')
    (hresembles : ∀ e t, e.mark = n → Resembles typed' e t → Resembles typed' (f e) t) :
    Shell.Holds tables typed' editor { s with document := s.document.adjustElement n f } := by
  refine h.step rfl rfl rfl fun c hc hheld => ?_
  have hadjusted := hheld.adjust n hmark hforeign hsub fun _ => hresembles
  rwa [hc] at hadjusted

/-- Only class names are changed, and only that of hovered blocks comes or goes. -/
theorem adjustClasses (h : s.Holds tables typed editor) (n : Nat)
    {names : Element Nat Handler → List String}
    (hresembles : ∀ e t, Resembles typed e t → Resembles typed (e.setClasses (names e)) t) :
    Shell.Holds tables typed editor
      { s with document := s.document.adjustElement n fun e => e.setClasses (names e) } := by
  refine h.adjust n (fun e => ?_) (fun e he => ?_) (List.Subset.refl _) fun e t _ => hresembles e t
  all_goals
    obtain ⟨attributes, heq⟩ := e.exists_setClasses (names e)
    rw [heq]
  exact he

/-- A text is put into a field. -/
theorem fill (h : s.Holds tables typed editor) (n : Nat) (text : String) :
    Shell.Holds tables (typed ++ [n]) editor
      { s with document := s.document.adjustElement n (Element.fill text) } := by
  refine h.adjust n (fun e => e.mark_fill text) (fun e he => ?_)
    (List.subset_append_left _ _) fun e t hn hresembles => ?_
  · unfold Element.fill
    split <;> exact he
  · exact hresembles.fill (by rw [hn]; simp) text

/-- A timer fires. -/
theorem fire (h : s.Holds tables typed editor) {t : Timer} (ht : t ∈ s.browser.timers) :
    ((Networked.setBrowser (·.expire t) s).run t.task).Holds tables typed editor := by
  have hexpired : (Networked.setBrowser (·.expire t) s : Shell).Holds tables typed editor :=
    h.withNetwork (.expire s.browser t)
  unfold Shell.run
  split
  · next i _ => exact hexpired.withNetwork (Network.calm_retry _ i)
  · next n htask =>
    have hn : n ∈ s.browser.dismissals := List.mem_filterMap.2 ⟨t, ht, by rw [htask]⟩
    have hdismissed : Shell.Holds tables typed editor
        { s with document := s.document.detach n } := by
      refine h.step rfl rfl rfl fun c hc hheld => ?_
      have hgone := hheld.dismiss hn
      rwa [hc] at hgone
    exact hdismissed.withNetwork (.expire s.browser t)

/-- A link is made and connected. -/
theorem connect (h : s.Holds tables typed editor) : s.connect.2.Holds tables typed editor := by
  unfold Shell.connect
  split
  · exact h
  · next url _ =>
    have hcalm := Network.calm_connect (s.network.addLink { url }).2 (s.network.addLink { url }).1
    have hconnected := h.withNetwork (n := ((s.network.addLink { url }).2.connect
      (s.network.addLink { url }).1).2) hcalm
    exact hconnected

end Holds

/-- A page that is laid out has no property panel, and nothing on it is like one. -/
theorem holds_mount {tables : List Nat} {s : Shell} (hsound : s.document.Sound)
    (hforeign : s.document.Foreign tables) (hview : s.view = none)
    (htimers : s.browser.timers = []) : s.mount.2.Holds tables [] none := by
  have hnothing : ∀ s' : Shell, s'.view = none → s'.Holds tables [] none := by
    intro s' hnone c hc
    cases hnone.symm.trans (canvas?_eq_some_iff.1 hc).2.1
  obtain ⟨hgrows, hissued⟩ := Layout.grows_mount hsound
  have hlaid := Layout.foreign_mount hforeign
  unfold Shell.mount
  split
  · split
    · next view d heq =>
      rw [heq] at hgrows hissued hlaid
      intro c hc
      obtain ⟨-, hview', hdocument⟩ := canvas?_eq_some_iff.1 hc
      obtain ⟨document, view'⟩ := c
      obtain rfl : document = d := hdocument
      obtain rfl : view = view' := Option.some.inj hview'
      have hnone : s.browser.dismissals = [] := by rw [Browser.dismissals, htimers]; rfl
      refine ⟨⟨hgrows.sound, hissued _ rfl⟩, fun n hn => ?_, ?_, fun e n he => ?_⟩
      · have hn : n ∈ s.browser.dismissals := hn
        rw [hnone] at hn
        cases hn
      · exact hlaid.mapTrees fun tree htree => htree.prune _
      · cases he
    · exact hnothing _ hview
  · exact hnothing _ hview

end Shell

/-! ## Runs -/

namespace App

/-- The page of an application holds the property panel for what its panel knows. -/
structure Holds (tables typed : List Nat) (a : App) : Prop where
  shell : a.shell.Holds tables typed a.panel.editor
  tame : a.shell.Tame

namespace Holds

variable {tables typed : List Nat} {a : App}

theorem post (h : a.Holds tables typed) (m : Message) : (a.post m).Holds tables typed :=
  ⟨h.shell.dispatch m, tame_post m h.tame⟩

theorem withNetwork (h : a.Holds tables typed) {n : Network} (hn : a.shell.browser.Calm n.browser) :
    (a.withNetwork n).Holds tables typed :=
  ⟨h.shell.withNetwork hn, h.tame⟩

theorem told (h : a.Holds tables typed) (signal : Signal) : (a.told signal).Holds tables typed := by
  cases signal with
  | connected => exact h.post _
  | disconnected => exact h.post _
  | received text =>
    unfold App.told
    simp only
    split
    · exact h.post _
    · exact h

theorem fire_timer (h : a.Holds tables typed) {t : Timer} (ht : t ∈ a.shell.browser.timers) :
    (Networked.fire run t a).Holds tables typed :=
  ⟨h.shell.fire ht, tame_fire_timer t h.tame⟩

theorem socketEvent (h : a.Holds tables typed) (n : Nat) (event : SocketEvent) :
    (a.socketEvent n event).Holds tables typed := by
  have hheard := h.withNetwork (a.shell.network.calm_hear n event)
  have hheed : ((a.withNetwork (a.shell.network.hear n event).2).heed
      (a.shell.network.hear n event).1).Holds tables typed := by
    cases (a.shell.network.hear n event).1 with
    | none => exact hheard
    | some signal => exact hheard.told signal
  rw [socketEvent_eq]
  simp only
  split
  · exact hheed.withNetwork (Network.calm_afterClose _ n)
  · exact hheed

theorem onGesture (typed : List Nat) : OnGesture (App.Holds tables typed) where
  post _ m _ h := h.post m
  addHover _ n h := ⟨h.shell.adjustClasses n fun _ _ h => h.addHover,
    Document.Only.adjustElement h.tame n fun e => e.listeners_addClass _⟩
  removeHover _ n h := ⟨h.shell.adjustClasses n fun _ _ h => h.removeHover,
    Document.Only.adjustElement h.tame n fun e => e.listeners_removeClass _⟩
  say a level text h := h.withNetwork (.say a.shell.browser level text)
  ask _ _ h := ⟨h.shell, h.tame⟩

/-- The page holds the property panel whatever happens. -/
theorem happen (h : a.Holds tables typed) (x : Happening) :
    (a.happen x).Holds tables (typed ++ x.filled?.toList) := by
  have hnone : ∀ {a : App}, a.Holds tables typed → a.Holds tables (typed ++ []) := by
    intro a h
    rw [List.append_nil]
    exact h
  cases x with
  | socket n event => exact hnone (h.socketEvent n event)
  | receive frame =>
    refine hnone ?_
    show (a.receive frame).Holds tables typed
    unfold App.receive
    split
    · exact h.post _
    · exact h
  | refreshGroups => exact hnone (h.post _)
  | refreshUsers => exact hnone (h.post _)
  | refreshGroup groupId => exact hnone (h.post _)
  | gesture target g => exact hnone (fire_induct (onGesture typed) h.tame target g h)
  | fill n text =>
    exact ⟨h.shell.fill n text,
      Document.Only.adjustElement h.tame n fun e => e.listeners_fill text⟩
  | timer i =>
    simp only [App.happen]
    split
    · next t ht => exact hnone (h.fire_timer (List.mem_of_getElem? ht))
    · exact hnone h
  | tick ms =>
    have hticked : (a.tick ms).Holds tables typed :=
      tick_induct (fun _ _ ht h => h.fire_timer ht)
        (fun a now h => h.withNetwork (.of_timers rfl rfl (List.Subset.refl _))) ms h
    exact hnone hticked
  | refuse error => exact hnone (h.withNetwork (.of_timers rfl rfl (List.Subset.refl _)))
  | obstruct n sendErrors sendError closeError =>
    exact hnone (h.withNetwork (.modifySocket _ n _))

theorem runAll (h : a.Holds tables typed) (xs : List Happening) :
    (a.runAll xs).Holds tables (typed ++ xs.filterMap Happening.filled?) := by
  induction xs generalizing a typed with
  | nil =>
    rw [List.filterMap_nil, List.append_nil]
    exact h
  | cons x rest ih =>
    have hsplit : (x :: rest).filterMap Happening.filled? =
        x.filled?.toList ++ rest.filterMap Happening.filled? := by
      cases hx : x.filled? <;> simp [hx]
    rw [hsplit, ← List.append_assoc]
    exact ih (h.happen x)

end Holds

/-- A start leaves a page without a property panel. -/
theorem holds_start {d : Document Handler} (hsound : d.Sound) (hsilent : d.Silent)
    (words : Words) (b : Browser) (htimers : b.timers = []) (endpoint : Option Endpoint) :
    (unstarted words b d endpoint).start.2.Holds d.numbers [] := by
  have hpanel : (unstarted words b d endpoint).start.2.panel = Panel.fresh words := by
    rcases (unstarted words b d endpoint).start_cases with heq | heq <;> rw [heq] <;> rfl
  have hmounted : (unstarted words b d endpoint).mount.2.shell.Holds d.numbers [] none :=
    Shell.holds_mount hsound hsilent.foreign rfl htimers
  refine ⟨?_, tame_start (tame_unstarted words b hsilent endpoint)⟩
  rw [hpanel]
  show Shell.Holds d.numbers [] none _
  rcases (unstarted words b d endpoint).start_cases with heq | heq
  · rw [heq]
    exact hmounted
  · rw [heq]
    exact hmounted.connect

/-- Whatever happens after a start, the page holds the property panel. -/
theorem holds_afterStart {d : Document Handler} (hsound : d.Sound) (hsilent : d.Silent)
    (words : Words) (b : Browser) (htimers : b.timers = []) (endpoint : Option Endpoint)
    (xs : List Happening) :
    (afterStart words b d endpoint xs).Holds d.numbers (xs.filterMap Happening.filled?) :=
  (holds_start hsound hsilent words b htimers endpoint).runAll xs

end App

end RosterPanel
