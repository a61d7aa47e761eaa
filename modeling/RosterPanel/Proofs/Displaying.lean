import RosterPanel.Proofs.AppRun
import RosterPanel.Proofs.Decoration
import RosterPanel.Proofs.DistinctIds
import RosterPanel.Proofs.Redrawing

/-!
# What effects do to the page

The effects of a message are carried out one after the other, and each brings a part of the page up
to what the panel knows. Results:

* `Display`, `Display.take`: what a page shows of a panel, and what it shows after an effect;
  `Display.toward_take`: effects bring each part of it up to what the panel knows.
* `Shell.Displays`: a shell has a page that shows this, with given controls as latched.
* `LatchStep.exists_draws`: effects show the controls that a message has latched or freed first.
* `Shell.Displays.perform`, `Shell.Displays.performAll`: what a page shows after effects, requests
  that cannot be sent included.
-/

namespace RosterPanel

open Page (Document Element Node)

/-! ## What is shown -/

/-- What a page shows of a panel, the latches aside. -/
structure Display where
  shown : Shown
  editor : Option Editor

/-- What a page is to show of a panel. -/
def Panel.display (p : Panel) : Display := ⟨p.shown, p.editor⟩

namespace Display

/-- What is shown after a part has been drawn anew. -/
def draw (p : Panel) (D : Display) : Drawing → Display
  | .groups => ⟨{ D.shown with groups := p.groups, members := p.membersOf }, p.editor⟩
  | .users => ⟨{ D.shown with users := p.users }, p.editor⟩
  | .members groupId =>
    ⟨D.shown.withMembers groupId (p.membersOf groupId),
      if groupId ∈ D.shown.groups.map (·.id) then p.editor else D.editor⟩
  | .properties => ⟨D.shown, p.editor⟩
  | .control _ _ => D

/-- What is shown after an effect. -/
def take (p : Panel) (D : Display) : Effect → Display
  | .draw part => D.draw p part
  | _ => D

/-- Each part of what is shown after an effect is as it was, or as the panel has it. -/
structure Toward (p : Panel) (D D' : Display) : Prop where
  groups : D'.shown.groups = D.shown.groups ∨ D'.shown.groups = p.groups
  users : D'.shown.users = D.shown.users ∨ D'.shown.users = p.users
  members : ∀ groupId, D'.shown.members groupId = D.shown.members groupId ∨
    D'.shown.members groupId = p.membersOf groupId
  editor : D'.editor = D.editor ∨ D'.editor = p.editor

theorem Toward.refl (p : Panel) (D : Display) : Toward p D D :=
  ⟨Or.inl rfl, Or.inl rfl, fun _ => Or.inl rfl, Or.inl rfl⟩

theorem toward_draw (p : Panel) (D : Display) (part : Drawing) : Toward p D (D.draw p part) := by
  cases part with
  | groups => exact ⟨Or.inr rfl, Or.inl rfl, fun _ => Or.inr rfl, Or.inr rfl⟩
  | users => exact ⟨Or.inl rfl, Or.inr rfl, fun _ => Or.inl rfl, Or.inr rfl⟩
  | members changed =>
    refine ⟨Or.inl rfl, Or.inl rfl, fun groupId => ?_, ?_⟩
    · by_cases hg : groupId = changed
      · subst hg
        exact Or.inr (Function.update_self ..)
      · exact Or.inl (Function.update_of_ne hg ..)
    · show (if _ then p.editor else D.editor) = _ ∨ (if _ then p.editor else D.editor) = _
      split
      · exact Or.inr rfl
      · exact Or.inl rfl
  | properties => exact ⟨Or.inl rfl, Or.inl rfl, fun _ => Or.inl rfl, Or.inr rfl⟩
  | control control b => exact .refl p D

theorem toward_take (p : Panel) (D : Display) (e : Effect) : Toward p D (D.take p e) := by
  cases e with
  | draw part => exact toward_draw p D part
  | chain | send | notify => exact .refl p D

/-- A part of what is shown has a value after some effects if effects can only give it that value,
and it had the value before or one of the effects gives it. -/
theorem foldl_take_of {α : Type} {f : Display → α} {a : α} {p : Panel} {es : List Effect}
    (honly : ∀ D e, f (take p D e) = f D ∨ f (take p D e) = a) {D : Display}
    (h : f D = a ∨ ∃ e ∈ es, ∀ D, f (take p D e) = a) : f (es.foldl (take p) D) = a := by
  induction es generalizing D with
  | nil =>
    rcases h with h | ⟨e, he, -⟩
    · exact h
    · cases he
  | cons e rest ih =>
    rw [List.foldl_cons]
    apply ih
    rcases h with h | ⟨e', he', hgives⟩
    · rcases honly D e with hsame | hgiven
      · exact Or.inl (hsame.trans h)
      · exact Or.inl hgiven
    · rcases List.mem_cons.1 he' with rfl | he'
      · exact Or.inl (hgives D)
      · exact Or.inr ⟨e', he', hgives⟩

end Display

/-! ## Drawing -/

namespace Shows

variable {away : List Nat} {latched : Control → Bool} {typed : List Nat} {l : Sketches}
  {c : Canvas} {editor : Option Editor}

/-- Fewer elements may be away. -/
theorem mono {away' : List Nat} (h : Shows away latched typed l editor c) (hsub : away' ⊆ away) :
    Shows away' latched typed l editor c := by
  obtain ⟨B, content, h, hmounted⟩ := h
  have hscene : Scene away' c B content :=
    ⟨h.sound, h.head, h.body, h.container, h.plain, fun n hn => h.away n (hsub hn)⟩
  exact ⟨B, content, ⟨hscene, h.like, h.known, h.keyed, h.editor⟩, hmounted⟩

/-- A notice is put around what is shown. -/
theorem display {b : Browser} (h : Shows b.dismissals latched typed l editor c)
    (hwindow : b.window = true) (hdocument : b.document = true) (kind : NoticeKind)
    (text : String) :
    Shows (Notice.display kind text c.document b).2.dismissals latched typed l editor
      { c with document := (Notice.display kind text c.document b).1 } := by
  obtain ⟨B, content, h, hmounted⟩ := h
  have hcontent : ∀ k, ∀ e ∈ (content k).flatMap Node.selves, e.attribute? "id" = none := by
    intro k e he
    obtain ⟨s, -, hstands⟩ := Node.exists_of_forall₂_left (hmounted k).selves he
    exact hstands.id_eq_none
  obtain ⟨inHead, heading, rest, hscene, hfresh⟩ :=
    h.toScene.display hwindow hdocument hcontent kind text
  exact ⟨_, content, ⟨hscene, h.like, h.known, h.keyed, fun n hn =>
    ⟨Nat.lt_of_lt_of_le (h.editor n hn).1 hfresh, (h.editor n hn).2⟩⟩, hmounted⟩

/-- A notice that was shown is taken off. -/
theorem dismiss (h : Shows away latched typed l editor c) {n : Nat} (hn : n ∈ away) :
    Shows away latched typed l editor { c with document := c.document.detach n } := by
  obtain ⟨B, content, h, hmounted⟩ := h
  obtain ⟨-, hspares, hnotMem⟩ := h.away n hn
  have hsame : (fun k => Node.pruneAmong (Document.hasMark n) (content k)) = content :=
    funext fun k => Node.pruneAmong_eq_self (Document.hasMark_eq_false (hnotMem k))
  have hscene := h.toScene.detach hspares
  rw [hsame] at hscene
  refine ⟨_, content, ⟨hscene, h.like, h.known, h.keyed, fun m hm => ?_⟩, hmounted⟩
  obtain ⟨hlt, hm⟩ := h.editor m hm
  refine ⟨?_, hm⟩
  show m < (c.document.detach n).fresh
  rw [show (c.document.detach n).fresh = c.document.fresh from fresh_foldl_detach [n] c.document]
  exact hlt

/-- Drawing the members of a group, whether or not the group is there. -/
theorem drawMembers_display {D : Display} {p : Panel} (hp : p.Distinct)
    (h : Shows away latched typed D.shown.area D.editor c) (groupId : String) :
    Shows away latched typed (D.draw p (.members groupId)).shown.area
      (D.draw p (.members groupId)).editor (c.drawMembers p groupId) := by
  show Shows _ _ _ (D.shown.withMembers groupId (p.membersOf groupId)).area
    (if groupId ∈ D.shown.groups.map (·.id) then p.editor else D.editor) _
  by_cases hgroup : groupId ∈ D.shown.groups.map (·.id)
  · rw [if_pos hgroup]
    exact h.drawMembers hgroup (hp.membersOf groupId)
  · rw [if_neg hgroup, h.drawMembers_of_notMem p hgroup]
    have hsame : (D.shown.withMembers groupId (p.membersOf groupId)).area = D.shown.area := by
      funext k
      cases k with
      | user => rfl
      | group =>
        rw [Shown.area, Shown.area]
        exact congrArg (· ++ _) (D.shown.map_block_withMembers hgroup _)
    rw [hsame]
    exact h

/-- Drawing a part of the page other than a control. -/
theorem draw {D : Display} {p : Panel} (hp : p.Distinct)
    (h : Shows away p.latches.isLatched typed D.shown.area D.editor c) {part : Drawing}
    (hpart : ∀ control b, part ≠ .control control b) :
    Shows away p.latches.isLatched typed (D.draw p part).shown.area (D.draw p part).editor
      (c.draw p part) := by
  cases part with
  | groups => exact h.drawGroups hp.groups hp.membersOf
  | users => exact h.drawUsers hp.users
  | members groupId => exact h.drawMembers_display hp groupId
  | properties => exact h.bears.drawProperties p
  | control control b => exact absurd rfl (hpart control b)

end Shows

/-! ## Latches -/

namespace Latches

theorem isLatched_concat (l : Latches) (c : Control) (v : Verb) :
    (⟨l.pending ++ [⟨c, v⟩]⟩ : Latches).isLatched = Function.update l.isLatched c true := by
  funext d
  by_cases hd : d = c
  · subst hd
    simp [isLatched]
  · rw [Function.update_of_ne hd]
    simp [isLatched, Ne.symm hd]

theorem isLatched_taken {l : Latches} (hl : l.controls.Nodup) {before after : List Latch}
    {a : Latch} (h : l.pending = before ++ a :: after) :
    (⟨before ++ after⟩ : Latches).isLatched = Function.update l.isLatched a.control false := by
  rw [controls, h, List.map_append, List.map_cons, List.nodup_middle, List.nodup_cons,
    ← List.map_append] at hl
  funext d
  by_cases hd : d = a.control
  · subst hd
    rw [Function.update_self, isLatched_eq_false_iff]
    exact hl.1
  · have hother : (a.control == d) = false := beq_eq_false_iff_ne.2 (Ne.symm hd)
    rw [Function.update_of_ne hd]
    simp [isLatched, h, hother]

end Latches

/-- Which controls are latched after some have been drawn as latched or free. -/
def redraw (latched : Control → Bool) (draws : List (Control × Bool)) : Control → Bool :=
  draws.foldl (fun latched d => Function.update latched d.1 d.2) latched

theorem redraw_free (latched : Control → Bool) (l : List Control) (c : Control) :
    redraw latched (l.map fun c => (c, false)) c = if c ∈ l then false else latched c := by
  induction l generalizing latched with
  | nil => rfl
  | cons d rest ih =>
    have hstep : redraw latched ((d :: rest).map fun c => (c, false)) =
        redraw (Function.update latched d false) (rest.map fun c => (c, false)) := rfl
    rw [hstep, ih]
    by_cases hc : c = d
    · subst hc
      simp
    · simp [hc]

/-- Shows a control as latched or free. -/
def Effect.ofDraw (d : Control × Bool) : Effect := .draw (.control d.1 d.2)

/-- Whether an effect shows no control as latched or free. -/
def Effect.SparesControls (e : Effect) : Prop := ∀ d, e ≠ .ofDraw d

theorem Effect.Quiet.sparesControls {e : Effect} (h : e.Quiet) : e.SparesControls := by
  rintro d rfl
  exact h

/-- Effects show the controls that a message has latched or freed first, and no others later. -/
theorem LatchStep.exists_draws {l l' : Latches} {es : List Effect} (h : LatchStep l l' es)
    (hl : l.controls.Nodup) :
    ∃ draws rest, es = draws.map .ofDraw ++ rest ∧ (∀ e ∈ rest, e.SparesControls) ∧
      redraw l.isLatched draws = l'.isLatched := by
  cases h with
  | keep hquiet => exact ⟨[], es, rfl, fun e he => (hquiet e he).sparesControls, rfl⟩
  | @arm c r hfree hasks =>
    refine ⟨[(c, true)], [.send r], rfl, ?_, (l.isLatched_concat c r.verb).symm⟩
    rintro e he d rfl
    simp [Effect.ofDraw] at he
  | @release before after a rest hpending hquiet =>
    refine ⟨[(a.control, false)], rest, rfl, fun e he => (hquiet e he).sparesControls, ?_⟩
    exact (Latches.isLatched_taken hl hpending).symm
  | @clear rest hquiet =>
    refine ⟨l.controls.map fun c => (c, false), rest, ?_,
      fun e he => (hquiet e he).sparesControls, ?_⟩
    · rw [List.map_map]
      rfl
    · funext c
      rw [redraw_free]
      split
      · rfl
      · next hc => exact Latches.isLatched_eq_false_iff.2 hc

/-! ## Shells -/

/-- A browser has become another one, but shows the same page still, and no further timers wait to
take something off the page. -/
structure Browser.Calm (b b' : Browser) : Prop where
  window : b'.window = b.window
  document : b'.document = b.document
  dismissals : b'.dismissals ⊆ b.dismissals

namespace Browser.Calm

variable {b b' b'' : Browser}

theorem refl (b : Browser) : b.Calm b := ⟨rfl, rfl, List.Subset.refl _⟩

theorem trans (h : b.Calm b') (h' : b'.Calm b'') : b.Calm b'' :=
  ⟨h'.window.trans h.window, h'.document.trans h.document,
    List.Subset.trans h'.dismissals h.dismissals⟩

theorem of_timers (hwindow : b'.window = b.window) (hdocument : b'.document = b.document)
    (htimers : b'.timers ⊆ b.timers) : b.Calm b' := by
  refine ⟨hwindow, hdocument, ?_⟩
  unfold Browser.dismissals
  exact List.filterMap_subset _ htimers

theorem say (b : Browser) (level : Level) (text : String) : b.Calm (b.say level text) :=
  of_timers rfl rfl (List.Subset.refl _)

theorem modifySocket (b : Browser) (n : Nat) (f : Socket → Socket) :
    b.Calm (b.modifySocket n f) :=
  of_timers rfl rfl (List.Subset.refl _)

theorem sendOn (b : Browser) (n : Nat) (text : String) : b.Calm (b.sendOn n text).2 := by
  unfold Browser.sendOn
  split <;> exact modifySocket b n _

theorem openSocket {url : String} {owner n : Nat} (h : b.openSocket url owner = .ok (n, b')) :
    b.Calm b' := by
  unfold Browser.openSocket at h
  split at h
  · cases h
  · cases h
    exact of_timers rfl rfl (List.Subset.refl _)

theorem clearTimer (b : Browser) (id : Nat) : b.Calm (b.clearTimer id) :=
  of_timers rfl rfl (List.filter_subset_self _)

theorem expire (b : Browser) (t : Timer) : b.Calm (b.expire t) :=
  of_timers rfl rfl (List.filter_subset_self _)

theorem setTimer {delay : Int} {link t : Nat}
    (h : b.setTimer delay (.reconnect link) = .ok (t, b')) : b.Calm b' := by
  unfold Browser.setTimer at h
  split at h
  · cases h
  · cases h
    refine ⟨rfl, rfl, ?_⟩
    simp [Browser.dismissals]

end Browser.Calm

namespace Link

open Browser (Calm)

theorem calm_scheduleRetry (l : Link) (self : Nat) (b : Browser) :
    b.Calm (l.scheduleRetry self b).2 := by
  unfold scheduleRetry
  split
  · split
    · next h => exact .setTimer h
    · exact .say b _ _
  · exact .refl b

theorem calm_clearTimer (l : Link) (b : Browser) : b.Calm (l.clearTimer b).2 := by
  unfold clearTimer
  split
  · exact .refl b
  · simp only
    split
    · exact .clearTimer b _
    · exact .refl b

theorem calm_connect (l : Link) (self : Nat) (b : Browser) : b.Calm (l.connect self b).2.2 := by
  have hsay := Calm.say b .log ("Connecting to " ++ l.settings.url)
  unfold connect
  simp only
  split
  · exact hsay
  · next h => exact (hsay.trans (.openSocket h)).trans (calm_clearTimer _ _)

theorem calm_retry (l : Link) (self : Nat) (b : Browser) : b.Calm (l.retry self b).2 := by
  have hsay := Calm.say b .log
    ("Attempting reconnection (attempt " ++ toString l.attempt.toNat ++ ")")
  unfold retry
  split
  · simp only
    split
    · next h => exact hsay.trans (.openSocket h)
    · exact (hsay.trans (.say _ _ _)).trans (calm_scheduleRetry _ _ _)
  · exact .refl b

theorem calm_hear (l : Link) (b : Browser) (event : SocketEvent) :
    b.Calm (l.hear b event).2.2 := by
  cases event with
  | opened | closed | failed => exact .say b _ _
  | message text =>
    cases text with
    | none => exact .say b _ _
    | some text => exact .refl b

theorem calm_afterClose (l : Link) (self : Nat) (b : Browser) :
    b.Calm (l.afterClose self b).2 := by
  unfold afterClose
  split
  · exact .refl b
  · exact calm_scheduleRetry _ _ _

theorem calm_send (l : Link) (text : String) (b : Browser) : b.Calm (l.send text b).2 := by
  unfold send
  split
  · exact .refl b
  · split
    · exact .sendOn b _ _
    · exact .refl b

end Link

namespace Network

theorem calm_act {α : Type} (n : Network) (i : Nat) (default : α)
    {f : Link → Browser → α × Link × Browser}
    (hf : ∀ (l : Link) (b : Browser), b.Calm (f l b).2.2) :
    n.browser.Calm (n.act i default f).2.browser := by
  unfold act
  split
  · exact .refl _
  · exact hf _ _

theorem calm_send (n : Network) (i : Nat) (text : String) :
    n.browser.Calm (n.send i text).2.browser :=
  n.calm_act i _ fun l b => l.calm_send text b

theorem calm_retry (n : Network) (i : Nat) : n.browser.Calm (n.retry i).browser :=
  n.calm_act i () fun l b => l.calm_retry i b

theorem calm_connect (n : Network) (i : Nat) : n.browser.Calm (n.connect i).2.browser :=
  n.calm_act i _ fun l b => l.calm_connect i b

theorem calm_hear (n : Network) (s : Nat) (event : SocketEvent) :
    n.browser.Calm (n.hear s event).2.browser := by
  unfold hear
  split
  · exact .refl _
  · exact n.calm_act _ _ fun l b => l.calm_hear b event

theorem calm_afterClose (n : Network) (s : Nat) :
    n.browser.Calm (n.afterClose s).browser := by
  unfold afterClose
  split
  · exact .refl _
  · exact n.calm_act _ _ fun l b => l.calm_afterClose _ b

end Network

/-- Showing a notice does not take the page away. -/
theorem Notice.display_window (kind : NoticeKind) (text : String) (d : Page.Document Handler)
    (b : Browser) : (display kind text d b).2.window = b.window ∧
      (display kind text d b).2.document = b.document := by
  unfold display
  split
  · split
    · exact ⟨rfl, rfl⟩
    · split
      · exact ⟨rfl, rfl⟩
      · simp only
        split
        · next hset =>
          unfold Browser.setTimer at hset
          split at hset
          · cases hset
          · cases hset
            exact ⟨rfl, rfl⟩
        · exact ⟨rfl, rfl⟩
  · exact ⟨rfl, rfl⟩

namespace Shell

/-- A shell has a page that shows something of a panel, with given controls as latched. -/
structure Displays (typed : List Nat) (latched : Control → Bool) (D : Display) (s : Shell) :
    Prop where
  window : s.browser.window = true
  document : s.browser.document = true
  shows : ∃ view, s.view = some view ∧ Shows s.browser.dismissals latched typed D.shown.area
    D.editor { document := s.document, view }

namespace Displays

variable {typed : List Nat} {latched : Control → Bool} {D : Display} {s : Shell} {p : Panel}

theorem withNetwork (h : s.Displays typed latched D) {n : Network}
    (hn : s.browser.Calm n.browser) : Displays typed latched D { s with network := n } := by
  obtain ⟨view, hview, hshows⟩ := h.shows
  exact ⟨hn.window.trans h.window, hn.document.trans h.document, view, hview,
    hshows.mono hn.dismissals⟩

theorem send (h : s.Displays typed latched D) (r : Request) :
    (s.send r).2.Displays typed latched D := by
  unfold Shell.send
  split
  · exact h
  · next i _ => exact h.withNetwork (s.network.calm_send i r.text)

theorem notify (h : s.Displays typed latched D) (kind : NoticeKind) (text : String) :
    (s.notify kind text).Displays typed latched D := by
  obtain ⟨view, hview, hshows⟩ := h.shows
  obtain ⟨hwindow, hdocument⟩ := Notice.display_window kind text s.document s.browser
  exact ⟨hwindow.trans h.window, hdocument.trans h.document, view, hview,
    hshows.display h.window h.document kind text⟩

theorem hasDocument (h : s.Displays typed latched D) : s.hasDocument = true := by
  rw [Shell.hasDocument, h.window, h.document]
  rfl

/-- Drawing on the page. -/
theorem draw_of (h : s.Displays typed latched D) {latched' : Control → Bool} {D' : Display}
    {part : Drawing}
    (hdraw : ∀ c, Shows s.browser.dismissals latched typed D.shown.area D.editor c →
      Shows s.browser.dismissals latched' typed D'.shown.area D'.editor (c.draw p part)) :
    (s.draw p part).Displays typed latched' D' := by
  obtain ⟨view, hview, hshows⟩ := h.shows
  unfold Shell.draw
  rw [h.hasDocument, if_pos rfl, hview]
  exact ⟨h.window, h.document, _, rfl, hdraw _ hshows⟩

theorem draw (h : s.Displays typed p.latches.isLatched D) (hp : p.Distinct) {part : Drawing}
    (hpart : ∀ control b, part ≠ .control control b) :
    (s.draw p part).Displays typed p.latches.isLatched (D.draw p part) :=
  h.draw_of fun _ hshows => hshows.draw hp hpart

theorem drawControl (h : s.Displays typed latched D) (p : Panel) (control : Control) (b : Bool) :
    (s.draw p (.control control b)).Displays typed (Function.update latched control b) D :=
  h.draw_of fun _ hshows => hshows.drawControl control b

/-- Showing controls as latched or free. -/
theorem performDraws (h : s.Displays typed latched D) (p : Panel) (draws : List (Control × Bool)) :
    ∃ s', (draws.map Effect.ofDraw).foldl (RosterPanel.perform host) (p, s) = (p, s') ∧
      s'.Displays typed (redraw latched draws) D := by
  induction draws generalizing s latched with
  | nil => exact ⟨s, rfl, h⟩
  | cons d rest ih =>
    rw [List.map_cons, List.foldl_cons]
    exact ih (h.drawControl p d.1 d.2)

/-- A request could not be sent: the oldest control that waits for one of its kind is freed. -/
theorem fail (h : s.Displays typed p.latches.isLatched D) (hp : p.latches.controls.Nodup)
    (r : Request) (e : LinkError) :
    ∃ l s', dispatch host (.ofLinkError r e) (p, s) = ({ p with latches := l }, s') ∧
      l.controls.Nodup ∧ s'.Displays typed l.isLatched D := by
  have hnodup := (p.latchStep_react (.ofLinkError r e)).nodup hp
  have hreact : p.react (.ofLinkError r e) =
      ({ p with latches := (p.latches.releaseVerb r.verb).2 },
      (p.latches.releaseVerb r.verb).1.toList.map .free ++
        [.notify .error (r.verb.name ++ " failed: " ++ e.message)]) := rfl
  rw [dispatch_eq]
  rw [hreact] at hnodup ⊢
  rcases p.latches.releaseFirst_cases (·.verb == r.verb) with
    ⟨heq, -⟩ | ⟨before, a, after, hpending, -, -, heq⟩
  · simp only [Latches.releaseVerb, heq] at hnodup ⊢
    exact ⟨p.latches, _, rfl, hnodup, h.notify _ _⟩
  · simp only [Latches.releaseVerb, heq] at hnodup ⊢
    refine ⟨⟨before ++ after⟩, _, rfl, hnodup, notify ?_ _ _⟩
    rw [Latches.isLatched_taken hp hpending]
    exact h.drawControl _ _ _

/-- Carrying out an effect that chains nothing and shows no control as latched or free. -/
theorem perform (h : s.Displays typed p.latches.isLatched D) (hp : p.Distinct) {e : Effect}
    (hchain : ∀ m, e ≠ .chain m) (hspares : e.SparesControls) :
    ∃ l s', RosterPanel.perform host (p, s) e = ({ p with latches := l }, s') ∧
      l.controls.Nodup ∧ s'.Displays typed l.isLatched (D.take p e) := by
  cases e with
  | chain m => exact absurd rfl (hchain m)
  | draw part =>
    refine ⟨p.latches, _, rfl, hp.latches, h.draw hp fun control b => ?_⟩
    rintro rfl
    exact hspares (control, b) rfl
  | notify kind text => exact ⟨p.latches, _, rfl, hp.latches, h.notify kind text⟩
  | send r =>
    have hsent := h.send r
    cases hresult : s.send r with
    | mk result s' =>
      rw [hresult] at hsent
      cases result with
      | ok _ =>
        refine ⟨p.latches, s', ?_, hp.latches, hsent⟩
        simp only [RosterPanel.perform, host, hresult]
      | error error =>
        obtain ⟨l, s'', hdispatch, hl, hshown⟩ := hsent.fail hp.latches r error
        refine ⟨l, s'', ?_, hl, hshown⟩
        simp only [RosterPanel.perform, host, hresult] at hdispatch ⊢
        exact hdispatch

/-- Carrying out effects that chain nothing and show no control as latched or free. -/
theorem performAll {es : List Effect} (h : s.Displays typed p.latches.isLatched D)
    (hp : p.Distinct) (hes : ∀ e ∈ es, (∀ m, e ≠ .chain m) ∧ e.SparesControls) :
    ∃ l s', es.foldl (RosterPanel.perform host) (p, s) = ({ p with latches := l }, s') ∧
      l.controls.Nodup ∧ s'.Displays typed l.isLatched (es.foldl (Display.take p) D) := by
  induction es generalizing p s D with
  | nil => exact ⟨p.latches, s, rfl, hp.latches, h⟩
  | cons e rest ih =>
    rw [List.forall_mem_cons] at hes
    obtain ⟨l, s', hperform, hl, hshown⟩ := h.perform hp hes.1.1 hes.1.2
    obtain ⟨l', s'', hrest, hl', hshown'⟩ :=
      ih (p := { p with latches := l }) hshown (hp.withLatches hl) hes.2
    rw [List.foldl_cons, hperform]
    exact ⟨l', s'', hrest, hl', hshown'⟩

end Displays

end Shell

end RosterPanel
