import RosterPanel.Proofs.Handling

/-!
# Runs of the application

Everything that can happen to an application once it has been started, one thing after the other.
Results:

* `Happening`, `App.happen`, `App.runAll`: what happens, and a run of it.
* `App.fire_induct`, `App.tick_induct`: what is needed to see that a gesture or the passing of
  time keeps something.
* `App.tame_happen`: whatever happens, the listeners on the page do nothing but hand on gestures, if
  they did nothing else before.
-/

namespace RosterPanel

/-- Something that happens to an application from outside. -/
inductive Happening
  /-- Something happens on a socket. -/
  | socket (n : Nat) (event : SocketEvent)
  /-- A frame is handed over without a socket. -/
  | receive (frame : Frame)
  | refreshGroups
  | refreshUsers
  | refreshGroup (groupId : String)
  /-- An event hits an element on the page. -/
  | gesture (target : Nat) (g : Gesture)
  /-- A text is put into an input field. -/
  | fill (n : Nat) (text : String)
  /-- The timer at a place among the pending ones fires. -/
  | timer (i : Nat)
  | tick (ms : Nat)
  /-- From now on opening a socket throws, or works again. -/
  | refuse (error : Option String)
  /-- From now on a socket throws this on sending and closing. -/
  | obstruct (n : Nat) (sendErrors : List (Option String)) (sendError closeError : Option String)

/-- A page with nothing on it. -/
def Page.Document.blank {H : Type} : Page.Document H where
  head := some (.element { mark := 0, tag := "head" } [])
  body := some (.element { mark := 1, tag := "body" } [])
  fresh := 2

/-- Whether there are no listeners on a page yet. -/
def Page.Document.Silent {H : Type} (d : Page.Document H) : Prop := d.Only fun _ => False

theorem Page.Document.silent_blank {H : Type} : (blank : Document H).Silent := by
  intro node hnode
  have hnode : node = .element { mark := 0, tag := "head" } [] ∨
      node = .element { mark := 1, tag := "body" } [] := by
    simpa [blank, trees] using hnode
  rcases hnode with rfl | rfl <;> simp

/-- A timer that is due is pending. -/
theorem Browser.mem_timers_of_nextDue? {b : Browser} {limit : Nat} {t : Timer}
    (h : b.nextDue? limit = some t) : t ∈ b.timers := by
  have hearlier : ∀ s t, earlier s t = s ∨ earlier s t = t := by
    intro s t
    unfold earlier
    split
    · exact Or.inr rfl
    · exact Or.inl rfl
  have hfold : ∀ (l : List Timer) (first : Timer), l.foldl earlier first ∈ first :: l := by
    intro l
    induction l with
    | nil => exact fun first => List.mem_singleton.2 rfl
    | cons s rest ih =>
      intro first
      rcases List.mem_cons.1 (ih (earlier first s)) with h | h
      · rw [List.foldl_cons, h]
        rcases hearlier first s with h | h <;> simp [h]
      · exact List.mem_cons_of_mem _ (List.mem_cons_of_mem _ h)
  unfold nextDue? at h
  split at h
  · cases h
  · next first rest heq =>
    have hmem : t ∈ b.timers.filter (·.due ≤ limit) := by
      rw [heq, ← Option.some.inj h]
      exact hfold rest first
    exact (List.mem_filter.1 hmem).1

namespace App

/-- An application before its start, in a browser that shows a page. -/
def unstarted (words : Words) (b : Browser) (d : Page.Document Handler)
    (endpoint : Option Endpoint) : App where
  panel := Panel.fresh words
  shell := { network := { browser := b }, document := d, endpoint }

/-- An application after something has happened. -/
def happen (a : App) : Happening → App
  | .socket n event => a.socketEvent n event
  | .receive frame => a.receive frame
  | .refreshGroups => a.post .refreshGroups
  | .refreshUsers => a.post .refreshUsers
  | .refreshGroup groupId => a.post (.refreshGroup groupId)
  | .gesture target g => (a.fire target g).app
  | .fill n text => a.fill n text
  | .timer i =>
    match a.shell.browser.timers[i]? with
    | some t => Networked.fire run t a
    | none => a
  | .tick ms => a.tick ms
  | .refuse error => Networked.setBrowser (fun b => { b with socketError := error }) a
  | .obstruct n sendErrors sendError closeError =>
    Networked.setBrowser
      (·.modifySocket n fun x => { x with sendErrors, sendError, closeError }) a

def runAll (a : App) (xs : List Happening) : App := xs.foldl happen a

/-- An application that has been started once, when some things have happened since. -/
def afterStart (words : Words) (b : Browser) (d : Page.Document Handler)
    (endpoint : Option Endpoint) (xs : List Happening) : App :=
  (unstarted words b d endpoint).start.2.runAll xs

/-- An application whose network has become another one. -/
def withNetwork (a : App) (n : Network) : App := { a with shell := { a.shell with network := n } }

/-- What is left of an application when what a link tells, if anything, has been taken. -/
def heed (a : App) : Option Signal → App
  | some signal => a.told signal
  | none => a

theorem socketEvent_eq (a : App) (n : Nat) (event : SocketEvent) :
    a.socketEvent n event =
      let heard := a.shell.network.hear n event
      let a := (a.withNetwork heard.2).heed heard.1
      if event = .closed then a.withNetwork (a.shell.network.afterClose n) else a := by
  rfl

/-! ## Gestures -/

section Gesture

variable {P : App → Prop}

/-- What is needed to see that a gesture keeps something. -/
structure OnGesture (P : App → Prop) : Prop where
  post : ∀ a m, m.IsGesture → P a → P (a.post m)
  addHover : ∀ a n, P a → P (a.adjust n (·.addClass Handler.hoverClass))
  removeHover : ∀ a n, P a → P (a.adjust n (·.removeClass Handler.hoverClass))
  say : ∀ a level text, P a → P (a.say level text)
  ask : ∀ (a : App) asked, P a → P { a with shell := { a.shell with asked } }

theorem OnGesture.handle (hon : OnGesture P) {h : Handler} (htame : h.Tame) (g : Gesture)
    (target self : Nat) {f : Firing} (hf : P f.app) : P (f.handle g target self h).app := by
  unfold Firing.handle
  split
  · exact hf
  cases h with
  | post m => exact hon.post _ m htame hf
  | control m question =>
    simp only
    split
    · exact hf
    · cases question with
      | none => exact hon.post _ m htame hf
      | some q =>
        have hasked : P (f.ask q g.answer).2.app := by
          unfold Firing.ask
          simp only
          split
          · exact hon.ask _ _ hf
          · exact hf
        simp only
        split
        · exact hon.post _ m htame hasked
        · exact hasked
  | carryUser userId => exact hf
  | hover =>
    simp only
    split
    · exact hon.addHover _ _ hf
    · exact hf
  | leave => exact hon.removeHover _ _ hf
  | dropOn groupId =>
    have hleft := hon.removeHover f.app self hf
    simp only
    split
    · exact hon.post _ _ trivial hleft
    · exact hon.say _ _ _ hleft
  | commit id key =>
    simp only
    split
    · exact hon.post _ _ trivial hf
    · exact hf

theorem fire_induct (hon : OnGesture P) {a : App} (htame : a.shell.Tame) (target : Nat)
    (g : Gesture) (ha : P a) : P (a.fire target g).app := by
  have hall : ∀ (listeners : List (Nat × Handler)) (f : Firing),
      (∀ l ∈ listeners, l.2.Tame) → P f.app →
        P (listeners.foldl (fun f l => f.handle g target l.1 l.2) f).app := by
    intro listeners
    induction listeners with
    | nil => exact fun _ _ hf => hf
    | cons l rest ih =>
      intro f hl hf
      rw [List.forall_mem_cons] at hl
      exact ih _ hl.2 (hon.handle hl.1 g target l.1 hf)
  refine hall _ _ ?_ ha
  intro l hl
  obtain ⟨e, he, hl⟩ := List.mem_flatMap.1 hl
  obtain ⟨listener, hlistener, rfl⟩ := List.mem_map.1 hl
  exact htame.path he listener (List.mem_filter.1 hlistener).1

end Gesture

/-! ## Time -/

theorem tick_induct {P : App → Prop}
    (hfire : ∀ (a : App) t, t ∈ a.shell.browser.timers → P a → P (Networked.fire run t a))
    (hclock : ∀ (a : App) now, P a → P (Networked.setBrowser (fun b => { b with now }) a))
    {a : App} (ms : Nat) (ha : P a) : P (a.tick ms) := by
  have hdue : ∀ (limit most : Nat) (a : App), P a → P (Networked.fireDue run limit most a) := by
    intro limit most
    induction most with
    | zero => exact fun _ h => h
    | succ most ih =>
      intro a h
      unfold Networked.fireDue
      split
      · exact h
      · next t ht => exact ih _ (hfire a t (Browser.mem_timers_of_nextDue? ht) h)
  exact hclock _ _ (hdue _ _ _ ha)

/-! ## What listeners do -/

/-- A start lays out the page and then connects, unless the page could not be laid out. -/
theorem start_cases (a : App) :
    a.start.2 = a.mount.2 ∨ a.start.2 = a.mount.2.connect.2 := by
  unfold start
  split
  · next heq => exact Or.inr (by rw [heq])
  · exact Or.inl rfl

theorem tame_start {a : App} (h : a.shell.Tame) : a.start.2.shell.Tame := by
  have hmount : a.mount.2.shell.Tame := Shell.tame_mount h
  rcases a.start_cases with heq | heq
  · rw [heq]
    exact hmount
  · rw [heq]
    show Shell.Tame (Shell.connect _).2
    unfold Shell.connect
    split <;> exact hmount

theorem tame_post {a : App} (m : Message) (h : a.shell.Tame) : (a.post m).shell.Tame := by
  have hkept : Kept Shell.host (fun _ => True) (fun _ s => s.Tame) := by
    refine Kept.of_world (fun s r hs => ?_) (fun p s part hs => Shell.tame_draw hs p part)
      fun s kind text hs => Shell.tame_notify hs kind text
    show (s.send r).2.Tame
    unfold Shell.send
    split <;> exact hs
  exact hkept.dispatch trivial h

theorem tame_told {a : App} (signal : Signal) (h : a.shell.Tame) : (a.told signal).shell.Tame := by
  cases signal with
  | connected => exact tame_post _ h
  | disconnected => exact tame_post _ h
  | received text =>
    unfold told
    simp only
    split
    · exact tame_post _ h
    · exact h

theorem tame_fire_timer {a : App} (t : Timer) (h : a.shell.Tame) :
    (Networked.fire run t a).shell.Tame := by
  show (Shell.run t.task (Networked.setBrowser (·.expire t) a).shell).Tame
  unfold Shell.run
  split
  · exact h
  · exact Page.Document.Only.detach h _

/-- Listeners stay tame whatever happens. -/
theorem tame_happen {a : App} (x : Happening) (h : a.shell.Tame) : (a.happen x).shell.Tame := by
  cases x with
  | socket n event =>
    rw [happen, socketEvent_eq]
    have hheed : ∀ signal,
        ((a.withNetwork (a.shell.network.hear n event).2).heed signal).shell.Tame := by
      rintro (_ | signal)
      · exact h
      · exact tame_told signal h
    simp only
    split
    · exact hheed _
    · exact hheed _
  | receive frame =>
    show (a.receive frame).shell.Tame
    unfold receive
    split
    · exact tame_post _ h
    · exact h
  | refreshGroups => exact tame_post _ h
  | refreshUsers => exact tame_post _ h
  | refreshGroup groupId => exact tame_post _ h
  | gesture target g =>
    have hon : OnGesture fun a => a.shell.Tame :=
      { post := fun _ m _ h => tame_post m h
        addHover := fun _ n h =>
          Page.Document.Only.adjustElement h n fun e => e.listeners_addClass _
        removeHover := fun _ n h =>
          Page.Document.Only.adjustElement h n fun e => e.listeners_removeClass _
        say := fun _ _ _ h => h
        ask := fun _ _ h => h }
    exact fire_induct hon h target g h
  | fill n text => exact Page.Document.Only.adjustElement h n fun e => e.listeners_fill text
  | timer i =>
    simp only [happen]
    split
    · exact tame_fire_timer _ h
    · exact h
  | tick ms =>
    show (a.tick ms).shell.Tame
    exact tick_induct (P := fun a => a.shell.Tame) (fun _ t _ h => tame_fire_timer t h)
      (fun _ _ h => h) ms h
  | refuse error => exact h
  | obstruct n sendErrors sendError closeError => exact h

theorem tame_unstarted (words : Words) (b : Browser) {d : Page.Document Handler} (hd : d.Silent)
    (endpoint : Option Endpoint) : (unstarted words b d endpoint).shell.Tame :=
  fun node hnode x hx => (hd node hnode x hx).elim

end App

end RosterPanel
