import RosterPanel.Network

/-!
# Sessions of a link

A link in a browser, driven from outside: calls, events on its sockets, timers, and errors that the
browser begins or ceases to throw. A session also keeps what is known of the sockets, so that it
can be said which events are possible.

* `Session.step`, `Session.run`: what an event does, and a run of events.
* `LinkEvent.Possible`, `Session.Legal`: the order that sockets and timers keep to.
* `LinkEvent.casesOnKind`: the kinds of events, for case splits.
* `Browser.outline`: the parts of a browser that decide what becomes of a link; sending, saying and
  the like leave it alone.
* `Link.timers_clearTimer`, `scheduleRetry_of_ticking`, `retry_of_open`, `retry_of_error`,
  `close_eq`: what a link does about its timers, when one of them fires, and when it is closed.
* `Session.step_fire`, `step_opened`, `step_ended`, `step_lost`, `step_close`, `step_talk`: what the
  events do to a session of one link.
-/

namespace RosterPanel

/-- Something that happens to a link. -/
inductive LinkEvent
  | connect
  | close
  | send (text : String)
  /-- Something happens on a socket; what the link tells is answered by sending some texts. -/
  | socket (n : Nat) (event : SocketEvent) (replies : List String)
  /-- A timer fires. -/
  | fire (t : Timer)
  /-- From now on opening a socket throws, or works again. -/
  | refuse (error : Option String)
  /-- From now on a socket throws this on sending and closing. -/
  | obstruct (n : Nat) (sendErrors : List (Option String)) (sendError closeError : Option String)

/-- A link at work, and what is known of the sockets. -/
structure Session where
  network : Network
  /-- The sockets that have opened. -/
  opened : List Nat := []
  /-- The sockets that have closed. -/
  ended : List Nat := []
  /-- The sockets that were told to close from this side. -/
  shut : List Nat := []

namespace Session

def browser (s : Session) : Browser := s.network.browser

def link? (s : Session) : Option Link := s.network.links[0]?

/-- How many sockets have been opened so far. -/
def created (s : Session) : Nat := s.browser.sockets.length

/-- Whether a socket is there and has not closed. -/
def Live (s : Session) (n : Nat) : Prop := n < s.created ∧ n ∉ s.ended

/-- The pending timers that were set to connect again. -/
def retries (s : Session) : List Timer :=
  s.browser.timers.filter fun t => t.task = .reconnect 0

/-- Sends texts over the link. -/
def answer (texts : List String) (n : Network) : Network :=
  texts.foldl (fun n text => (n.send 0 text).2) n

/-- Does what a timer was set for; a page has no part in a session. -/
def carryOut (task : Task) (n : Network) : Network :=
  match task with
  | .reconnect i => n.retry i
  | .dismiss _ => n

/-- A session after an event. -/
def step (s : Session) : LinkEvent → Session
  | .connect => { s with network := (s.network.connect 0).2 }
  | .close => { s with
      network := (s.network.close 0).2
      shut := (s.link?.bind (·.socket)).toList ++ s.shut }
  | .send text => { s with network := (s.network.send 0 text).2 }
  | .socket n event replies => { s with
      network := Networked.socketEvent (fun _ => answer replies) n event s.network
      opened := if event = .opened then n :: s.opened else s.opened
      ended := if event = .closed then n :: s.ended else s.ended }
  | .fire t => { s with network := Networked.fire carryOut t s.network }
  | .refuse error => { s with
      network := Networked.setBrowser (fun b => { b with socketError := error }) s.network }
  | .obstruct n sendErrors sendError closeError => { s with
      network := Networked.setBrowser
        (·.modifySocket n fun x => { x with sendErrors, sendError, closeError }) s.network }

def run (s : Session) (events : List LinkEvent) : Session := events.foldl step s

/-- A new link in a browser. -/
def fresh (settings : LinkSettings) (b : Browser) : Session where
  network := (({ browser := b } : Network).addLink settings).2

end Session

/-- Whether an event can happen: on a socket that is there nothing happens behind its close, and it
opens at most once, and not when it has been told to close; a timer fires while it is pending. -/
def LinkEvent.Possible (s : Session) : LinkEvent → Prop
  | .socket n event _ => s.Live n ∧ (event = .opened → n ∉ s.opened ∧ n ∉ s.shut)
  | .fire t => t ∈ s.browser.timers
  | _ => True

/-- Whether an event is nothing but talk: it changes at most texts, and errors that are thrown
later. -/
def LinkEvent.IsTalk : LinkEvent → Prop
  | .send _ | .refuse _ | .obstruct _ _ _ _ => True
  | .socket _ event _ => event ≠ .opened ∧ event ≠ .closed
  | .connect | .close | .fire _ => False

/-- The kinds of events that have to be told apart. -/
@[elab_as_elim]
theorem LinkEvent.casesOnKind {motive : LinkEvent → Prop} (e : LinkEvent)
    (talk : ∀ e, e.IsTalk → motive e) (connect : motive .connect) (close : motive .close)
    (fire : ∀ t, motive (.fire t)) (opened : ∀ n replies, motive (.socket n .opened replies))
    (closed : ∀ n replies, motive (.socket n .closed replies)) : motive e := by
  cases e with
  | connect => exact connect
  | close => exact close
  | fire t => exact fire t
  | send | refuse | obstruct => exact talk _ trivial
  | socket n event replies =>
    by_cases hopened : event = .opened
    · exact hopened ▸ opened n replies
    · by_cases hclosed : event = .closed
      · exact hclosed ▸ closed n replies
      · exact talk _ ⟨hopened, hclosed⟩

namespace Session

/-- Whether every event of a run can happen when it does. -/
def Legal (s : Session) : List LinkEvent → Prop
  | [] => True
  | e :: rest => e.Possible s ∧ (s.step e).Legal rest

theorem run_cons (s : Session) (e : LinkEvent) (rest : List LinkEvent) :
    s.run (e :: rest) = (s.step e).run rest := rfl

theorem run_append (s : Session) (es fs : List LinkEvent) :
    s.run (es ++ fs) = (s.run es).run fs := List.foldl_append

theorem Legal.append {s : Session} {es fs : List LinkEvent} (h : s.Legal (es ++ fs)) :
    s.Legal es ∧ (s.run es).Legal fs := by
  induction es generalizing s with
  | nil => exact ⟨trivial, h⟩
  | cons e rest ih => exact ⟨⟨h.1, (ih h.2).1⟩, (ih h.2).2⟩

end Session

/-! ## The outline of a browser -/

namespace Browser

/-- The timers, the owners of the sockets, and whether timers can be set. -/
def outline (b : Browser) : List Timer × List Nat × Bool × Option String :=
  (b.timers, b.sockets.map (·.owner), b.window, b.timerError)

/-- Whether timers can be set. -/
def Ticking (b : Browser) : Prop := b.window = true ∧ b.timerError = none

instance (b : Browser) : Decidable b.Ticking := inferInstanceAs (Decidable (_ ∧ _))

theorem outline_modifySocket (b : Browser) (n : Nat) (f : Socket → Socket)
    (hf : ∀ x, (f x).owner = x.owner) : (b.modifySocket n f).outline = b.outline := by
  have howners : (b.sockets.modify n f).map (·.owner) = b.sockets.map (·.owner) := by
    refine List.ext_getElem? fun i => ?_
    rw [List.getElem?_map, List.getElem?_map, List.getElem?_modify]
    cases b.sockets[i]? with
    | none => rfl
    | some x => by_cases h : n = i <;> simp [h, hf]
  simp [outline, modifySocket, howners]

@[simp] theorem outline_sendOn (b : Browser) (n : Nat) (text : String) :
    (b.sendOn n text).2.outline = b.outline := by
  unfold sendOn
  split <;> exact outline_modifySocket _ _ _ fun _ => rfl

theorem outline_closeSocket {b b' : Browser} {n code : Nat}
    (h : b.closeSocket n code = .ok b') : b'.outline = b.outline := by
  unfold closeSocket at h
  split at h
  · cases h
  · cases h
    exact outline_modifySocket _ _ _ fun _ => rfl

end Browser

@[simp] theorem Link.outline_send (l : Link) (text : String) (b : Browser) :
    (l.send text b).2.outline = b.outline := by
  unfold send
  split
  · rfl
  · split
    · exact b.outline_sendOn _ _
    · rfl

theorem Link.outline_hear (l : Link) (b : Browser) (e : SocketEvent) :
    (l.hear b e).2.2.outline = b.outline := by
  rcases e with _ | _ | _ | _ | _ <;> rfl

/-! ## Timers and retries of a link -/

namespace Link

variable (l : Link) {b : Browser}

/-- Clearing a timer touches nothing else in the browser. -/
theorem clearTimer_spares (b : Browser) :
    (l.clearTimer b).2.sockets = b.sockets ∧ (l.clearTimer b).2.window = b.window ∧
      (l.clearTimer b).2.timerError = b.timerError := by
  unfold clearTimer
  split
  · exact ⟨rfl, rfl, rfl⟩
  · split <;> exact ⟨rfl, rfl, rfl⟩

/-- Clearing the timer that is remembered leaves the others. -/
theorem timers_clearTimer (hwindow : b.window = false → b.timers = []) :
    (l.clearTimer b).2.timers = b.timers.filter fun t => l.timer != some t.id := by
  unfold clearTimer
  split
  · next htimer =>
    rw [htimer]
    exact (List.filter_eq_self.2 fun _ _ => rfl).symm
  · next t htimer =>
    cases hw : b.window with
    | true =>
      rw [htimer, if_pos rfl]
      refine List.filter_congr fun u _ => ?_
      simp [bne, BEq.comm (a := t)]
    | false => simp [hwindow hw]

/-- Where timers can be set, `scheduleRetry` adds one with the delay `delay attempt`, read as a
signed word, and remembers it. -/
theorem scheduleRetry_of_ticking (self : Nat) (h : b.Ticking) :
    ∃ t n, t.task = .reconnect self ∧
      t.delay = (l.settings.delay l.attempt).toInt32.toInt ∧
      l.scheduleRetry self b =
        ({ l with timer := some t.id }, { b with nextTimer := n, timers := b.timers ++ [t] }) := by
  obtain ⟨hwindow, htimer⟩ := h
  simp only [scheduleRetry, hwindow, if_true, Browser.setTimer, htimer]
  exact ⟨{ id := b.nextTimer, due := _, delay := _, task := .reconnect self }, _, rfl, rfl, rfl⟩

/-- Without a window, or with an error, `scheduleRetry` sets none. -/
theorem scheduleRetry_of_not_ticking (self : Nat) (h : ¬ b.Ticking) :
    ∃ b', b'.outline = b.outline ∧ l.scheduleRetry self b = (l, b') := by
  cases hwindow : b.window with
  | false => exact ⟨b, rfl, by simp [scheduleRetry, hwindow]⟩
  | true =>
    obtain ⟨e, he⟩ := Option.ne_none_iff_exists'.1 fun htimer => h ⟨hwindow, htimer⟩
    refine ⟨b.say .error ("Failed to schedule reconnection: " ++ Browser.thrown e), rfl, ?_⟩
    simp [scheduleRetry, hwindow, Browser.setTimer, he]

/-- Connecting again opens a socket, if one can be opened. -/
theorem retry_of_open (hphase : l.phase = .disconnected) (hopen : b.socketError = none) :
    ∃ b', b'.sockets = b.sockets ++ [{ url := l.settings.url, owner := 0 }] ∧
      b'.timers = b.timers ∧ b'.window = b.window ∧ b'.timerError = b.timerError ∧
      l.retry 0 b = ({ l with phase := .connecting, socket := some b.sockets.length }, b') := by
  refine ⟨{ b.say .log ("Attempting reconnection (attempt " ++ toString l.attempt.toNat ++ ")") with
    sockets := b.sockets ++ [{ url := l.settings.url, owner := 0 }] }, rfl, rfl, rfl, rfl, ?_⟩
  simp [retry, hphase, Browser.openSocket, Browser.say, hopen]

/-- A connect that can open no socket changes the link all the same. -/
theorem connect_of_error {e : String} (hopen : b.socketError = some e) :
    l.connect 0 b = (.error (.socket (Browser.thrown e)),
      { l with attempt := 0, retired := false, phase := .connecting },
      b.say .log ("Connecting to " ++ l.settings.url)) := by
  simp [connect, Browser.openSocket, Browser.say, hopen]

/-- If none can be opened, a timer is set once more. -/
theorem retry_of_error (hphase : l.phase = .disconnected) {e : String}
    (hopen : b.socketError = some e) :
    ∃ b', b'.outline = b.outline ∧
      l.retry 0 b = Link.scheduleRetry { l with attempt := l.attempt + 1 } 0 b' := by
  refine ⟨(b.say .log
    ("Attempting reconnection (attempt " ++ toString l.attempt.toNat ++ ")")).say .error
    ("Failed to create WebSocket during reconnect: " ++ Browser.thrown e), rfl, ?_⟩
  simp [retry, hphase, Browser.openSocket, Browser.say, hopen]

/-! ### Closing -/

theorem clearTimer_fst (b : Browser) : (l.clearTimer b).1 = { l with timer := none } := by
  unfold clearTimer
  split
  · next h => rw [← h]
  · rfl

/-- What `close` makes of a link, whether or not its socket can be told to close. -/
def laid : Link :=
  { l with timer := none, retired := true, phase := .disconnected, socket := none }

theorem close_eq (b : Browser) :
    ∃ result b', b'.outline = (l.clearTimer b).2.outline ∧ l.close b = (result, l.laid, b') := by
  unfold close
  simp only [clearTimer_fst]
  split
  · exact ⟨_, _, rfl, rfl⟩
  · split
    · next hclose => exact ⟨_, _, Browser.outline_closeSocket hclose, rfl⟩
    · exact ⟨_, _, rfl, rfl⟩

end Link

/-! ## A network with one link -/

namespace Network

variable (l : Link) (b : Browser)

theorem send_single (text : String) :
    ((⟨b, [l]⟩ : Network).send 0 text).2 = ⟨(l.send text b).2, [l]⟩ := rfl

/-- Answering leaves the link and the outline of its browser as they are. -/
theorem answer_single (texts : List String) :
    ∃ b', Session.answer texts ⟨b, [l]⟩ = ⟨b', [l]⟩ ∧ b'.outline = b.outline := by
  induction texts generalizing b with
  | nil => exact ⟨b, rfl, rfl⟩
  | cons text rest ih =>
    obtain ⟨b', hb', houtline⟩ := ih (l.send text b).2
    exact ⟨b', hb', houtline.trans (l.outline_send text b)⟩

theorem owner?_eq (n : Network) (s : Nat) :
    n.owner? s = (n.browser.sockets.map (·.owner))[s]? := by
  rw [owner?, List.getElem?_map]

theorem hear_single {n : Nat} (hn : (b.sockets.map (·.owner))[n]? = some 0) (e : SocketEvent) :
    (⟨b, [l]⟩ : Network).hear n e =
      ((l.hear b e).1, ⟨(l.hear b e).2.2, [(l.hear b e).2.1]⟩) := by
  rw [hear, owner?_eq, hn]
  rfl

theorem afterClose_single {n : Nat} (hn : (b.sockets.map (·.owner))[n]? = some 0) :
    (⟨b, [l]⟩ : Network).afterClose n = ⟨(l.afterClose 0 b).2, [(l.afterClose 0 b).1]⟩ := by
  rw [afterClose, owner?_eq, hn]
  rfl

/-- What is left of a network when what a link told has been answered. -/
def heeded (told : Signal → Network → Network) : Option Signal × Network → Network
  | (some signal, n) => told signal n
  | (none, n) => n

theorem socketEvent_eq (told : Signal → Network → Network) (n : Network) (s : Nat)
    (e : SocketEvent) :
    Networked.socketEvent told s e n =
      if e = .closed then (heeded told (n.hear s e)).afterClose s
      else heeded told (n.hear s e) := by
  unfold Networked.socketEvent heeded
  rcases n.hear s e with ⟨_ | signal, m⟩ <;> rfl

/-- An event on a socket of the link: what the link makes of it, then the answers to what it tells,
then a retry if the socket has closed. -/
theorem socketEvent_single {n : Nat} (hn : (b.sockets.map (·.owner))[n]? = some 0)
    (e : SocketEvent) (replies : List String) :
    ∃ b', b'.outline = b.outline ∧
      Networked.socketEvent (fun _ => Session.answer replies) n e (⟨b, [l]⟩ : Network) =
        if e = .closed then
          ⟨((l.hear b e).2.1.afterClose 0 b').2, [((l.hear b e).2.1.afterClose 0 b').1]⟩
        else ⟨b', [(l.hear b e).2.1]⟩ := by
  have hb := l.outline_hear b e
  obtain ⟨b', hheeded, houtline⟩ : ∃ b',
      heeded (fun _ => Session.answer replies) ((⟨b, [l]⟩ : Network).hear n e) =
        ⟨b', [(l.hear b e).2.1]⟩ ∧ b'.outline = b.outline := by
    rw [hear_single l b hn e]
    cases (l.hear b e).1 with
    | some _ =>
      obtain ⟨b', hb', houtline⟩ := answer_single (l.hear b e).2.1 (l.hear b e).2.2 replies
      exact ⟨b', hb', houtline.trans hb⟩
    | none => exact ⟨_, rfl, hb⟩
  have howners : b'.sockets.map (·.owner) = b.sockets.map (·.owner) := congrArg (·.2.1) houtline
  refine ⟨b', houtline, ?_⟩
  rw [socketEvent_eq, hheeded, afterClose_single _ _ (howners ▸ hn)]

end Network

/-! ## Steps of one link -/

namespace Session

variable {s : Session} {l : Link} {b : Browser}

/-- When a timer to connect again fires, the link tries again in a browser without that timer. -/
theorem step_fire (hnetwork : s.network = ⟨b, [l]⟩) {t : Timer} (htask : t.task = .reconnect 0) :
    s.step (.fire t) = { s with
      network := ⟨(l.retry 0 (b.expire t)).2, [(l.retry 0 (b.expire t)).1]⟩ } := by
  simp only [step, Networked.fire, htask, carryOut, hnetwork]
  rfl

/-- A socket opens. -/
theorem step_opened (hnetwork : s.network = ⟨b, [l]⟩) {n : Nat}
    (howner : (b.sockets.map (·.owner))[n]? = some 0) (replies : List String) :
    ∃ b', b'.outline = b.outline ∧ s.step (.socket n .opened replies) = { s with
      network := ⟨b', [{ l with phase := .connected, attempt := 0 }]⟩
      opened := n :: s.opened } := by
  obtain ⟨b', hb', hsocket⟩ := Network.socketEvent_single l b howner .opened replies
  refine ⟨b', hb', ?_⟩
  simpa [step, hnetwork, Link.hear] using hsocket

/-- A socket closes that was closed from this side. -/
theorem step_ended (hnetwork : s.network = ⟨b, [l]⟩) {n : Nat}
    (howner : (b.sockets.map (·.owner))[n]? = some 0) (hretired : l.retired = true)
    (replies : List String) :
    ∃ b', b'.outline = b.outline ∧ s.step (.socket n .closed replies) = { s with
      network := ⟨b', [{ l with phase := .disconnected }]⟩
      ended := n :: s.ended } := by
  obtain ⟨b', hb', hsocket⟩ := Network.socketEvent_single l b howner .closed replies
  refine ⟨b', hb', ?_⟩
  simpa [step, hnetwork, Link.hear, Link.afterClose, hretired] using hsocket

/-- A socket closes otherwise, and a timer is set to connect again. -/
theorem step_lost (hnetwork : s.network = ⟨b, [l]⟩) {n : Nat}
    (howner : (b.sockets.map (·.owner))[n]? = some 0) (hworking : l.retired = false)
    (replies : List String) :
    let lost : Link := { l with phase := .disconnected, attempt := l.attempt + 1 }
    ∃ b', b'.outline = b.outline ∧ s.step (.socket n .closed replies) = { s with
      network := ⟨(lost.scheduleRetry 0 b').2, [(lost.scheduleRetry 0 b').1]⟩
      ended := n :: s.ended } := by
  intro lost
  obtain ⟨b', hb', hsocket⟩ := Network.socketEvent_single l b howner .closed replies
  refine ⟨b', hb', ?_⟩
  simpa [step, hnetwork, Link.hear, Link.afterClose, hworking, lost] using hsocket

/-- What a close from this side leaves of a session. -/
theorem step_close (hnetwork : s.network = ⟨b, [l]⟩) :
    ∃ b', b'.outline = (l.clearTimer b).2.outline ∧
      s.step .close = { s with
        network := ⟨b', [l.laid]⟩
        shut := l.socket.toList ++ s.shut } := by
  obtain ⟨result, b', hb', hclose⟩ := l.close_eq b
  refine ⟨b', hb', ?_⟩
  simp only [step, Session.link?, hnetwork, Network.close, Network.act]
  simp [hclose]

/-- Talk changes the browser only, and not its outline. -/
theorem step_talk (hnetwork : s.network = ⟨b, [l]⟩)
    (howner : ∀ n, s.Live n → (b.sockets.map (·.owner))[n]? = some 0) {e : LinkEvent}
    (he : e.IsTalk) (hpossible : e.Possible s) :
    ∃ b', b'.outline = b.outline ∧ s.step e = { s with network := ⟨b', [l]⟩ } := by
  cases e with
  | connect | close | fire t => exact he.elim
  | send text =>
    exact ⟨_, l.outline_send text b, by simp only [step, hnetwork, Network.send_single]⟩
  | socket n event replies =>
    obtain ⟨hopened, hclosed⟩ := he
    obtain ⟨b', hb', hsocket⟩ :=
      Network.socketEvent_single l b (howner n hpossible.1) event replies
    refine ⟨b', hb', ?_⟩
    rw [if_neg hclosed] at hsocket
    simp only [step, hnetwork, hsocket, if_neg hopened, if_neg hclosed]
    rcases event with _ | _ | _ | _ | _ <;> first | rfl | contradiction
  | refuse error =>
    refine ⟨{ b with socketError := error }, rfl, ?_⟩
    simp only [step, hnetwork]
    rfl
  | obstruct n errors sendError closeError =>
    refine ⟨b.modifySocket n fun x => { x with sendErrors := errors, sendError, closeError },
      b.outline_modifySocket n _ fun _ => rfl, ?_⟩
    simp only [step, hnetwork]
    rfl

end Session

end RosterPanel
