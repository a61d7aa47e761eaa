import Mathlib.Tactic.Common
import RosterPanel.Proofs.LinkSession

/-!
# What an event makes of a link

One description of all that an event can do to a link, its timers and its sockets, whatever the
browser around it is like: with a window or without, and whether or not timers can be set. What
every run of a link keeps follows from it by cases. Results:

* `Standing`, `Session.Stands`: what counts in a session of one link that has its sockets and timers
  to itself.
* `Turn`: what an event can make of that.
* `Session.Stands.turn`: each possible event makes one of these turns.
* `Session.Stands.run_of_turn`: what these turns keep, a run keeps.
* `Session.stands_fresh`, `Session.Stands.run`: the start of a run, and all that follows it.
-/

namespace RosterPanel

/-! ## Standings -/

/-- What counts of a link in a session: the link, the timers that will connect it again, how many
sockets it has opened, which of them have opened, have closed and were told to close, and whether
timers can be set. -/
structure Standing where
  link : Link
  timers : List Timer
  created : Nat
  opened : List Nat
  ended : List Nat
  shut : List Nat
  ticking : Bool

namespace Standing

/-- Whether a socket is there and has not closed. -/
def Live (x : Standing) (n : Nat) : Prop := n < x.created ∧ n ∉ x.ended

/-- The timers that the link does not remember. -/
def strays (x : Standing) : List Timer := x.timers.filter fun t => x.link.timer != some t.id

/-- A timer has fired. -/
def spend (x : Standing) (t : Timer) : Standing :=
  { x with timers := x.timers.filter (·.id != t.id) }

/-- What `scheduleRetry` makes of a link: where timers can be set, one has been set with the delay
`delay attempt`, and is remembered. -/
inductive Planned (x : Standing) : Standing → Prop
  | set {t : Timer} : x.ticking = true → t.task = .reconnect 0 →
      t.delay = (x.link.settings.delay x.link.attempt).toInt32.toInt →
      Planned x { x with link := { x.link with timer := some t.id }, timers := x.timers ++ [t] }
  | unset : x.ticking = false → Planned x x

variable {x x' : Standing}

/-- A timer that has been set changes nothing in the link but which timer it remembers. -/
theorem Planned.link_eq (h : x.Planned x') : x'.link.settings = x.link.settings ∧
    x'.link.phase = x.link.phase ∧ x'.link.attempt = x.link.attempt := by
  cases h <;> exact ⟨rfl, rfl, rfl⟩

theorem Planned.ticking_eq (h : x.Planned x') : x'.ticking = x.ticking := by
  cases h <;> rfl

end Standing

/-- A session of one link, with nothing else in the browser, and what counts of it. -/
structure Session.Stands (s : Session) (x : Standing) : Prop where
  links : s.network.links = [x.link]
  timers : s.browser.timers = x.timers
  created : s.created = x.created
  opened : s.opened = x.opened
  ended : s.ended = x.ended
  shut : s.shut = x.shut
  ticking : s.browser.Ticking ↔ x.ticking = true
  owners : ∀ i ∈ s.browser.sockets.map (·.owner), i = 0
  tasks : ∀ t ∈ x.timers, t.task = .reconnect 0
  window : s.browser.window = false → x.timers = []

/-- What an event can make of a link and what goes with it. -/
inductive Turn (x : Standing) : LinkEvent → Standing → Prop
  | talk {e : LinkEvent} : e.IsTalk → Turn x e x
  | called : Turn x .connect { x with
      link := { x.link with
        attempt := 0, retired := false, phase := .connecting
        timer := none, socket := some x.created }
      timers := x.strays
      created := x.created + 1 }
  | refused : Turn x .connect { x with
      link := { x.link with attempt := 0, retired := false, phase := .connecting } }
  | shut : Turn x .close { x with
      link := x.link.laid
      timers := x.strays
      shut := x.link.socket.toList ++ x.shut }
  | opened {n : Nat} {replies : List String} : x.Live n → n ∉ x.opened → n ∉ x.shut →
      Turn x (.socket n .opened replies) { x with
        link := { x.link with phase := .connected, attempt := 0 }
        opened := n :: x.opened }
  | ended {n : Nat} {replies : List String} : x.Live n → x.link.retired = true →
      Turn x (.socket n .closed replies) { x with
        link := { x.link with phase := .disconnected }
        ended := n :: x.ended }
  | lost {n : Nat} {replies : List String} {x' : Standing} : x.Live n → x.link.retired = false →
      Standing.Planned { x with
        link := { x.link with phase := .disconnected, attempt := x.link.attempt + 1 }
        ended := n :: x.ended } x' →
      Turn x (.socket n .closed replies) x'
  | idle {t : Timer} : t ∈ x.timers → x.link.phase ≠ .disconnected → Turn x (.fire t) (x.spend t)
  | again {t : Timer} : t ∈ x.timers → x.link.phase = .disconnected →
      Turn x (.fire t) { x.spend t with
        link := { x.link with phase := .connecting, socket := some x.created }
        created := x.created + 1 }
  | failed {t : Timer} {x' : Standing} : t ∈ x.timers → x.link.phase = .disconnected →
      Standing.Planned { x.spend t with link := { x.link with attempt := x.link.attempt + 1 } } x' →
      Turn x (.fire t) x'

/-- No event changes whether timers can be set. -/
theorem Turn.ticking_eq {x x' : Standing} {e : LinkEvent} (h : Turn x e x') :
    x'.ticking = x.ticking := by
  cases h with
  | lost _ _ hplanned | failed _ _ hplanned => exact hplanned.ticking_eq
  | _ => rfl

/-! ## Every event makes a turn -/

namespace Session.Stands

variable {s : Session} {x : Standing}

theorem network (h : s.Stands x) : s.network = ⟨s.browser, [x.link]⟩ := by
  rw [← h.links]
  rfl

theorem link? (h : s.Stands x) : s.link? = some x.link := by
  rw [Session.link?, h.links]
  rfl

theorem live_iff (h : s.Stands x) {n : Nat} : s.Live n ↔ x.Live n := by
  rw [Session.Live, Standing.Live, h.created, h.ended]

theorem retries (h : s.Stands x) : s.retries = x.timers := by
  rw [Session.retries, h.timers]
  exact List.filter_eq_self.2 fun t ht => decide_eq_true (h.tasks t ht)

theorem owner_of_live (h : s.Stands x) {n : Nat} (hn : s.Live n) :
    (s.browser.sockets.map (·.owner))[n]? = some 0 := by
  have hlt : n < (s.browser.sockets.map (·.owner)).length := by
    rw [List.length_map]
    exact hn.1
  rw [List.getElem?_eq_getElem hlt, h.owners _ (List.getElem_mem hlt)]

/-- A session that comes of another by changing the link, opening some more sockets for it, and
dropping or setting timers of its own. -/
theorem become (h : s.Stands x) {l : Link} {b : Browser} {timers : List Timer}
    {opened ended shut : List Nat} (k : Nat)
    (howners : b.sockets.map (·.owner) =
      s.browser.sockets.map (·.owner) ++ List.replicate k 0)
    (hwindow : b.window = s.browser.window) (herror : b.timerError = s.browser.timerError)
    (htimers : b.timers = timers)
    (hmem : ∀ t ∈ timers, t ∈ x.timers ∨ b.window = true ∧ t.task = .reconnect 0) :
    Stands ⟨⟨b, [l]⟩, opened, ended, shut⟩
      ⟨l, timers, x.created + k, opened, ended, shut, x.ticking⟩ where
  links := rfl
  timers := htimers
  created := by
    have hlength := congrArg List.length howners
    simp only [List.length_map, List.length_append, List.length_replicate] at hlength
    exact hlength.trans (congrArg (· + k) h.created)
  opened := rfl
  ended := rfl
  shut := rfl
  ticking := by
    rw [← h.ticking, Browser.Ticking, Browser.Ticking, ← hwindow, ← herror]
    rfl
  owners i hi := by
    have hi : i ∈ b.sockets.map (·.owner) := hi
    rw [howners, List.mem_append] at hi
    exact hi.elim (h.owners i) List.eq_of_mem_replicate
  tasks t ht := (hmem t ht).elim (h.tasks t) And.right
  window hw := by
    refine List.eq_nil_iff_forall_not_mem.2 fun t ht => ?_
    have hw : b.window = false := hw
    rcases hmem t ht with ht | ⟨hset, -⟩
    · rw [h.window (hwindow.symm.trans hw)] at ht
      cases ht
    · exact absurd (hset.symm.trans hw) (by decide)

/-- Where the outline of the browser is the same, so are the timers and sockets. -/
theorem of_outline (h : s.Stands x) {l : Link} {b : Browser} {opened ended shut : List Nat}
    (hb : b.outline = s.browser.outline) :
    Stands ⟨⟨b, [l]⟩, opened, ended, shut⟩
      ⟨l, x.timers, x.created, opened, ended, shut, x.ticking⟩ := by
  have howners : b.sockets.map (·.owner) = s.browser.sockets.map (·.owner) := congrArg (·.2.1) hb
  exact h.become 0 (by simpa using howners) (congrArg (·.2.2.1) hb) (congrArg (·.2.2.2) hb)
    ((congrArg (·.1) hb).trans h.timers) fun t ht => Or.inl ht

/-- A timer is set, with the delay that is due, unless none can be set. -/
theorem scheduleRetry {l : Link} {b : Browser} {opened ended shut : List Nat}
    (h : Stands ⟨⟨b, [l]⟩, opened, ended, shut⟩ x) :
    ∃ x', x.Planned x' ∧
      Stands ⟨⟨(l.scheduleRetry 0 b).2, [(l.scheduleRetry 0 b).1]⟩, opened, ended, shut⟩ x' := by
  obtain rfl : l = x.link := (List.cons.inj h.links).1
  obtain rfl : opened = x.opened := h.opened
  obtain rfl : ended = x.ended := h.ended
  obtain rfl : shut = x.shut := h.shut
  by_cases hticking : b.Ticking
  · obtain ⟨t, n, htask, hdelay, heq⟩ := x.link.scheduleRetry_of_ticking 0 hticking
    rw [heq]
    refine ⟨_, .set (h.ticking.1 hticking) htask hdelay, ?_⟩
    refine h.become 0 (by simp [Session.browser]) rfl rfl (congrArg (· ++ [t]) h.timers)
      fun u hu => ?_
    rcases List.mem_append.1 hu with hu | hu
    · exact Or.inl hu
    · exact Or.inr ⟨hticking.1, (List.mem_singleton.1 hu) ▸ htask⟩
  · obtain ⟨b', hb', heq⟩ := x.link.scheduleRetry_of_not_ticking 0 hticking
    rw [heq]
    exact ⟨x, .unset (Bool.eq_false_iff.2 (mt h.ticking.2 hticking)), h.of_outline hb'⟩

theorem timers_window (h : s.Stands x) : s.browser.window = false → s.browser.timers = [] :=
  fun hw => h.timers.trans (h.window hw)

theorem mem_of_mem_strays {t : Timer} (ht : t ∈ x.strays) : t ∈ x.timers := (List.mem_filter.1 ht).1

/-- What a connect leaves that can open no socket. -/
theorem connect_of_error (h : s.Stands x) {e : String} (hopen : s.browser.socketError = some e) :
    (s.network.connect 0).1 = .error (.socket (Browser.thrown e)) ∧
      (s.step .connect).Stands { x with
        link := { x.link with attempt := 0, retired := false, phase := .connecting } } := by
  have hconnect := x.link.connect_of_error hopen
  refine ⟨by simp [h.network, Network.connect, Network.act, hconnect], ?_⟩
  let said := s.browser.say .log ("Connecting to " ++ x.link.settings.url)
  let called : Link := { x.link with attempt := 0, retired := false, phase := .connecting }
  have hstep : s.step .connect = ⟨⟨said, [called]⟩, s.opened, s.ended, s.shut⟩ := by
    simp [Session.step, h.network, Network.connect, Network.act, hconnect, said, called]
  rw [hstep, h.opened, h.ended, h.shut]
  exact h.of_outline rfl

/-- What a connect leaves that opens a socket. -/
theorem connect_of_open (h : s.Stands x) (hopen : s.browser.socketError = none) :
    (s.network.connect 0).1 = .ok () ∧
      (s.step .connect).Stands { x with
        link := { x.link with
          attempt := 0, retired := false, phase := .connecting
          timer := none, socket := some x.created }
        timers := x.strays
        created := x.created + 1 } := by
  let called : Link := { x.link with attempt := 0, retired := false, phase := .connecting }
  let made : Browser := { s.browser.say .log ("Connecting to " ++ x.link.settings.url) with
    sockets := s.browser.sockets ++ [{ url := x.link.settings.url, owner := 0 }] }
  have hconnect : x.link.connect 0 s.browser =
      (.ok (), { called with timer := none, socket := some s.created },
        (called.clearTimer made).2) := by
    simp [Link.connect, Browser.openSocket, Browser.say, hopen, called, made, Link.clearTimer_fst,
      Session.created]
  refine ⟨by simp [h.network, Network.connect, Network.act, hconnect], ?_⟩
  have hstep : s.step .connect = ⟨⟨(called.clearTimer made).2,
      [{ called with timer := none, socket := some s.created }]⟩, s.opened, s.ended, s.shut⟩ := by
    simp [Session.step, h.network, Network.connect, Network.act, hconnect]
  have hwindow : made.window = false → made.timers = [] := h.timers_window
  have htimers := called.timers_clearTimer hwindow
  obtain ⟨hsockets, hw, herror⟩ := called.clearTimer_spares made
  have hstrays : (called.clearTimer made).2.timers = x.strays :=
    htimers.trans (congrArg (List.filter _) h.timers)
  rw [hstep, h.opened, h.ended, h.shut, h.created]
  exact h.become 1 (by simp [hsockets, made]) hw herror hstrays
    fun t ht => Or.inl (mem_of_mem_strays ht)

theorem turn_connect (h : s.Stands x) :
    ∃ x', Turn x .connect x' ∧ (s.step .connect).Stands x' := by
  cases hopen : s.browser.socketError with
  | some e => exact ⟨_, .refused, (h.connect_of_error hopen).2⟩
  | none => exact ⟨_, .called, (h.connect_of_open hopen).2⟩

theorem turn_close (h : s.Stands x) :
    ∃ x', Turn x .close x' ∧ (s.step .close).Stands x' := by
  have htimers := x.link.timers_clearTimer h.timers_window
  obtain ⟨hsockets, hw, herror⟩ := x.link.clearTimer_spares s.browser
  obtain ⟨b', hb', hstep⟩ := Session.step_close h.network
  have hstrays : b'.timers = x.strays :=
    (congrArg (·.1) hb').trans (htimers.trans (congrArg (List.filter _) h.timers))
  have howners : b'.sockets.map (·.owner) = s.browser.sockets.map (·.owner) :=
    (congrArg (·.2.1) hb').trans (congrArg (List.map _) hsockets)
  rw [hstep, h.opened, h.ended, h.shut]
  exact ⟨_, .shut, h.become 0 (by simpa using howners) ((congrArg (·.2.2.1) hb').trans hw)
    ((congrArg (·.2.2.2) hb').trans herror) hstrays fun t ht => Or.inl (mem_of_mem_strays ht)⟩

theorem turn_opened (h : s.Stands x) {n : Nat} (replies : List String) (hn : s.Live n)
    (hopened : n ∉ s.opened) (hshut : n ∉ s.shut) :
    ∃ x', Turn x (.socket n .opened replies) x' ∧
      (s.step (.socket n .opened replies)).Stands x' := by
  obtain ⟨b', hb', hstep⟩ := Session.step_opened h.network (h.owner_of_live hn) replies
  rw [hstep, h.opened, h.ended, h.shut]
  exact ⟨_, .opened (h.live_iff.1 hn) (h.opened ▸ hopened) (h.shut ▸ hshut), h.of_outline hb'⟩

/-- The close of a socket disconnects a link that was closed from this side. -/
theorem closed_of_retired (h : s.Stands x) {n : Nat} (replies : List String) (hn : s.Live n)
    (hretired : x.link.retired = true) :
    (s.step (.socket n .closed replies)).Stands { x with
      link := { x.link with phase := .disconnected }
      ended := n :: x.ended } := by
  obtain ⟨b', hb', hstep⟩ := Session.step_ended h.network (h.owner_of_live hn) hretired replies
  rw [hstep, h.opened, h.ended, h.shut]
  exact h.of_outline hb'

/-- Any other link is also to connect again. -/
theorem closed_of_working (h : s.Stands x) {n : Nat} (replies : List String) (hn : s.Live n)
    (hworking : x.link.retired = false) :
    ∃ x', Standing.Planned { x with
        link := { x.link with phase := .disconnected, attempt := x.link.attempt + 1 }
        ended := n :: x.ended } x' ∧
      (s.step (.socket n .closed replies)).Stands x' := by
  obtain ⟨b', hb', hstep⟩ := Session.step_lost h.network (h.owner_of_live hn) hworking replies
  rw [hstep, h.opened, h.ended, h.shut]
  exact (h.of_outline hb').scheduleRetry

theorem turn_closed (h : s.Stands x) {n : Nat} (replies : List String) (hn : s.Live n) :
    ∃ x', Turn x (.socket n .closed replies) x' ∧
      (s.step (.socket n .closed replies)).Stands x' := by
  have hlive := h.live_iff.1 hn
  cases hretired : x.link.retired with
  | true => exact ⟨_, .ended hlive hretired, h.closed_of_retired replies hn hretired⟩
  | false =>
    obtain ⟨x', hplanned, hstands⟩ := h.closed_of_working replies hn hretired
    exact ⟨x', .lost hlive hretired hplanned, hstands⟩

/-- A timer that fires is gone. -/
theorem expire (h : s.Stands x) (t : Timer) :
    Stands ⟨⟨s.browser.expire t, [x.link]⟩, s.opened, s.ended, s.shut⟩ (x.spend t) := by
  rw [h.opened, h.ended, h.shut]
  exact h.become 0 (by simp [Browser.expire, Browser.clearTimer]) rfl rfl
    (congrArg (List.filter _) h.timers) fun u hu => Or.inl (List.mem_filter.1 hu).1

theorem step_fire (h : s.Stands x) {t : Timer} (ht : t ∈ s.browser.timers) :
    s.step (.fire t) = ⟨⟨(x.link.retry 0 (s.browser.expire t)).2,
      [(x.link.retry 0 (s.browser.expire t)).1]⟩, s.opened, s.ended, s.shut⟩ :=
  Session.step_fire h.network (h.tasks t (h.timers ▸ ht))

/-- A timer that fires while the link is not disconnected is spent, and nothing comes of it. -/
theorem fire_of_ne (h : s.Stands x) {t : Timer} (ht : t ∈ s.browser.timers)
    (hphase : x.link.phase ≠ .disconnected) : (s.step (.fire t)).Stands (x.spend t) := by
  rw [h.step_fire ht, Link.retry, if_neg hphase]
  exact h.expire t

/-- Otherwise the link connects again, if a socket can be opened. -/
theorem fire_of_open (h : s.Stands x) {t : Timer} (ht : t ∈ s.browser.timers)
    (hphase : x.link.phase = .disconnected) (hopen : s.browser.socketError = none) :
    (s.step (.fire t)).Stands { x.spend t with
      link := { x.link with phase := .connecting, socket := some x.created }
      created := x.created + 1 } := by
  have hspent := h.expire t
  obtain ⟨made, hsockets, htimers, hwindow, herror, hretry⟩ :=
    x.link.retry_of_open (b := s.browser.expire t) hphase hopen
  have hcreated : (s.browser.expire t).sockets.length = x.created := h.created
  rw [h.step_fire ht, hretry, h.opened, h.ended, h.shut, hcreated]
  exact hspent.become 1 (by simp [Session.browser, hsockets]) hwindow herror
    (htimers.trans hspent.timers) fun u hu => Or.inl hu

/-- If none can be opened, it is to connect again later. -/
theorem fire_of_error (h : s.Stands x) {t : Timer} (ht : t ∈ s.browser.timers)
    (hphase : x.link.phase = .disconnected) {e : String} (hopen : s.browser.socketError = some e) :
    ∃ x', Standing.Planned { x.spend t with
        link := { x.link with attempt := x.link.attempt + 1 } } x' ∧
      (s.step (.fire t)).Stands x' := by
  obtain ⟨b', hb', hretry⟩ := x.link.retry_of_error (b := s.browser.expire t) hphase hopen
  rw [h.step_fire ht, hretry, h.opened, h.ended, h.shut]
  exact Stands.scheduleRetry ((h.expire t).of_outline hb')

theorem turn_fire (h : s.Stands x) {t : Timer} (ht : t ∈ s.browser.timers) :
    ∃ x', Turn x (.fire t) x' ∧ (s.step (.fire t)).Stands x' := by
  have hmem : t ∈ x.timers := h.timers ▸ ht
  by_cases hphase : x.link.phase = .disconnected
  swap
  · exact ⟨_, .idle hmem hphase, h.fire_of_ne ht hphase⟩
  cases hopen : s.browser.socketError with
  | none => exact ⟨_, .again hmem hphase, h.fire_of_open ht hphase hopen⟩
  | some e =>
    obtain ⟨x', hplanned, hset⟩ := h.fire_of_error ht hphase hopen
    exact ⟨x', .failed hmem hphase hplanned, hset⟩

/-- Every possible event makes a turn. -/
theorem turn (h : s.Stands x) {e : LinkEvent} (hpossible : e.Possible s) :
    ∃ x', Turn x e x' ∧ (s.step e).Stands x' := by
  cases e using LinkEvent.casesOnKind with
  | talk e htalk =>
    obtain ⟨b', hb', hstep⟩ :=
      Session.step_talk h.network (fun _ => h.owner_of_live) htalk hpossible
    rw [hstep, h.opened, h.ended, h.shut]
    exact ⟨x, .talk htalk, h.of_outline hb'⟩
  | connect => exact h.turn_connect
  | close => exact h.turn_close
  | fire t => exact h.turn_fire hpossible
  | opened n replies =>
    obtain ⟨hnotOpened, hnotShut⟩ := hpossible.2 rfl
    exact h.turn_opened replies hpossible.1 hnotOpened hnotShut
  | closed n replies => exact h.turn_closed replies hpossible.1

/-- What the turns of a run keep, one by one, the run keeps. -/
theorem run_of_turn {I : Standing → Prop} {es : List LinkEvent} (h : s.Stands x)
    (hlegal : s.Legal es) (hx : I x)
    (hturn : ∀ y y' e, e ∈ es → I y → Turn y e y' → I y') :
    ∃ x', (s.run es).Stands x' ∧ I x' := by
  induction es generalizing s x with
  | nil => exact ⟨x, h, hx⟩
  | cons e rest ih =>
    obtain ⟨x₁, hfirst, h₁⟩ := h.turn hlegal.1
    exact ih h₁ hlegal.2 (hturn x x₁ e List.mem_cons_self hx hfirst)
      fun y y' e' he' => hturn y y' e' (List.mem_cons_of_mem e he')

/-- A run leaves a session of one link what it is, and timers can be set as before. -/
theorem run (h : s.Stands x) {es : List LinkEvent} (hlegal : s.Legal es) :
    ∃ x', (s.run es).Stands x' ∧ x'.ticking = x.ticking :=
  h.run_of_turn (I := fun y => y.ticking = x.ticking) hlegal rfl
    fun _ _ _ _ hy hturn => hturn.ticking_eq.trans hy

end Session.Stands

/-! ## Where runs begin -/

namespace Session

/-- What counts of a new link. -/
def outset (settings : LinkSettings) (b : Browser) : Standing where
  link := { settings }
  timers := []
  created := 0
  opened := []
  ended := []
  shut := []
  ticking := b.Ticking

theorem stands_fresh (settings : LinkSettings) {b : Browser} (htimers : b.timers = [])
    (hsockets : b.sockets = []) : (fresh settings b).Stands (outset settings b) where
  links := rfl
  timers := htimers
  created := by simp [created, browser, fresh, Network.addLink, hsockets, outset]
  opened := rfl
  ended := rfl
  shut := rfl
  ticking := decide_eq_true_iff.symm
  owners := by simp [browser, fresh, Network.addLink, hsockets]
  tasks := nofun
  window _ := rfl

end Session

end RosterPanel
