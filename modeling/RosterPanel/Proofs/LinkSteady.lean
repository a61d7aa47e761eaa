import RosterPanel.Proofs.LinkFinal

/-!
# A link has one socket or one timer

From its first connect until it is closed, a link is up, with one live socket and nothing planned,
or down, with no live socket and one timer that will connect it again. Once closed it stays down
for good. Results:

* `Session.Up`, `Session.Down`, `Session.AtRest`: the states of a link.
* `Standing.Working`: the invariant while the link is not closed, with `Working.turn` and
  `Working.close`; from the close on it is `Standing.AtEase`.
* `Session.working_connect`: a first `connect` that returns no error begins the work.
* `Session.up_or_down_run`: for every run after it without another `connect`, `Xor Up Down` before a
  `close`, and `AtRest` with the sockets of that moment after one.
-/

namespace RosterPanel

namespace Session

/-! ## States of a link -/

/-- One socket is live, it is the one in use, and nothing is planned. -/
def Up (s : Session) : Prop :=
  ∃ l n, s.link? = some l ∧ l.socket = some n ∧ (∀ m, s.Live m ↔ m = n) ∧ s.retries = [] ∧
    l.phase = if n ∈ s.opened then .connected else .connecting

/-- No socket is live, and one timer will connect again. -/
def Down (s : Session) : Prop :=
  ∃ l t, s.link? = some l ∧ (∀ m, ¬ s.Live m) ∧ s.retries = [t] ∧ l.phase = .disconnected

/-- The link is disconnected for good: nothing is planned, and there are still no more sockets than
that many. -/
def AtRest (s : Session) (sockets : Nat) : Prop :=
  ∃ l, s.link? = some l ∧ s.retries = [] ∧ s.created = sockets ∧ l.phase = .disconnected

end Session

/-! ## Working links -/

namespace Standing

variable {x x' : Standing}

/-- The link is connecting or connected over one live socket, and nothing is planned. -/
structure UpOver (x : Standing) (n : Nat) : Prop where
  socket : x.link.socket = some n
  live : ∀ m, x.Live m ↔ m = n
  timers : x.timers = []
  phase : x.link.phase = if n ∈ x.opened then .connected else .connecting

/-- No socket is live, and the one timer that is pending is the one that the link remembers. -/
structure DownUntil (x : Standing) (t : Timer) : Prop where
  live : ∀ m, ¬ x.Live m
  timers : x.timers = [t]
  timer : x.link.timer = some t.id
  phase : x.link.phase = .disconnected

/-- What holds of a link that has been connected once and not closed, be it up or down, where timers
can be set. -/
structure Begun (x : Standing) : Prop where
  ticking : x.ticking = true
  retired : x.link.retired = false
  shut : x.shut = []
  opened : ∀ n ∈ x.opened, n < x.created
  ended : ∀ n ∈ x.ended, n < x.created

/-- The invariant of such a link. -/
structure Working (x : Standing) : Prop extends Begun x where
  state : (∃ n, x.UpOver n) ∨ ∃ t, x.DownUntil t

/-- With no socket live and no timer pending, setting a timer to connect again is what is needed. -/
theorem Planned.working (h : x.Planned x') (hbegun : x.Begun) (hlive : ∀ m, ¬ x.Live m)
    (htimers : x.timers = []) (hphase : x.link.phase = .disconnected) : x'.Working := by
  obtain ⟨hticking, hretired, hshut, hopened, hended⟩ := hbegun
  cases h with
  | @set t =>
    refine ⟨⟨hticking, hretired, hshut, hopened, hended⟩, Or.inr ⟨t, hlive, ?_, rfl, hphase⟩⟩
    rw [htimers, List.nil_append]
  | unset hnot => exact absurd (hticking.symm.trans hnot) (by decide)

/-- The timer that is pending is the one that the link waits for. -/
theorem Working.downUntil (h : x.Working) {t : Timer} (ht : t ∈ x.timers) : x.DownUntil t := by
  rcases h.state with ⟨n, hup⟩ | ⟨t', hdown⟩
  · rw [hup.timers] at ht
    cases ht
  · rw [hdown.timers, List.mem_singleton] at ht
    exact ht ▸ hdown

/-- The socket that is live is the one that the link is up over. -/
theorem Working.upOver (h : x.Working) {n : Nat} (hn : x.Live n) : x.UpOver n := by
  rcases h.state with ⟨m, hup⟩ | ⟨t, hdown⟩
  · exact (hup.live n).1 hn ▸ hup
  · exact absurd hn (hdown.live n)

theorem DownUntil.spend_timers {t : Timer} (h : x.DownUntil t) : (x.spend t).timers = [] := by
  simp [spend, h.timers]

/-- Whatever happens, short of a call, a link keeps working. -/
theorem Working.turn (h : x.Working) {e : LinkEvent} (hconnect : e ≠ .connect) (hclose : e ≠ .close)
    (ht : Turn x e x') : x'.Working := by
  cases ht with
  | talk => exact h
  | called | refused => exact absurd rfl hconnect
  | shut => exact absurd rfl hclose
  | @opened n _ hn =>
    have hup := h.upOver hn
    refine ⟨⟨h.ticking, h.retired, h.shut, List.forall_mem_cons.2 ⟨hn.1, h.opened⟩, h.ended⟩,
      Or.inl ⟨n, hup.socket, hup.live, hup.timers, ?_⟩⟩
    rw [if_pos List.mem_cons_self]
  | ended _ hretired => exact absurd (h.retired.symm.trans hretired) (by decide)
  | @lost n _ _ hn _ hplanned =>
    have hup := h.upOver hn
    refine hplanned.working
      ⟨h.ticking, h.retired, h.shut, h.opened, List.forall_mem_cons.2 ⟨hn.1, h.ended⟩⟩
      (fun m hm => ?_) hup.timers rfl
    -- The socket that is lost was the only live one.
    obtain ⟨hne, hm'⟩ := not_or.1 fun hor => hm.2 (List.mem_cons.2 hor)
    exact hne ((hup.live m).1 ⟨hm.1, hm'⟩)
  | idle hmem hphase => exact absurd (h.downUntil hmem).phase hphase
  | again hmem =>
    have hdown := h.downUntil hmem
    refine ⟨⟨h.ticking, h.retired, h.shut, fun n hn => Nat.lt_succ_of_lt (h.opened n hn),
      fun n hn => Nat.lt_succ_of_lt (h.ended n hn)⟩,
      Or.inl ⟨x.created, rfl, fun m => ⟨fun hm => ?_, ?_⟩, hdown.spend_timers, ?_⟩⟩
    · have hnot : ¬ m < x.created := fun hlt => hdown.live m ⟨hlt, hm.2⟩
      have hle : m < x.created + 1 := hm.1
      omega
    · rintro rfl
      exact ⟨Nat.lt_succ_self _, fun hmem => Nat.lt_irrefl _ (h.ended _ hmem)⟩
    · exact (if_neg fun hmem => Nat.lt_irrefl _ (h.opened _ hmem)).symm
  | failed hmem hphase hplanned =>
    have hdown := h.downUntil hmem
    exact hplanned.working ⟨h.ticking, h.retired, h.shut, h.opened, h.ended⟩ hdown.live
      hdown.spend_timers hphase

/-- A close ends the work of a link. -/
theorem Working.close (h : x.Working) (ht : Turn x .close x') :
    x'.AtEase ∧ x'.created = x.created := by
  cases ht with
  | talk htalk => exact htalk.elim
  | shut =>
    refine ⟨⟨rfl, rfl, ?_, fun n hn => Or.inr ?_⟩, rfl⟩
    · refine List.filter_eq_nil_iff.2 fun t ht => ?_
      simp [(h.downUntil ht).timer]
    · have hup := h.upOver (n := n) hn
      simp [hup.socket]

end Standing

/-! ## Runs -/

namespace Session

variable {s : Session} {x : Standing}

theorem Stands.up_or_down (h : s.Stands x) (hworking : x.Working) : Xor s.Up s.Down := by
  rcases hworking.state with ⟨n, hup⟩ | ⟨t, hdown⟩
  · refine Or.inl ⟨⟨x.link, n, h.link?, hup.socket, fun m => h.live_iff.trans (hup.live m),
      h.retries.trans hup.timers, h.opened ▸ hup.phase⟩, ?_⟩
    rintro ⟨_, _, _, hlive, _⟩
    exact hlive n (h.live_iff.2 ((hup.live n).2 rfl))
  · refine Or.inr ⟨⟨x.link, t, h.link?, fun m hm => hdown.live m (h.live_iff.1 hm),
      h.retries.trans hdown.timers, hdown.phase⟩, ?_⟩
    rintro ⟨_, n, _, _, hlive, _⟩
    exact hdown.live n (h.live_iff.1 ((hlive n).2 rfl))

theorem Stands.atRest (h : s.Stands x) (hease : x.AtEase) : s.AtRest x.created :=
  ⟨x.link, h.link?, h.retries.trans hease.timers, h.created, hease.phase⟩

/-- After a first connect that succeeds, in a browser that has neither timers nor sockets yet, a
link works. -/
theorem working_connect (settings : LinkSettings) {b : Browser} (hticking : b.Ticking)
    (htimers : b.timers = []) (hsockets : b.sockets = [])
    (hok : ((fresh settings b).network.connect 0).1 = .ok ()) :
    ∃ x, ((fresh settings b).step .connect).Stands x ∧ x.Working := by
  have hfresh := stands_fresh settings htimers hsockets
  cases hopen : b.socketError with
  | some e =>
    rw [(hfresh.connect_of_error hopen).1] at hok
    cases hok
  | none =>
    refine ⟨_, (hfresh.connect_of_open hopen).2,
      ⟨decide_eq_true hticking, rfl, rfl, nofun, nofun⟩, Or.inl ⟨0, rfl, fun m => ?_, rfl, rfl⟩⟩
    simp [Standing.Live, outset]

/-- Until it is told to connect again, a link works, or it has been closed and is at ease. -/
theorem Stands.working_or_atEase (h : s.Stands x) (hworking : x.Working) {es : List LinkEvent}
    (hlegal : s.Legal es) (hconnect : .connect ∉ es) :
    ∃ x', (s.run es).Stands x' ∧ (x'.Working ∨ x'.AtEase) := by
  refine h.run_of_turn (I := fun y => y.Working ∨ y.AtEase) hlegal (Or.inl hworking) ?_
  intro y y' e he hy hturn
  have hne : e ≠ .connect := fun heq => hconnect (heq ▸ he)
  rcases hy with hy | hy
  · by_cases hclose : e = .close
    · subst hclose
      exact Or.inr (hy.close hturn).1
    · exact Or.inl (hy.turn hne hclose hturn)
  · exact Or.inr (hy.turn hne hturn).1

/-- A close somewhere in a run leaves the link at rest with the sockets that there were then. -/
theorem Stands.atRest_run (h : s.Stands x) (hworking : x.Working) {before after : List LinkEvent}
    (hlegal : s.Legal (before ++ .close :: after))
    (hconnect : .connect ∉ before ++ .close :: after) :
    (s.run (before ++ .close :: after)).AtRest (s.run before).created := by
  obtain ⟨hbefore, hpossible, hafter⟩ := hlegal.append
  rw [List.mem_append, List.mem_cons, not_or, not_or] at hconnect
  obtain ⟨y, hy, hstate⟩ := h.working_or_atEase hworking hbefore hconnect.1
  obtain ⟨y₁, hturn, hy₁⟩ := hy.turn hpossible
  have hclosed : y₁.AtEase ∧ y₁.created = y.created := by
    rcases hstate with hworks | hease
    · exact hworks.close hturn
    · exact hease.turn (by simp) hturn
  obtain ⟨y₂, hy₂, hease, hcreated⟩ := atEase_run hy₁ hclosed.1 hafter hconnect.2.2
  rw [run_append, run_cons, hy.created, ← hclosed.2, ← hcreated]
  exact hy₂.atRest hease

/-- For every legal run `es` of a new `WsClient` after a first `connect` that returns no error, with
no other `connect` in it: without a `close` in `es` the link ends `Up`, over one live socket and
with no timer pending, or `Down`, with no live socket and one timer, and never both; with one it
ends `AtRest`, `Disconnected` with no timer pending and no more sockets than at the `close`. -/
theorem up_or_down_run (settings : LinkSettings) {b : Browser} (hwindow : b.window = true)
    (htimer : b.timerError = none) (htimers : b.timers = []) (hsockets : b.sockets = [])
    (hok : ((fresh settings b).network.connect 0).1 = .ok ()) (es : List LinkEvent)
    (hlegal : ((fresh settings b).step .connect).Legal es) (hconnect : .connect ∉ es) :
    (.close ∉ es → Xor (((fresh settings b).step .connect).run es).Up
      (((fresh settings b).step .connect).run es).Down) ∧
    ∀ before after, es = before ++ .close :: after →
      (((fresh settings b).step .connect).run es).AtRest
        (((fresh settings b).step .connect).run before).created := by
  obtain ⟨x, h, hworking⟩ := working_connect settings ⟨hwindow, htimer⟩ htimers hsockets hok
  constructor
  · intro hclose
    obtain ⟨x', h', hworking'⟩ := h.run_of_turn hlegal hworking fun y y' e he hy hturn =>
      hy.turn (fun heq => hconnect (heq ▸ he)) (fun heq => hclose (heq ▸ he)) hturn
    exact h'.up_or_down hworking'
  · rintro before after rfl
    exact h.atRest_run hworking hlegal hconnect

/-- A link that opens, loses its socket, finds that no other can be opened, tries once more, and is
closed then. -/
def outage : List LinkEvent :=
  [.socket 0 .opened [], .socket 0 .closed [], .refuse (some "down"),
    .fire { id := 1, due := 2000, delay := 2000, task := .reconnect 0 }, .refuse none,
    .fire { id := 2, due := 6000, delay := 4000, task := .reconnect 0 }, .close]

theorem up_or_down_run_outage :
    ((fresh { url := "ws://panel/ws" } {}).step .connect).Legal outage ∧
      (((fresh { url := "ws://panel/ws" } {}).step .connect).run outage).AtRest 2 := by
  have hlegal : ((fresh { url := "ws://panel/ws" } {}).step .connect).Legal outage := by
    refine ⟨⟨⟨by decide, by decide⟩, by decide⟩, ⟨⟨by decide, by decide⟩, by decide⟩, trivial, ?_,
      trivial, ?_, trivial, trivial⟩
    · show _ ∈ Browser.timers _
      decide
    · show _ ∈ Browser.timers _
      decide
  refine ⟨hlegal, ?_⟩
  exact (up_or_down_run { url := "ws://panel/ws" } rfl rfl rfl rfl rfl outage hlegal
    (by simp [outage])).2 outage.dropLast [] rfl

end Session

end RosterPanel
