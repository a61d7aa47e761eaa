import RosterPanel.Proofs.LinkStray

/-!
# When a close is final

A close from this side disconnects a link and clears the timer that the link remembers. It is final
if that leaves nothing that could bring the link back without another connect: no further timer, and
no socket that can still open. Results:

* `Session.Final`: the link stays disconnected, and no more sockets are opened, until it is told to
  connect.
* `Session.Settled`: no timer is pending, and no live socket can open any more.
* `Standing.AtEase`: the invariant of a link that is closed and settled, with `AtEase.turn`.
* `Session.final_close_iff`: `close` is final if and only if it leaves the session settled, and so
  it always is at the end of a run whose connects leave no live socket behind;
  `Session.reopened_overrun` is a run where it is not.
-/

namespace RosterPanel

namespace Session

/-- Until it is told to connect, the link stays disconnected and opens no more sockets. -/
def Final (s : Session) : Prop :=
  ∀ es, s.Legal es → .connect ∉ es →
    (s.run es).link?.map (·.phase) = some .disconnected ∧ (s.run es).created = s.created

/-- Nothing is planned, and each live socket has opened already or was told to close. -/
def Settled (s : Session) : Prop := s.retries = [] ∧ ∀ n, s.Live n → n ∈ s.opened ∨ n ∈ s.shut

end Session

/-! ## Closed links -/

namespace Standing

variable {x x' : Standing}

/-- The invariant of a link from a close that is final to the next connect. -/
structure AtEase (x : Standing) : Prop where
  retired : x.link.retired = true
  phase : x.link.phase = .disconnected
  timers : x.timers = []
  live : ∀ n, x.Live n → n ∈ x.opened ∨ n ∈ x.shut

/-- Nothing but a connect brings a link back that is at ease. -/
theorem AtEase.turn (h : x.AtEase) {e : LinkEvent} (hconnect : e ≠ .connect) (ht : Turn x e x') :
    x'.AtEase ∧ x'.created = x.created := by
  cases ht with
  | talk => exact ⟨h, rfl⟩
  | called | refused => exact absurd rfl hconnect
  | shut =>
    refine ⟨⟨rfl, rfl, by simp [strays, h.timers], fun n hn => ?_⟩, rfl⟩
    exact (h.live n hn).imp_right (List.mem_append_right _)
  | opened hn hopened hshut => exact absurd (h.live _ hn) (not_or.2 ⟨hopened, hshut⟩)
  | @ended n =>
    refine ⟨⟨h.retired, rfl, h.timers, fun m hm => h.live m ⟨hm.1, fun hmem => ?_⟩⟩, rfl⟩
    exact hm.2 (List.mem_cons_of_mem n hmem)
  | lost _ hworking => exact absurd (h.retired.symm.trans hworking) (by decide)
  | idle hmem | again hmem | failed hmem =>
    rw [h.timers] at hmem
    cases hmem

end Standing

namespace Session

variable {s : Session} {x : Standing}

theorem Stands.settled_iff (h : s.Stands x) :
    s.Settled ↔ x.timers = [] ∧ ∀ n, x.Live n → n ∈ x.opened ∨ n ∈ x.shut := by
  simp only [Settled, h.retries, h.live_iff, h.opened, h.shut]

theorem atEase_run {es : List LinkEvent} (h : s.Stands x) (hease : x.AtEase) (hlegal : s.Legal es)
    (hconnect : .connect ∉ es) :
    ∃ x', (s.run es).Stands x' ∧ x'.AtEase ∧ x'.created = x.created := by
  refine h.run_of_turn (I := fun y => y.AtEase ∧ y.created = x.created) hlegal ⟨hease, rfl⟩ ?_
  rintro y y' e he ⟨hy, hcreated⟩ hturn
  have hne : e ≠ .connect := fun heq => hconnect (heq ▸ he)
  exact ⟨(hy.turn hne hturn).1, (hy.turn hne hturn).2.trans hcreated⟩

theorem Stands.final (h : s.Stands x) (hease : x.AtEase) : s.Final := by
  intro es hlegal hconnect
  obtain ⟨x', h', hease', hcreated⟩ := atEase_run h hease hlegal hconnect
  constructor
  · rw [h'.link?, Option.map_some, hease'.phase]
  · rw [h'.created, hcreated, h.created]

/-- A timer that is left behind can open another socket. -/
theorem Stands.created_fire (h : s.Stands x) (hphase : x.link.phase = .disconnected) {t : Timer}
    (ht : t ∈ s.browser.timers) : (s.run [.refuse none, .fire t]).created = s.created + 1 := by
  let ready : Browser := { s.browser with socketError := none }
  have hrefuse : s.step (.refuse none) = ⟨⟨ready, [x.link]⟩, s.opened, s.ended, s.shut⟩ := by
    simp only [step, h.network]
    rfl
  have h₁ : (s.step (.refuse none)).Stands x := by
    rw [hrefuse, h.opened, h.ended, h.shut]
    exact h.of_outline rfl
  have ht₁ : t ∈ (s.step (.refuse none)).browser.timers := by
    rw [hrefuse]
    exact ht
  have hfired := h₁.fire_of_open ht₁ hphase (by rw [hrefuse]; rfl)
  rw [run_cons, run_cons, h.created]
  exact hfired.created

/-- A close that is final leaves nothing that could bring the link back. -/
theorem Stands.settled (h : s.Stands x) (hphase : x.link.phase = .disconnected) (hfinal : s.Final) :
    s.Settled := by
  constructor
  · rw [h.retries]
    refine List.eq_nil_iff_forall_not_mem.2 fun t ht => ?_
    have ht : t ∈ s.browser.timers := h.timers ▸ ht
    have hsame := (hfinal [.refuse none, .fire t] ⟨trivial, ht, trivial⟩ (by simp)).2
    rw [h.created_fire hphase ht] at hsame
    omega
  · intro n hn
    by_contra hnot
    obtain ⟨hopened, hshut⟩ := not_or.1 hnot
    obtain ⟨x', hturn, h'⟩ := h.turn_opened [] hn hopened hshut
    have hstays := (hfinal [.socket n .opened []] ⟨⟨hn, fun _ => ⟨hopened, hshut⟩⟩, trivial⟩
      (by simp)).1
    rw [run_cons, Session.run, List.foldl_nil, h'.link?] at hstays
    cases hturn with
    | talk htalk => exact absurd rfl htalk.1
    | opened => cases hstays

theorem Stands.step_close (h : s.Stands x) :
    ∃ x', Turn x .close x' ∧ (s.step .close).Stands x' ∧ x'.link = x.link.laid := by
  obtain ⟨x', hturn, h'⟩ := h.turn_close
  refine ⟨x', hturn, h', ?_⟩
  cases hturn with
  | talk htalk => exact htalk.elim
  | shut => rfl

/-- For every legal run `es` of a new `WsClient` and a `close` after it: the link stays
`Disconnected` and opens no more sockets until the next `connect` if and only if `close` leaves no
timer pending and no live socket that can still open. Both hold if every `connect` in `es` has left
no socket live but its own. -/
theorem final_close_iff (settings : LinkSettings) {b : Browser} (htimers : b.timers = [])
    (hsockets : b.sockets = []) (es : List LinkEvent) (hlegal : (fresh settings b).Legal es) :
    ((((fresh settings b).run es).step .close).Final ↔
      (((fresh settings b).run es).step .close).Settled) ∧
    ((fresh settings b).TidyRun es → (((fresh settings b).run es).step .close).Final) := by
  have hstands := stands_fresh settings htimers hsockets
  constructor
  · obtain ⟨x, hx, -⟩ := hstands.run hlegal
    obtain ⟨x', -, hx', hlink⟩ := hx.step_close
    refine ⟨hx'.settled (by rw [hlink]; rfl), fun hsettled => ?_⟩
    obtain ⟨hnone, hlive⟩ := hx'.settled_iff.1 hsettled
    exact hx'.final ⟨by rw [hlink]; rfl, by rw [hlink]; rfl, hnone, hlive⟩
  · intro htidy
    obtain ⟨x, hx, hkempt⟩ := kempt_run es hstands (kempt_outset settings b) hlegal htidy
    obtain ⟨x', hturn, hx', hlink⟩ := hx.step_close
    have hkempt' := hkempt.turn hturn nofun
    have hretired : x'.link.retired = true := by rw [hlink]; rfl
    obtain ⟨hphase, hnone, htimers'⟩ := hkempt'.retired hretired
    refine hx'.final ⟨hretired, hphase, htimers', fun n hn => Or.inr ?_⟩
    rcases hkempt'.current n hn with huse | ⟨-, hshut⟩
    · rw [hnone] at huse
      cases huse
    · exact hshut

/-- A link that has lost its socket, and has a timer to connect again. -/
def loss : List LinkEvent := [.connect, .socket 0 .opened [], .socket 0 .closed []]

theorem final_close_loss :
    (fresh { url := "ws://panel/ws" } {}).Legal loss ∧
      (fresh { url := "ws://panel/ws" } {}).TidyRun loss ∧
      (((fresh { url := "ws://panel/ws" } {}).run loss).step .close).Final := by
  have hlegal : (fresh { url := "ws://panel/ws" } {}).Legal loss :=
    ⟨trivial, ⟨⟨by decide, by decide⟩, by decide⟩, ⟨⟨by decide, by decide⟩, by decide⟩, trivial⟩
  have htidy : (fresh { url := "ws://panel/ws" } {}).TidyRun loss := by
    refine ⟨fun _ n hn => ?_, nofun, nofun, trivial⟩
    have hlt : n < 1 := hn.1
    obtain rfl : n = 0 := by omega
    decide
  exact ⟨hlegal, htidy, (final_close_iff _ rfl rfl loss hlegal).2 htidy⟩

/-- A link that is connected twice, loses both sockets, and is closed then. Only the later of its
two timers is cleared. -/
def overrun : List LinkEvent :=
  [.connect, .connect, .socket 0 .closed [], .socket 1 .closed [], .close]

/-- The other timer connects the closed link again, without any `connect` after the `close`: its
callback looks at the state, and not at `closed_by_client`. -/
theorem reopened_overrun :
    (fresh { url := "ws://panel/ws" } {}).Legal
        (overrun ++ [.fire { id := 1, due := 2000, delay := 2000, task := .reconnect 0 }]) ∧
      ((fresh { url := "ws://panel/ws" } {}).run overrun).created = 2 ∧
      ((fresh { url := "ws://panel/ws" } {}).run (overrun ++
        [.fire { id := 1, due := 2000, delay := 2000, task := .reconnect 0 }])).created = 3 ∧
      ((fresh { url := "ws://panel/ws" } {}).run (overrun ++
        [.fire { id := 1, due := 2000, delay := 2000, task := .reconnect 0 }])).link?.map
          (·.phase) = some .connecting := by
  refine ⟨⟨trivial, trivial, ⟨⟨by decide, by decide⟩, by decide⟩, ⟨⟨by decide, by decide⟩,
    by decide⟩, trivial, ?_, trivial⟩, by decide, by decide, by decide⟩
  show _ ∈ Browser.timers _
  decide

end Session

end RosterPanel
