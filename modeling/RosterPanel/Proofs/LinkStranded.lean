import RosterPanel.Proofs.LinkFinal

/-!
# When a connect fails

A connect that can open no socket leaves the link connecting, with no attempt under way. A timer
that is pending then finds the link connecting when it fires, and lets it be. What can still bring
the link back without another call is a socket from before: its close disconnects the link.
Results:

* `Session.Stranded`: short of a call, the link stays connecting, and no more sockets are opened.
* `Standing.Hanging`: the invariant of a link that is connecting over no live socket, with
  `Hanging.turn`.
* `Session.stranded_connect_iff`: a `connect` that fails strands the link if and only if no socket
  is live, and so it always does to a tidy link that has a timer pending;
  `Session.connecting_impatience` is a case of that.
-/

namespace RosterPanel

/-- Until it is told to connect or to close, the link stays connecting and opens no more sockets. -/
def Session.Stranded (s : Session) : Prop :=
  ∀ es, s.Legal es → .connect ∉ es → .close ∉ es →
    (s.run es).link?.map (·.phase) = some .connecting ∧ (s.run es).created = s.created

/-! ## Links that hang -/

namespace Standing

variable {x x' : Standing}

/-- The link is connecting, but not over any socket. -/
structure Hanging (x : Standing) : Prop where
  phase : x.link.phase = .connecting
  live : ∀ n, ¬ x.Live n

/-- Nothing but a call gets a link to move again. A timer that fires in the meantime is spent. -/
theorem Hanging.turn (h : x.Hanging) {e : LinkEvent} (hconnect : e ≠ .connect) (hclose : e ≠ .close)
    (ht : Turn x e x') : x'.Hanging ∧ x'.created = x.created := by
  cases ht with
  | talk => exact ⟨h, rfl⟩
  | called | refused => exact absurd rfl hconnect
  | shut => exact absurd rfl hclose
  | opened hn | ended hn | lost hn => exact absurd hn (h.live _)
  | idle => exact ⟨⟨h.phase, h.live⟩, rfl⟩
  | again _ hphase | failed _ hphase =>
    rw [h.phase] at hphase
    cases hphase

end Standing

namespace Session

variable {s : Session} {x : Standing}

theorem Stands.stranded (h : s.Stands x) (hhanging : x.Hanging) : s.Stranded := by
  intro es hlegal hconnect hclose
  obtain ⟨x', h', hhanging', hcreated⟩ :=
    h.run_of_turn (I := fun y => y.Hanging ∧ y.created = x.created) hlegal ⟨hhanging, rfl⟩ (by
      rintro y y' e he ⟨hy, hcreated⟩ hturn
      have hnotConnect : e ≠ .connect := fun heq => hconnect (heq ▸ he)
      have hnotClose : e ≠ .close := fun heq => hclose (heq ▸ he)
      obtain ⟨hy', hcreated'⟩ := hy.turn hnotConnect hnotClose hturn
      exact ⟨hy', hcreated'.trans hcreated⟩)
  constructor
  · rw [h'.link?, Option.map_some, hhanging'.phase]
  · rw [h'.created, hcreated, h.created]

/-- The close of a live socket gets a stranded link to move. -/
theorem Stands.not_live_of_stranded (h : s.Stands x) (hstranded : s.Stranded) (n : Nat) :
    ¬ s.Live n := by
  intro hn
  have hstays := (hstranded [.socket n .closed []] ⟨⟨hn, nofun⟩, trivial⟩ (by simp) (by simp)).1
  obtain ⟨x', hturn, h'⟩ := h.turn_closed [] hn
  rw [run_cons, Session.run, List.foldl_nil, h'.link?, Option.map_some] at hstays
  cases hturn with
  | talk htalk => exact htalk.2 rfl
  | ended => cases hstays
  | lost _ _ hplanned =>
    rw [hplanned.link_eq.2.1] at hstays
    cases hstays

/-! ## What a failed connect leaves -/

/-- What a link is after a connect that fails. -/
def refused (l : Link) : Link := { l with attempt := 0, retired := false, phase := .connecting }

/-- A connect that fails changes the link alone. -/
theorem Stands.connect_failed (h : s.Stands x) {e : LinkError}
    (hfails : (s.network.connect 0).1 = .error e) :
    (s.step .connect).Stands { x with link := refused x.link } := by
  cases hopen : s.browser.socketError with
  | some _ => exact (h.connect_of_error hopen).2
  | none =>
    rw [(h.connect_of_open hopen).1] at hfails
    cases hfails

/-- Sockets and timers stay. -/
theorem Stands.spared_by_failed (h : s.Stands x) {e : LinkError}
    (hfails : (s.network.connect 0).1 = .error e) :
    (s.step .connect).link? = s.link?.map refused ∧ (s.step .connect).retries = s.retries ∧
      (s.step .connect).created = s.created := by
  have hafter := h.connect_failed hfails
  refine ⟨?_, ?_, ?_⟩
  · rw [hafter.link?, h.link?, Option.map_some]
  · rw [hafter.retries, h.retries]
  · rw [hafter.created, h.created]

/-- A timer comes to nothing that fires while the link is not disconnected. -/
theorem Stands.spent_fire (h : s.Stands x) (hphase : x.link.phase ≠ .disconnected) {t : Timer}
    (ht : t ∈ s.retries) :
    (s.step (.fire t)).link? = s.link? ∧
      (s.step (.fire t)).retries = s.retries.filter (·.id != t.id) ∧
      (s.step (.fire t)).created = s.created := by
  rw [h.retries, ← h.timers] at ht
  have hfired := h.fire_of_ne ht hphase
  refine ⟨?_, ?_, ?_⟩
  · rw [hfired.link?, h.link?, Standing.spend]
  · rw [hfired.retries, h.retries, Standing.spend]
  · rw [hfired.created, h.created, Standing.spend]

/-- For every legal run `es` of a new `WsClient` and a `connect` after it that fails: the link is
`refused`, that is `Connecting` with no attempts counted, timers and sockets are as before, and a
timer that fires next is spent and changes nothing else. Short of another call the link stays
`Connecting` for good if and only if no socket was live; and that is so if the run is tidy and a
timer was pending. -/
theorem stranded_connect_iff (settings : LinkSettings) {b : Browser} (htimers : b.timers = [])
    (hsockets : b.sockets = []) (es : List LinkEvent) (hlegal : (fresh settings b).Legal es)
    {e : LinkError} (hfails : (((fresh settings b).run es).network.connect 0).1 = .error e) :
    let before := (fresh settings b).run es
    let after := before.step .connect
    (after.link? = before.link?.map refused ∧ after.retries = before.retries ∧
      after.created = before.created) ∧
    (∀ t ∈ before.retries, (after.step (.fire t)).link? = after.link? ∧
      (after.step (.fire t)).retries = after.retries.filter (·.id != t.id) ∧
      (after.step (.fire t)).created = after.created) ∧
    (after.Stranded ↔ ∀ n, ¬ before.Live n) ∧
    ((fresh settings b).TidyRun es → before.retries ≠ [] → after.Stranded) := by
  intro before after
  have hstands := stands_fresh settings htimers hsockets
  obtain ⟨x, hx, -⟩ := hstands.run hlegal
  have hafter : after.Stands { x with link := refused x.link } := hx.connect_failed hfails
  have hspared := hx.spared_by_failed hfails
  have hstranded : (∀ n, ¬ before.Live n) → after.Stranded := fun hlive =>
    hafter.stranded ⟨rfl, fun n hn => hlive n (hx.live_iff.2 hn)⟩
  refine ⟨hspared, fun t ht => hafter.spent_fire (by simp [refused]) (hspared.2.1 ▸ ht),
    ⟨fun hstranded n hn => ?_, hstranded⟩, fun htidy hpending => hstranded fun n hn => ?_⟩
  · exact hafter.not_live_of_stranded hstranded n (hafter.live_iff.2 (hx.live_iff.1 hn))
  · obtain ⟨y, hy, hkempt⟩ := kempt_run es hstands (kempt_outset settings b) hlegal htidy
    obtain ⟨t, ht⟩ := List.exists_mem_of_ne_nil _ hpending
    rw [hy.retries] at ht
    exact (hkempt.pending ht).1 n (hy.live_iff.1 hn)

/-- A link that has lost its socket and is connected by hand when no socket can be opened. -/
def impatience : List LinkEvent := loss ++ [.refuse (some "down")]

theorem stranded_connect_impatience :
    (fresh { url := "ws://panel/ws" } {}).Legal impatience ∧
      (((fresh { url := "ws://panel/ws" } {}).run impatience).network.connect 0).1 =
        .error (.socket (Browser.thrown "down")) ∧
      ((fresh { url := "ws://panel/ws" } {}).run impatience).retries =
        [{ id := 1, due := 2000, delay := 2000, task := .reconnect 0 }] ∧
      (((fresh { url := "ws://panel/ws" } {}).run impatience).step .connect).Stranded := by
  have hlegal : (fresh { url := "ws://panel/ws" } {}).Legal impatience :=
    ⟨trivial, ⟨⟨by decide, by decide⟩, by decide⟩, ⟨⟨by decide, by decide⟩, by decide⟩, trivial,
      trivial⟩
  have hfails : (((fresh { url := "ws://panel/ws" } {}).run impatience).network.connect 0).1 =
      .error (.socket (Browser.thrown "down")) := rfl
  have hretries : ((fresh { url := "ws://panel/ws" } {}).run impatience).retries =
      [{ id := 1, due := 2000, delay := 2000, task := .reconnect 0 }] := by decide
  have htidy : (fresh { url := "ws://panel/ws" } {}).TidyRun impatience := by
    refine ⟨fun _ n hn => ?_, nofun, nofun, nofun, trivial⟩
    have hlt : n < 1 := hn.1
    obtain rfl : n = 0 := by omega
    decide
  refine ⟨hlegal, hfails, hretries, ?_⟩
  refine (stranded_connect_iff _ rfl rfl impatience hlegal hfails).2.2.2 htidy ?_
  rw [hretries]
  exact List.cons_ne_nil _ _

/-- The link then says `Connecting`, where it said `Disconnected` before, and goes on saying so when
sockets can be opened again and its timer fires. The retry of `schedule_reconnect` sets the state
back in the same case. -/
theorem connecting_impatience :
    (fresh { url := "ws://panel/ws" } {}).Legal (impatience ++ [.connect, .refuse none,
        .fire { id := 1, due := 2000, delay := 2000, task := .reconnect 0 }]) ∧
      ((fresh { url := "ws://panel/ws" } {}).run impatience).link?.map (·.phase) =
        some .disconnected ∧
      (((fresh { url := "ws://panel/ws" } {}).run impatience).network.connect 0).1 =
        .error (.socket (Browser.thrown "down")) ∧
      ((fresh { url := "ws://panel/ws" } {}).run (impatience ++ [.connect])).link?.map (·.phase) =
        some .connecting ∧
      (let s := (fresh { url := "ws://panel/ws" } {}).run (impatience ++ [.connect, .refuse none,
          .fire { id := 1, due := 2000, delay := 2000, task := .reconnect 0 }])
       s.link?.map (·.phase) = some .connecting ∧ s.retries = [] ∧ s.created = 1) := by
  refine ⟨⟨trivial, ⟨⟨by decide, by decide⟩, by decide⟩, ⟨⟨by decide, by decide⟩, by decide⟩,
    trivial, trivial, trivial, ?_, trivial⟩, by decide, rfl, by decide, by decide, by decide,
    by decide⟩
  show _ ∈ Browser.timers _
  decide

end Session

end RosterPanel
