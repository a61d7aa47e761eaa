import RosterPanel.Proofs.LinkTurns

/-!
# Sockets that a link has left behind

All sockets that a link ever opened report to it, also when another one has taken their place: one
that was closed from this side reports its close only later, and one that was replaced while it was
still connecting may even open. Such an event is harmless exactly as long as no connect leaves a
live socket behind. Results:

* `Session.Undisturbed`: what happens on a socket that is not in use leaves the link alone.
* `Session.TidyRun`: after each connect of a run no socket is live but the one in use.
* `Standing.Kempt`: the invariant of tidy runs, with `Kempt.turn` and `kempt_run`.
* `Session.undisturbed_run_iff`: for every run, all sessions on its way are undisturbed if and only
  if it is tidy; `Session.disturbed_haste` is a run that is not.
-/

namespace RosterPanel

namespace Session

/-- The socket in use. -/
def inUse (s : Session) : Option Nat := s.link?.bind (·.socket)

/-- How a link is connected, how many attempts have failed, and the timers that will connect it
again. -/
def bearing (s : Session) : Option (Phase × UInt32) × List Timer :=
  (s.link?.map fun l => (l.phase, l.attempt), s.retries)

/-- A socket that is not in use can open or close without any effect on the link. -/
def Undisturbed (s : Session) : Prop :=
  ∀ n event replies, event = .opened ∨ event = .closed →
    LinkEvent.Possible s (.socket n event replies) → s.inUse ≠ some n →
    (s.step (.socket n event replies)).bearing = s.bearing

/-- No socket is live but the one in use. -/
def Tidy (s : Session) : Prop := ∀ n, s.Live n → s.inUse = some n

/-- Each connect of a run leaves the session tidy. -/
def TidyRun (s : Session) : List LinkEvent → Prop
  | [] => True
  | e :: rest => (e = .connect → (s.step e).Tidy) ∧ (s.step e).TidyRun rest

variable {s : Session} {x : Standing}

theorem TidyRun.append {es fs : List LinkEvent} (h : s.TidyRun (es ++ fs)) :
    s.TidyRun es ∧ (s.run es).TidyRun fs := by
  induction es generalizing s with
  | nil => exact ⟨trivial, h⟩
  | cons e rest ih => exact ⟨⟨h.1, (ih h.2).1⟩, (ih h.2).2⟩

theorem Stands.inUse (h : s.Stands x) : s.inUse = x.link.socket := by
  rw [Session.inUse, h.link?]
  rfl

theorem Stands.bearing (h : s.Stands x) :
    s.bearing = (some (x.link.phase, x.link.attempt), x.timers) := by
  rw [Session.bearing, h.link?, h.retries]
  rfl

end Session

/-! ## Tidy runs -/

namespace Standing

variable {x x' : Standing}

/-- The invariant of a run whose connects leave nothing behind. -/
structure Kempt (x : Standing) : Prop where
  /-- The only timer that can be pending is the one that the link remembers. -/
  remembered : ∀ t ∈ x.timers, x.link.timer = some t.id
  /-- While a socket is live, nothing is planned. -/
  settled : ∀ n, x.Live n → x.timers = []
  /-- A link that was closed from this side is at rest. -/
  retired : x.link.retired = true →
    x.link.phase = .disconnected ∧ x.link.socket = none ∧ x.timers = []
  /-- A live socket is the one in use, or was told to close. -/
  current : ∀ n, x.Live n → x.link.socket = some n ∨ x.link.retired = true ∧ n ∈ x.shut

theorem Kempt.strays_eq_nil (h : x.Kempt) : x.strays = [] := by
  refine List.filter_eq_nil_iff.2 fun t ht => ?_
  simp [h.remembered t ht]

theorem Kempt.spend_timers (h : x.Kempt) {t : Timer} (ht : t ∈ x.timers) :
    (x.spend t).timers = [] := by
  refine List.filter_eq_nil_iff.2 fun u hu => ?_
  have hid : t.id = u.id := Option.some.inj ((h.remembered t ht).symm.trans (h.remembered u hu))
  simp [hid]

/-- A timer is pending only while no socket is live and the link is to come back. -/
theorem Kempt.pending (h : x.Kempt) {t : Timer} (ht : t ∈ x.timers) :
    (∀ n, ¬ x.Live n) ∧ x.link.retired = false := by
  constructor
  · intro n hn
    rw [h.settled n hn] at ht
    cases ht
  · by_contra hretired
    rw [(h.retired (by simpa using hretired)).2.2] at ht
    cases ht

/-- A timer is set only when no socket is live and none is pending. -/
theorem Planned.kempt (h : x.Planned x') (hlive : ∀ n, ¬ x.Live n) (htimers : x.timers = [])
    (hretired : x.link.retired = false) : x'.Kempt := by
  cases h <;> exact ⟨by simp [htimers], fun n hn => absurd hn (hlive n), by simp [hretired],
    fun n hn => absurd hn (hlive n)⟩

/-- A turn keeps the invariant, if a connect leaves no live socket behind. -/
theorem Kempt.turn (h : x.Kempt) {e : LinkEvent} (ht : Turn x e x')
    (htidy : e = .connect → ∀ n, x'.Live n → x'.link.socket = some n) : x'.Kempt := by
  cases ht with
  | talk => exact h
  | called =>
    have hstrays := h.strays_eq_nil
    exact ⟨by simp [hstrays], fun _ _ => hstrays, nofun, fun n hn => Or.inl (htidy rfl n hn)⟩
  | refused => exact ⟨h.remembered, h.settled, nofun, fun n hn => Or.inl (htidy rfl n hn)⟩
  | shut =>
    have hstrays := h.strays_eq_nil
    refine ⟨by simp [hstrays], fun _ _ => hstrays, fun _ => ⟨rfl, rfl, hstrays⟩, fun n hn => ?_⟩
    rcases h.current n hn with hsocket | ⟨-, hshut⟩
    · exact Or.inr ⟨rfl, by simp [hsocket]⟩
    · exact Or.inr ⟨rfl, List.mem_append_right _ hshut⟩
  | @opened n _ hn _ hshut =>
    have hretired : x.link.retired ≠ true := by
      intro hretired
      rcases h.current n hn with hsocket | ⟨-, hmem⟩
      · rw [(h.retired hretired).2.1] at hsocket
        cases hsocket
      · exact hshut hmem
    exact ⟨h.remembered, h.settled, fun hr => absurd hr hretired, h.current⟩
  | @ended n _ hn hretired =>
    have hless : ∀ m, Live { x with
        link := { x.link with phase := .disconnected }, ended := n :: x.ended } m → x.Live m :=
      fun m hm => ⟨hm.1, fun hmem => hm.2 (List.mem_cons_of_mem n hmem)⟩
    exact ⟨h.remembered, fun m hm => h.settled m (hless m hm),
      fun _ => ⟨rfl, (h.retired hretired).2⟩, fun m hm => h.current m (hless m hm)⟩
  | @lost n _ _ hn hretired hplanned =>
    -- The link works, so the socket that is lost was the only live one.
    have honly : ∀ m, x.Live m → m = n := by
      intro m hm
      have huse : ∀ k, x.Live k → x.link.socket = some k := fun k hk =>
        (h.current k hk).resolve_right fun hor => absurd hor.1 (by simp [hretired])
      exact Option.some.inj ((huse m hm).symm.trans (huse n hn))
    refine hplanned.kempt (fun m hm => ?_) (h.settled n hn) hretired
    have hm' : x.Live m := ⟨hm.1, fun hmem => hm.2 (List.mem_cons_of_mem n hmem)⟩
    exact hm.2 (by simp [honly m hm'])
  | idle hmem =>
    have hspent := h.spend_timers hmem
    exact ⟨by simp [hspent], fun _ _ => hspent, fun hr => ⟨(h.retired hr).1, (h.retired hr).2.1,
      hspent⟩, h.current⟩
  | @again t hmem =>
    have hspent := h.spend_timers hmem
    refine ⟨by simp [hspent], fun _ _ => hspent, fun hr => ?_, fun n hn => Or.inl ?_⟩
    · exact absurd ((h.pending hmem).2.symm.trans hr) (by decide)
    · have hlt : ¬ n < x.created := fun hlt => (h.pending hmem).1 n ⟨hlt, hn.2⟩
      have hle : n < x.created + 1 := hn.1
      exact congrArg some (by omega)
  | failed hmem _ hplanned =>
    exact hplanned.kempt (h.pending hmem).1 (h.spend_timers hmem) (h.pending hmem).2

end Standing

/-! ## Runs -/

namespace Session

variable {s : Session} {x : Standing}

theorem Stands.tidy_iff (h : s.Stands x) : s.Tidy ↔ ∀ n, x.Live n → x.link.socket = some n := by
  simp only [Tidy, h.inUse, h.live_iff]

/-- A tidy run keeps the invariant. -/
theorem kempt_run (es : List LinkEvent) (h : s.Stands x) (hkempt : x.Kempt) (hlegal : s.Legal es)
    (htidy : s.TidyRun es) : ∃ x', (s.run es).Stands x' ∧ x'.Kempt := by
  induction es generalizing s x with
  | nil => exact ⟨x, h, hkempt⟩
  | cons e rest ih =>
    obtain ⟨x', hturn, h'⟩ := h.turn hlegal.1
    exact ih h' (hkempt.turn hturn fun he => h'.tidy_iff.1 (htidy.1 he)) hlegal.2 htidy.2

theorem kempt_outset (settings : LinkSettings) (b : Browser) : (outset settings b).Kempt where
  remembered := nofun
  settled _ _ := rfl
  retired := nofun
  current n hn := absurd hn.1 (Nat.not_lt_zero n)

/-- In a tidy session, nothing that happens on other sockets matters. -/
theorem Stands.undisturbed (h : s.Stands x) (hkempt : x.Kempt) : s.Undisturbed := by
  intro n event replies hevent hpossible huse
  obtain ⟨hn, horder⟩ := hpossible
  rw [h.inUse] at huse
  obtain ⟨hretired, hshut⟩ := (hkempt.current n (h.live_iff.1 hn)).resolve_left huse
  rcases hevent with rfl | rfl
  · exact absurd (h.shut ▸ hshut) (horder rfl).2
  · obtain ⟨x', hturn, h'⟩ := h.turn_closed replies hn
    rw [h.bearing, h'.bearing]
    cases hturn with
    | talk htalk => exact absurd rfl htalk.2
    | ended => rw [(hkempt.retired hretired).1]
    | lost _ hworking => exact absurd (hretired.symm.trans hworking) (by decide)

/-- A connect leaves no live socket behind if none can disturb the link then: it is connecting, and
the close of another socket would disconnect it. -/
theorem Stands.tidy_connect (h : s.Stands x) (hundisturbed : (s.step .connect).Undisturbed) :
    (s.step .connect).Tidy := by
  obtain ⟨x', hturn, h'⟩ := h.turn_connect
  intro n hn
  by_contra huse
  have hsame := hundisturbed n .closed [] (Or.inr rfl) ⟨hn, nofun⟩ huse
  obtain ⟨y, hlost, hy⟩ := h'.turn_closed [] hn
  rw [h'.bearing, hy.bearing] at hsame
  have hconnecting : x'.link.phase = .connecting := by
    cases hturn with
    | talk htalk => exact htalk.elim
    | called | refused => rfl
  have hdisconnected : y.link.phase = .disconnected := by
    cases hlost with
    | talk htalk => exact absurd rfl htalk.2
    | ended => rfl
    | lost _ _ hplanned => exact hplanned.link_eq.2.1
  rw [hconnecting, hdisconnected] at hsame
  simp at hsame

theorem Stands.tidyRun (es : List LinkEvent) (h : s.Stands x) (hlegal : s.Legal es)
    (hundisturbed : ∀ before after, es = before ++ after → (s.run before).Undisturbed) :
    s.TidyRun es := by
  induction es generalizing s x with
  | nil => trivial
  | cons e rest ih =>
    obtain ⟨x', -, h'⟩ := h.turn hlegal.1
    refine ⟨?_, ih h' hlegal.2 fun before after heq => ?_⟩
    · rintro rfl
      exact h.tidy_connect (hundisturbed [.connect] rest rfl)
    · exact hundisturbed (e :: before) after (congrArg (e :: ·) heq)

/-- For every legal run `es` of a new `WsClient`: the listeners of sockets that are not in use leave
state, `reconnect_attempt` and timers alone all along `es` if and only if after each `connect` in
`es` no socket is live but the one in use. `onclose` does not ask which socket has closed. -/
theorem undisturbed_run_iff (settings : LinkSettings) {b : Browser} (htimers : b.timers = [])
    (hsockets : b.sockets = []) (es : List LinkEvent) (hlegal : (fresh settings b).Legal es) :
    (∀ before after, es = before ++ after → ((fresh settings b).run before).Undisturbed) ↔
      (fresh settings b).TidyRun es := by
  have hstands := stands_fresh settings htimers hsockets
  refine ⟨hstands.tidyRun es hlegal, ?_⟩
  rintro htidy before after rfl
  obtain ⟨x, hx, hkempt⟩ := kempt_run before hstands (kempt_outset settings b) hlegal.append.1
    htidy.append.1
  exact hx.undisturbed hkempt

/-- A link that is closed, and connected again when its socket has reported the close. -/
def patience : List LinkEvent :=
  [.connect, .socket 0 .opened [], .close, .socket 0 .closed [], .connect, .socket 1 .opened []]

theorem undisturbed_run_patience :
    (fresh { url := "ws://panel/ws" } {}).Legal patience ∧
      (fresh { url := "ws://panel/ws" } {}).TidyRun patience ∧
      ∀ before after, patience = before ++ after →
        ((fresh { url := "ws://panel/ws" } {}).run before).Undisturbed := by
  have hlegal : (fresh { url := "ws://panel/ws" } {}).Legal patience :=
    ⟨trivial, ⟨⟨by decide, by decide⟩, by decide⟩, trivial, ⟨⟨by decide, by decide⟩, by decide⟩,
      trivial, ⟨⟨by decide, by decide⟩, by decide⟩, trivial⟩
  have htidy : (fresh { url := "ws://panel/ws" } {}).TidyRun patience := by
    refine ⟨fun _ n hn => ?_, nofun, nofun, nofun, fun _ n hn => ?_, nofun, trivial⟩
    · have hlt : n < 1 := hn.1
      obtain rfl : n = 0 := by omega
      decide
    · have hlt : n < 2 := hn.1
      have hne : n ≠ 0 := by
        rintro rfl
        exact hn.2 (by decide)
      obtain rfl : n = 1 := by omega
      decide
  exact ⟨hlegal, htidy, (undisturbed_run_iff _ rfl rfl patience hlegal).2 htidy⟩

/-- A link that is closed, and connected again at once. -/
def haste : List LinkEvent := [.connect, .socket 0 .opened [], .close, .connect]

/-- The close of the first socket then makes the link `Disconnected`, though it is connecting over
the second one, and a third one is planned: `connect` has reset `closed_by_client`. -/
theorem disturbed_haste :
    (fresh { url := "ws://panel/ws" } {}).Legal (haste ++ [.socket 0 .closed []]) ∧
      ((fresh { url := "ws://panel/ws" } {}).run haste).inUse = some 1 ∧
      ((fresh { url := "ws://panel/ws" } {}).run haste).bearing = (some (.connecting, 0), []) ∧
      ((fresh { url := "ws://panel/ws" } {}).run (haste ++ [.socket 0 .closed []])).bearing =
        (some (.disconnected, 1),
          [{ id := 1, due := 2000, delay := 2000, task := .reconnect 0 }]) := by
  refine ⟨⟨trivial, ⟨⟨by decide, by decide⟩, by decide⟩, trivial, trivial,
    ⟨⟨by decide, by decide⟩, by decide⟩, trivial⟩, by decide, by decide, by decide⟩

end Session

end RosterPanel
