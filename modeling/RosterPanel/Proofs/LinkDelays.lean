import Mathlib.Data.List.Basic
import RosterPanel.Proofs.Backoff
import RosterPanel.Proofs.LinkTurns

/-!
# How long a link waits before it connects again

Each time that its socket closes, and each time that no other can be opened, a link sets a timer to
connect again. It has counted that failure by then: the first delay is the initial one doubled, and
each further one is twice the one before, up to a cap, until a socket opens or the link is told to
connect. Results:

* `Session.delays`, `Session.losses`: the delays that a run sets since the link last began anew, and
  the failures since then.
* `Session.OnTime`: the invariant that the delays so far are those of the first few failures, with
  `OnTime.step` and `OnTime.run`.
* `Session.delays_run`: the delay number `n` of every run, from 0, is
  `min 30000 (1000 * 2 ^ ((n + 1) % 2 ^ 32))` ms; `Session.not_initial_setback`: so the first is
  2000 ms.
-/

namespace RosterPanel

/-! ## Runs and their delays -/

/-- Whether a link begins anew to count its failures: it is told to connect, or a socket opens. -/
def LinkEvent.renews : LinkEvent → Bool
  | .connect => true
  | .socket _ .opened _ => true
  | _ => false

namespace Session

/-- Whether an event is a failure: a socket closes, unless the link was closed from this side, or
none can be opened when the link is to connect again. -/
def loses (s : Session) : LinkEvent → Bool
  | .socket _ .closed _ => s.link?.any (!·.retired)
  | .fire _ => s.link?.any (·.phase = .disconnected) && s.browser.socketError.isSome
  | _ => false

/-- The timers to connect again that were pending before an event and that it has not fired. -/
def leftover (s : Session) : LinkEvent → List Timer
  | .fire t => s.retries.filter (·.id != t.id)
  | _ => s.retries

/-- The delays of the timers to connect again that an event sets. -/
def planned (s : Session) (e : LinkEvent) : List Int :=
  ((s.step e).retries.diff (s.leftover e)).map (·.delay)

/-- The delays that are set in a run since the link last began anew, if there have been some
before. -/
def delaysFrom (s : Session) (before : List Int) : List LinkEvent → List Int
  | [] => before
  | e :: rest => (s.step e).delaysFrom (if e.renews then [] else before ++ s.planned e) rest

/-- The delays that are set in a run since the link last began anew, oldest first. -/
def delays (s : Session) (es : List LinkEvent) : List Int := s.delaysFrom [] es

def lossesFrom (s : Session) (before : Nat) : List LinkEvent → Nat
  | [] => before
  | e :: rest =>
    (s.step e).lossesFrom (if e.renews then 0 else if s.loses e then before + 1 else before) rest

/-- How many failures there are in a run since the link last began anew. -/
def losses (s : Session) (es : List LinkEvent) : Nat := s.lossesFrom 0 es

end Session

/-! ## Timers that are set -/

theorem append_diff_self {α : Type} [DecidableEq α] (l m : List α) : (l ++ m).diff l = m := by
  induction l with
  | nil => rfl
  | cons a rest ih => rw [List.cons_append, List.diff_cons, List.erase_cons_head, ih]

theorem diff_eq_nil_of_sublist {α : Type} [DecidableEq α] {l m : List α} (h : m.Sublist l) :
    m.diff l = [] := by
  have hself : l.diff l = [] := by simpa using append_diff_self l []
  have hless : (m.diff l).Sublist (l.diff l) := h.diff_right
  rw [hself] at hless
  exact List.sublist_nil.1 hless

/-! ## Runs on time -/

namespace Session

variable {s s' : Session} {x x' y : Standing} {e : LinkEvent}

/-- The delays so far are those of the first few failures, and the link has counted these. -/
structure OnTime (s : Session) (x : Standing) (before : List Int) (lost : Nat) : Prop
    extends Stands s x where
  delays : before = (List.range' 1 before.length).map x.link.settings.wait
  attempt : x.ticking = true → x.link.attempt = UInt32.ofNat before.length
  /-- Where timers can be set, each failure has set one. -/
  count : x.ticking = true → before.length = lost
  /-- Where no timers can be set, none are. -/
  still : x.ticking = false → before = []

variable {before : List Int} {lost : Nat}

/-- No failures yet. -/
theorem Stands.onTime (h : s.Stands x) (hattempt : x.link.attempt = 0) : s.OnTime x [] 0 where
  toStands := h
  delays := rfl
  attempt _ := hattempt
  count _ := rfl
  still _ := rfl

/-- Nothing has failed. -/
theorem OnTime.rest (h : s.OnTime x before lost) (h' : (s.step e).Stands x')
    (hsettings : x'.link.settings = x.link.settings) (hattempt : x'.link.attempt = x.link.attempt)
    (hticking : x'.ticking = x.ticking) (htimers : x'.timers.Sublist (s.leftover e)) :
    (s.step e).OnTime x' (before ++ s.planned e) lost := by
  have hplanned : s.planned e = [] := by
    rw [planned, h'.retries, diff_eq_nil_of_sublist htimers, List.map_nil]
  rw [hplanned, List.append_nil]
  exact ⟨h', hsettings ▸ h.delays, fun hset => hattempt.trans (h.attempt (hticking ▸ hset)),
    fun hset => h.count (hticking ▸ hset), fun hnot => h.still (hticking ▸ hnot)⟩

/-- Something has failed, and a timer is set if one can be set. -/
theorem OnTime.fail (h : s.OnTime x before lost) (h' : (s.step e).Stands x') (hy : y.Planned x')
    (hsettings : y.link.settings = x.link.settings)
    (hattempt : y.link.attempt = x.link.attempt + 1) (hticking : y.ticking = x.ticking)
    (htimers : y.timers = s.leftover e) :
    (s.step e).OnTime x' (before ++ s.planned e) (lost + 1) := by
  cases hy with
  | @set t hset htask hdelay =>
    have hplanned : s.planned e = [t.delay] := by
      rw [planned, h'.retries, ← htimers, append_diff_self, List.map_singleton]
    have hcount : y.link.attempt = UInt32.ofNat (before.length + 1) := by
      rw [hattempt, h.attempt (hticking ▸ hset), UInt32.ofNat_add]
      rfl
    have hwait : t.delay = x.link.settings.wait (before.length + 1) := by
      rw [hdelay, hsettings, hcount]
      rfl
    rw [hplanned]
    refine ⟨h', ?_, fun _ => ?_, fun _ => ?_, fun hnot => absurd (hset.symm.trans hnot) (by simp)⟩
    · rw [List.length_append, List.length_singleton, List.range'_1_concat, List.map_append,
        hsettings, ← h.delays, hwait, Nat.add_comm 1]
      rfl
    · rw [hcount, List.length_append, List.length_singleton]
    · rw [List.length_append, List.length_singleton, h.count (hticking ▸ hset)]
  | unset hnot =>
    have hplanned : s.planned e = [] := by
      rw [planned, h'.retries, ← htimers, diff_eq_nil_of_sublist (List.Sublist.refl _),
        List.map_nil]
    rw [hplanned, List.append_nil, h.still (hticking ▸ hnot)]
    exact ⟨h', rfl, fun hset => absurd (hnot.symm.trans hset) (by simp),
      fun hset => absurd (hnot.symm.trans hset) (by simp), fun _ => rfl⟩

/-! ### Steps -/

theorem Stands.loses_closed (h : s.Stands x) (n : Nat) (replies : List String) :
    s.loses (.socket n .closed replies) = !x.link.retired := by
  rw [loses, h.link?, Option.any_some]

theorem Stands.loses_fire (h : s.Stands x) (t : Timer) :
    s.loses (.fire t) =
      (decide (x.link.phase = .disconnected) && s.browser.socketError.isSome) := by
  rw [loses, h.link?, Option.any_some]

theorem Stands.leftover_fire (h : s.Stands x) (t : Timer) :
    s.leftover (.fire t) = (x.spend t).timers :=
  congrArg (List.filter _) h.retries

theorem OnTime.step_talk (h : s.OnTime x before lost) (hpossible : e.Possible s)
    (htalk : e.IsTalk) : (s.step e).OnTime x (before ++ s.planned e) lost := by
  obtain ⟨b', hb', hstep⟩ :=
    Session.step_talk h.network (fun _ => h.owner_of_live) htalk hpossible
  have hstands : (s.step e).Stands x := by
    rw [hstep, h.opened, h.ended, h.shut]
    exact h.of_outline hb'
  have hleftover : s.leftover e = s.retries := by
    cases e with
    | fire => exact htalk.elim
    | _ => rfl
  refine h.rest hstands rfl rfl rfl ?_
  rw [hleftover, h.retries]

theorem OnTime.step_connect (h : s.OnTime x before lost) :
    ∃ x', (s.step .connect).OnTime x' [] 0 ∧ x'.link.settings = x.link.settings := by
  obtain ⟨x', hturn, hstands⟩ := h.turn_connect
  cases hturn with
  | talk htalk => exact htalk.elim
  | called | refused => exact ⟨_, hstands.onTime rfl, rfl⟩

theorem OnTime.step_close (h : s.OnTime x before lost) :
    ∃ x', (s.step .close).OnTime x' (before ++ s.planned .close) lost ∧
      x'.link.settings = x.link.settings := by
  obtain ⟨x', hturn, hstands⟩ := h.turn_close
  cases hturn with
  | talk htalk => exact htalk.elim
  | shut =>
    have hless : x.strays.Sublist (s.leftover .close) := by
      show x.strays.Sublist s.retries
      rw [h.retries]
      exact List.filter_sublist
    exact ⟨_, h.rest hstands rfl rfl rfl hless, rfl⟩

theorem OnTime.step_opened (h : s.OnTime x before lost) {n : Nat} {replies : List String}
    (hpossible : LinkEvent.Possible s (.socket n .opened replies)) :
    ∃ x', (s.step (.socket n .opened replies)).OnTime x' [] 0 ∧
      x'.link.settings = x.link.settings := by
  obtain ⟨x', hturn, hstands⟩ :=
    h.turn_opened replies hpossible.1 (hpossible.2 rfl).1 (hpossible.2 rfl).2
  cases hturn with
  | talk htalk => exact absurd rfl htalk.1
  | opened => exact ⟨_, hstands.onTime rfl, rfl⟩

theorem OnTime.step_closed (h : s.OnTime x before lost) {n : Nat} {replies : List String}
    (hn : s.Live n) :
    let e : LinkEvent := .socket n .closed replies
    ∃ x', (s.step e).OnTime x' (before ++ s.planned e) (if s.loses e then lost + 1 else lost) ∧
      x'.link.settings = x.link.settings := by
  intro e
  have hleftover : s.leftover e = x.timers := h.retries
  rw [h.loses_closed n replies]
  cases hretired : x.link.retired with
  | true =>
    have hstands := h.closed_of_retired replies hn hretired
    exact ⟨_, h.rest hstands rfl rfl rfl (hleftover ▸ List.Sublist.refl _), rfl⟩
  | false =>
    obtain ⟨x', hplanned, hstands⟩ := h.closed_of_working replies hn hretired
    exact ⟨x', h.fail hstands hplanned rfl rfl rfl hleftover.symm, hplanned.link_eq.1⟩

theorem OnTime.step_fire (h : s.OnTime x before lost) {t : Timer} (ht : t ∈ s.browser.timers) :
    let e : LinkEvent := .fire t
    ∃ x', (s.step e).OnTime x' (before ++ s.planned e) (if s.loses e then lost + 1 else lost) ∧
      x'.link.settings = x.link.settings := by
  intro e
  have hleftover : s.leftover e = (x.spend t).timers := h.leftover_fire t
  have hless : (x.spend t).timers.Sublist (s.leftover e) := hleftover ▸ List.Sublist.refl _
  rw [h.loses_fire t]
  by_cases hphase : x.link.phase = .disconnected
  swap
  · rw [decide_eq_false hphase]
    exact ⟨_, h.rest (h.fire_of_ne ht hphase) rfl rfl rfl hless, rfl⟩
  rw [decide_eq_true hphase]
  cases hopen : s.browser.socketError with
  | none => exact ⟨_, h.rest (h.fire_of_open ht hphase hopen) rfl rfl rfl hless, rfl⟩
  | some error =>
    obtain ⟨x', hplanned, hstands⟩ := h.fire_of_error ht hphase hopen
    exact ⟨x', h.fail hstands hplanned rfl rfl rfl hleftover.symm, hplanned.link_eq.1⟩

/-- Every event keeps the delays on time. -/
theorem OnTime.step (h : s.OnTime x before lost) (hpossible : e.Possible s) :
    ∃ x', (s.step e).OnTime x' (if e.renews then [] else before ++ s.planned e)
      (if e.renews then 0 else if s.loses e then lost + 1 else lost) ∧
      x'.link.settings = x.link.settings := by
  cases e using LinkEvent.casesOnKind with
  | talk e htalk =>
    have hquiet : e.renews = false ∧ s.loses e = false := by
      cases e with
      | socket n event =>
        cases event with
        | opened => exact absurd rfl htalk.1
        | closed => exact absurd rfl htalk.2
        | _ => exact ⟨rfl, rfl⟩
      | connect | close | fire => exact htalk.elim
      | send | refuse | obstruct => exact ⟨rfl, rfl⟩
    rw [hquiet.1, hquiet.2]
    exact ⟨x, h.step_talk hpossible htalk, rfl⟩
  | connect => exact h.step_connect
  | close => exact h.step_close
  | fire t => exact h.step_fire hpossible
  | opened n replies => exact h.step_opened hpossible
  | closed n replies => exact h.step_closed hpossible.1

/-! ### Runs -/

theorem OnTime.run (es : List LinkEvent) (h : s.OnTime x before lost) (hlegal : s.Legal es) :
    ∃ x', (s.run es).OnTime x' (s.delaysFrom before es) (s.lossesFrom lost es) ∧
      x'.link.settings = x.link.settings := by
  induction es generalizing s x before lost with
  | nil => exact ⟨x, h, rfl⟩
  | cons e rest ih =>
    obtain ⟨x₁, h₁, hsettings₁⟩ := h.step hlegal.1
    obtain ⟨x₂, h₂, hsettings₂⟩ := ih h₁ hlegal.2
    exact ⟨x₂, h₂, hsettings₂.trans hsettings₁⟩

/-- For every legal run `es` of a new `WsClient` with the default settings, the delay number `n`
(from 0) that `schedule_reconnect` sets since the last `connect` or open socket is
`min 30000 (1000 * 2 ^ ((n + 1) % 2 ^ 32))` ms: `reconnect_attempt` is raised before
`get_backoff_ms` is called. Where timers can be set, there are as many delays as failures. -/
theorem delays_run (url : String) {b : Browser} (htimers : b.timers = [])
    (hsockets : b.sockets = []) (es : List LinkEvent) (hlegal : (fresh { url } b).Legal es) :
    let s := fresh { url } b
    (∀ n (hn : n < (s.delays es).length),
      (s.delays es)[n] = (min 30000 (1000 * 2 ^ ((n + 1) % 2 ^ 32)) : Nat)) ∧
    (b.Ticking → (s.delays es).length = s.losses es) := by
  intro s
  have hfresh : s.Stands (outset { url } b) := stands_fresh { url } htimers hsockets
  obtain ⟨x, hx, hsettings⟩ := (hfresh.onTime rfl).run es hlegal
  obtain ⟨y, hy, hticking⟩ := hfresh.run hlegal
  refine ⟨fun n hn => ?_, fun hset => hx.count (hx.ticking.1 (hy.ticking.2 ?_))⟩
  swap
  · exact hticking.trans (decide_eq_true hset)
  have hdelays : s.delays es =
      (List.range' 1 (s.delays es).length).map ({ url } : LinkSettings).wait := by
    have h := hx.delays
    rw [hsettings] at h
    exact h
  rw [List.getElem_of_eq hdelays hn, List.getElem_map, List.getElem_range', Nat.one_mul,
    Nat.add_comm, LinkSettings.wait_default]

/-- A link that opens, loses its socket, and finds when a timer fires that no other can be
opened. -/
def setback : List LinkEvent :=
  [.connect, .socket 0 .opened [], .socket 0 .closed [], .refuse (some "down"),
    .fire { id := 1, due := 2000, delay := 2000, task := .reconnect 0 }]

theorem legal_setback : (fresh { url := "ws://panel/ws" } {}).Legal setback := by
  refine ⟨trivial, ⟨⟨by decide, by decide⟩, by decide⟩, ⟨⟨by decide, by decide⟩, by decide⟩,
    trivial, ?_, trivial⟩
  show _ ∈ Browser.timers _
  decide

theorem delays_run_setback :
    let s := fresh { url := "ws://panel/ws" } {}
    s.Legal setback ∧ (s.delays setback).length = 2 ∧
      ∀ n (hn : n < (s.delays setback).length),
        (s.delays setback)[n] = (min 30000 (1000 * 2 ^ ((n + 1) % 2 ^ 32)) : Nat) := by
  intro s
  have hrun := delays_run "ws://panel/ws" (b := {}) rfl rfl setback legal_setback
  have hlosses : s.losses setback = 2 := by decide
  refine ⟨legal_setback, ?_, hrun.1⟩
  rw [hrun.2 ⟨rfl, rfl⟩, hlosses]

/-- The delays are 2000 and 4000 ms, and not `1000 * 2 ^ n` from `n = 0` on. -/
theorem not_initial_setback :
    let s := fresh { url := "ws://panel/ws" } {}
    (s.network.connect 0).1 = .ok () ∧ s.Legal setback ∧ s.delays setback = [2000, 4000] ∧
      ¬ ∀ n (hn : n < (s.delays setback).length),
          (s.delays setback)[n] = (min 30000 (1000 * 2 ^ n) : Nat) := by
  intro s
  have hdelays : s.delays setback = [2000, 4000] := by decide
  refine ⟨rfl, legal_setback, hdelays, fun hinitial => ?_⟩
  have hfirst := hinitial 0 (by rw [hdelays]; decide)
  rw [List.getElem_of_eq hdelays, List.getElem_cons_zero] at hfirst
  exact absurd hfirst (by decide)

end Session

end RosterPanel
