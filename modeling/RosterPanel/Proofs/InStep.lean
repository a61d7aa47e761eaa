import RosterPanel.Proofs.AppRun
import RosterPanel.Proofs.Latching

/-!
# The panel is in step with its link

The panel takes itself to be connected exactly when its link is, and as long as it is not, no
control is latched: a gesture latches its control, but the request cannot go out, and the failure
frees the control before the gesture has been handled to its end. Results:

* `Shell.Linked`: what sending, drawing and notices leave alone.
* `App.InStep`: the invariant, with `inStep_start`, `InStep.post` and `InStep.happen`.
* `App.connected_iff_afterStart`: whatever happens after `start`, `connected` holds if and only if
  `connection_state` is `Connected`, and else `is_idle` does.
-/

namespace RosterPanel

/-! ## The link of a shell -/

namespace Shell

/-- The phase of the link over which requests go out, if there is one. -/
def phase? (s : Shell) : Option Phase :=
  (s.installed.bind fun i => s.network.links[i]?).map (·.phase)

/-- At most one link has been made, the one over which requests go out. -/
def Single (s : Shell) : Prop :=
  (s.installed = none ∧ s.network.links = []) ∨ (s.installed = some 0 ∧ ∃ l, s.network.links = [l])

/-- Whether all of this is so of a shell: which link is installed, and which links there are; its
listeners are tame. -/
structure Linked (installed : Option Nat) (links : List Link) (s : Shell) : Prop where
  installed : s.installed = installed
  links : s.network.links = links
  tame : s.Tame

variable {i : Option Nat} {ls : List Link} {s : Shell}

theorem Linked.phase?_eq (h : s.Linked i ls) :
    s.phase? = (i.bind fun i => ls[i]?).map (·.phase) := by
  rw [phase?, h.installed, h.links]

theorem Linked.single {s' : Shell} (h : s'.Linked s.installed s.network.links) (hs : s.Single) :
    s'.Single := by
  unfold Single
  rw [h.installed, h.links]
  exact hs

theorem links_networkSend (n : Network) (i : Nat) (text : String) :
    (n.send i text).2.links = n.links := by
  unfold Network.send Network.act
  split
  · rfl
  · next l hl =>
    obtain ⟨hi, rfl⟩ := List.getElem?_eq_some_iff.1 hl
    exact List.set_getElem_self hi

theorem Linked.send (h : s.Linked i ls) (r : Request) : (s.send r).2.Linked i ls := by
  unfold Shell.send
  split
  · exact h
  · next j _ =>
    exact ⟨h.installed, (links_networkSend s.network j r.text).trans h.links, h.tame⟩

theorem Linked.draw (h : s.Linked i ls) (p : Panel) (part : Drawing) :
    (s.draw p part).Linked i ls := by
  have hsame : (s.draw p part).installed = s.installed ∧
      (s.draw p part).network.links = s.network.links := by
    unfold Shell.draw
    split
    · split <;> exact ⟨rfl, rfl⟩
    · exact ⟨rfl, rfl⟩
  exact ⟨hsame.1.trans h.installed, hsame.2.trans h.links, tame_draw h.tame p part⟩

theorem Linked.notify (h : s.Linked i ls) (kind : NoticeKind) (text : String) :
    (s.notify kind text).Linked i ls :=
  ⟨h.installed, h.links, tame_notify h.tame kind text⟩

/-- Requests do not go out over a link that is not connected. -/
theorem send_fails (h : s.phase? ≠ some .connected) (r : Request) :
    ∃ e s', s.send r = (.error e, s') := by
  unfold Shell.send
  split
  · exact ⟨_, _, rfl⟩
  · next i hi =>
    rw [phase?, hi, Option.bind_some] at h
    simp only [Outlet.send, Network.send, Network.act]
    split
    · exact ⟨_, _, rfl⟩
    · next l hl =>
      rw [hl, Option.map_some] at h
      have hphase : l.phase ≠ .connected := fun heq => h (congrArg some heq)
      unfold Link.send
      split
      · exact ⟨_, _, rfl⟩
      · rw [if_neg hphase]
        exact ⟨_, _, rfl⟩

/-- What handling messages that are no news keeps: the link, and whether the panel takes itself to
be connected. -/
theorem kept_linked (i : Option Nat) (ls : List Link) (connected : Bool) :
    Kept host (fun m => ¬ m.IsNews)
      (fun p s => p.connected = connected ∧ Linked i ls s) where
  react p _ _ hm h := ⟨(p.connected_react (m := _) hm).trans h.1, h.2⟩
  chain _ _ _ _ h := Panel.not_isNews_of_chain h
  fail _ _ := fun hnews => hnews
  send _ _ r h := ⟨h.1, h.2.send r⟩
  draw p _ part h := ⟨h.1, h.2.draw p part⟩
  notify _ _ kind text h := ⟨h.1, h.2.notify kind text⟩

end Shell

/-! ## Latches while there is no connection -/

/-- No control is latched, and the link is not connected. -/
structure Stranded (i : Option Nat) (ls : List Link) (p : Panel) (s : Shell) : Prop
    extends Shell.Linked i ls s where
  idle : p.latches.pending = []
  phase : s.phase? ≠ some .connected

namespace Stranded

variable {i : Option Nat} {ls : List Link} {p : Panel} {s s' : Shell}

theorem of_linked (h : Stranded i ls p s) (h' : s'.Linked i ls) : Stranded i ls p s' := by
  refine ⟨h', h.idle, ?_⟩
  rw [h'.phase?_eq, ← h.toLinked.phase?_eq]
  exact h.phase

/-- Where no control is latched, a message can at most latch its own one. -/
theorem react_cases (h : Stranded i ls p s) (m : Message) :
    (p.react m).1.latches.pending = [] ∨
      ∃ c r, (p.react m).1.latches.pending = [⟨c, r.verb⟩] ∧
        (p.react m).2 = [.draw (.control c true), .send r] := by
  have hstep := p.latchStep_react m
  generalize (p.react m).1.latches = l' at hstep ⊢
  generalize (p.react m).2 = effects at hstep ⊢
  cases hstep with
  | keep => exact Or.inl h.idle
  | @arm c r => exact Or.inr ⟨c, r, by rw [h.idle, List.nil_append], rfl⟩
  | release hpending =>
    rw [h.idle] at hpending
    simp at hpending
  | clear => exact Or.inl rfl

/-- A failure frees the control that waits for the request, if there is only this one. -/
theorem react_failed {c : Control} {r : Request} (h : p.latches.pending = [⟨c, r.verb⟩])
    (e : LinkError) : (p.react (.ofLinkError r e)).1.latches.pending = [] := by
  show (p.latches.releaseVerb r.verb).2.pending = []
  simp [Latches.releaseVerb, Latches.releaseFirst_eq, h]

theorem react_failed_of_idle (h : p.latches.pending = []) (r : Request) (e : LinkError) :
    (p.react (.ofLinkError r e)).1.latches.pending = [] := by
  show (p.latches.releaseVerb r.verb).2.pending = []
  simp [Latches.releaseVerb, Latches.releaseFirst_eq, h]

/-- Reporting a failure draws and shows notices only. -/
theorem dispatch_failed (hs : s.Linked i ls) (r : Request) (e : LinkError)
    (hidle : (p.react (.ofLinkError r e)).1.latches.pending = [])
    (hphase : s.phase? ≠ some .connected) :
    Stranded i ls (dispatch Shell.host (.ofLinkError r e) (p, s)).1
      (dispatch Shell.host (.ofLinkError r e) (p, s)).2 := by
  have h : Stranded i ls (p.react (.ofLinkError r e)).1 s := ⟨hs, hidle, hphase⟩
  exact dispatch_failure (I := Stranded i ls)
    (fun _ _ part h => h.of_linked (h.toLinked.draw _ part))
    (fun _ _ kind text h => h.of_linked (h.toLinked.notify kind text)) r e h

/-- One effect of a message that is no news. -/
theorem perform {x : Effect}
    (hchain : ∀ m, x = .chain m → ∀ s : Panel × Shell, Stranded i ls s.1 s.2 →
      Stranded i ls (dispatch Shell.host m s).1 (dispatch Shell.host m s).2)
    {s : Panel × Shell} (h : Stranded i ls s.1 s.2) :
    Stranded i ls (perform Shell.host s x).1 (perform Shell.host s x).2 := by
  cases x with
  | chain m => exact hchain m rfl s h
  | draw part => exact h.of_linked (h.toLinked.draw _ _)
  | notify kind text => exact h.of_linked (h.toLinked.notify _ _)
  | send r =>
    obtain ⟨e, s', hsend⟩ := Shell.send_fails h.phase r
    have hlinked : s'.Linked i ls := by
      have := h.toLinked.send r
      rw [hsend] at this
      exact this
    have hperform : RosterPanel.perform Shell.host s (.send r) =
        dispatch Shell.host (.ofLinkError r e) (s.1, s') := by
      simp only [RosterPanel.perform, Shell.host, hsend]
    rw [hperform]
    exact dispatch_failed hlinked r e (react_failed_of_idle h.idle r e)
      (h.of_linked hlinked).phase

/-- Without a connection, handling a message leaves no control latched. -/
theorem dispatch {m : Message} {s : Panel × Shell} (h : Stranded i ls s.1 s.2) :
    Stranded i ls (dispatch Shell.host m s).1 (dispatch Shell.host m s).2 := by
  induction hrank : m.rank using Nat.strongRecOn generalizing m s with
  | ind rank ih =>
    subst hrank
    rw [dispatch_eq]
    rcases h.react_cases m with hidle | ⟨c, r, hpending, heffects⟩
    · have hreacted : Stranded i ls (s.1.react m).1 s.2 := ⟨h.toLinked, hidle, h.phase⟩
      refine Kept.foldl_perform (I := Stranded i ls) (fun x hx s' h' => h'.perform ?_) hreacted
      rintro m' rfl s'' h''
      exact ih m'.rank (Message.rank_lt_of_chain hx) h'' rfl
    · -- The control is shown as latched, then its request fails.
      rw [heffects]
      let shown := Shell.draw (s.1.react m).1 (.control c true) s.2
      have hshown : shown.Linked i ls := h.toLinked.draw _ _
      have hphase : shown.phase? ≠ some .connected := (h.of_linked hshown).phase
      obtain ⟨e, s', hsend⟩ := Shell.send_fails hphase r
      have hlinked : s'.Linked i ls := by
        have := hshown.send r
        rw [hsend] at this
        exact this
      have hfold : [Effect.draw (.control c true), .send r].foldl (RosterPanel.perform Shell.host)
          ((s.1.react m).1, s.2) =
            RosterPanel.dispatch Shell.host (.ofLinkError r e) ((s.1.react m).1, s') := by
        have hsent : Shell.host.send r (Shell.host.draw (s.1.react m).1 (.control c true) s.2) =
            (.error e, s') := hsend
        simp only [List.foldl_cons, List.foldl_nil, RosterPanel.perform, hsent]
      rw [hfold]
      exact dispatch_failed hlinked r e (react_failed hpending e) (h.of_linked hlinked).phase

theorem performAll {l : List Effect} {s : Panel × Shell} (h : Stranded i ls s.1 s.2) :
    Stranded i ls (l.foldl (RosterPanel.perform Shell.host) s).1
      (l.foldl (RosterPanel.perform Shell.host) s).2 :=
  Kept.foldl_perform (I := Stranded i ls)
    (fun _ _ _ h' => h'.perform fun _ _ _ h'' => h''.dispatch) h

end Stranded

/-! ## Which links are connected -/

namespace Network

/-- For each link whether it is connected. -/
def ups (n : Network) : List Bool := n.links.map fun l => l.phase == .connected

theorem ups_act {α : Type} (n : Network) (i : Nat) (default : α)
    {f : Link → Browser → α × Link × Browser}
    (hf : ∀ l b, ((f l b).2.1.phase == .connected) = (l.phase == .connected)) :
    (n.act i default f).2.ups = n.ups := by
  unfold act
  split
  · rfl
  · next l hl =>
    show (n.links.set i _).map _ = n.links.map _
    rw [List.map_set, hf]
    obtain ⟨hi, rfl⟩ := List.getElem?_eq_some_iff.1 hl
    have hi' : i < (n.links.map fun l => l.phase == .connected).length := by simpa using hi
    have hget : (n.links.map fun l => l.phase == .connected)[i] =
        (n.links[i].phase == .connected) := List.getElem_map _
    rw [← hget, List.set_getElem_self]

theorem ups_afterClose (n : Network) (s : Nat) : (n.afterClose s).ups = n.ups := by
  unfold afterClose
  split
  · rfl
  · refine ups_act n _ _ fun l b => ?_
    simp only [Link.afterClose, Link.scheduleRetry]
    split
    · rfl
    · split
      · split <;> rfl
      · rfl

theorem ups_retry (n : Network) (i : Nat) : (n.retry i).ups = n.ups := by
  refine ups_act n _ _ fun l b => ?_
  simp only [Link.retry, Link.scheduleRetry]
  split
  · next hphase =>
    rw [hphase]
    split
    · rfl
    · split
      · split <;> rfl
      · rfl
  · rfl

end Network

theorem Shell.phase?_eq_connected_iff (s : Shell) :
    s.phase? = some .connected ↔ (s.installed.bind fun i => s.network.ups[i]?) = some true := by
  unfold phase? Network.ups
  cases s.installed with
  | none => simp
  | some i => cases hl : s.network.links[i]? <;> simp [hl]

theorem Link.phase_connect (l : Link) (self : Nat) (b : Browser) :
    (l.connect self b).2.1.phase = .connecting := by
  simp only [connect]
  split
  · rfl
  · simp only [clearTimer]
    split <;> rfl

namespace Shell

/-- Laying out the page makes no link. -/
theorem mount_unlinked (s : Shell) (hinstalled : s.installed = none)
    (hlinks : s.network.links = []) :
    s.mount.2.installed = none ∧ s.mount.2.network.links = [] := by
  unfold mount
  split
  · split <;> exact ⟨hinstalled, hlinks⟩
  · exact ⟨hinstalled, hlinks⟩

/-- A new link is connecting, even when its socket could not be opened. -/
theorem connect_waiting (s : Shell) (hinstalled : s.installed = none)
    (hlinks : s.network.links = []) :
    s.connect.2.Single ∧ s.connect.2.phase? ≠ some .connected := by
  obtain ⟨⟨b, links⟩, d, view, installed, endpoint, asked⟩ := s
  obtain rfl : links = [] := hlinks
  obtain rfl : installed = none := hinstalled
  unfold connect
  split
  · exact ⟨Or.inl ⟨rfl, rfl⟩, by simp [phase?]⟩
  · next url _ =>
    have hconnect := Link.phase_connect { settings := { url } } 0 b
    refine ⟨Or.inr ⟨rfl, _, rfl⟩, ?_⟩
    show some ((Link.connect { settings := { url } } 0 b).2.1.phase) ≠ some .connected
    rw [hconnect]
    simp

end Shell

namespace App

/-- The phase of the link over which requests go out, if there is one. -/
def phase? (a : App) : Option Phase := a.shell.phase?

/-- The panel takes itself to be connected exactly when its link is, and nothing is latched as long
as it is not. -/
structure InStep (a : App) : Prop where
  tame : a.shell.Tame
  single : a.shell.Single
  connected : a.panel.connected = true ↔ a.phase? = some .connected
  idle : a.phase? ≠ some .connected → a.panel.latches.pending = []

variable {a : App}

theorem linked (h : a.shell.Tame) :
    a.shell.Linked a.shell.installed a.shell.network.links := ⟨rfl, rfl, h⟩

/-- A message that is no news of the connection. -/
theorem InStep.post (h : a.InStep) {m : Message} (hm : ¬ m.IsNews) : (a.post m).InStep := by
  obtain ⟨hconnected, hlinked⟩ := (Shell.kept_linked a.shell.installed a.shell.network.links
    a.panel.connected).dispatch (s := (a.panel, a.shell)) hm ⟨rfl, linked h.tame⟩
  have hphase : (a.post m).phase? = a.phase? :=
    hlinked.phase?_eq.trans (linked h.tame).phase?_eq.symm
  refine ⟨hlinked.tame, hlinked.single h.single, ?_, fun hdown => ?_⟩
  · rw [hphase, ← h.connected]
    exact Eq.congr_left hconnected
  · rw [hphase] at hdown
    have hstranded : Stranded a.shell.installed a.shell.network.links a.panel a.shell :=
      ⟨linked h.tame, h.idle hdown, hdown⟩
    exact (Stranded.dispatch (s := (a.panel, a.shell)) hstranded).idle

/-- The panel hears that its link is connected. -/
theorem inStep_opened (htame : a.shell.Tame) (hsingle : a.shell.Single)
    (hphase : a.phase? = some .connected) : (a.post .connectionOpened).InStep := by
  have hkept := Shell.kept_linked a.shell.installed a.shell.network.links true
  obtain ⟨hconnected, hlinked⟩ := hkept.performAll (l := (a.panel.react .connectionOpened).2)
    (s := ((a.panel.react .connectionOpened).1, a.shell))
    (fun _ h => Panel.not_isNews_of_chain h) ⟨rfl, linked htame⟩
  rw [← dispatch_eq Shell.host .connectionOpened (a.panel, a.shell)] at hconnected hlinked
  have hphase' : (a.post .connectionOpened).phase? = some .connected :=
    (hlinked.phase?_eq.trans (linked htame).phase?_eq.symm).trans hphase
  refine ⟨hlinked.tame, hlinked.single hsingle, ?_, fun hdown => absurd hphase' hdown⟩
  rw [hphase']
  exact ⟨fun _ => rfl, fun _ => hconnected⟩

/-- The panel hears that its link is not connected any more. -/
theorem inStep_lost (htame : a.shell.Tame) (hsingle : a.shell.Single)
    (hphase : a.phase? ≠ some .connected) : (a.post .connectionLost).InStep := by
  have hkept := Shell.kept_linked a.shell.installed a.shell.network.links false
  obtain ⟨hconnected, hlinked⟩ := hkept.performAll (l := (a.panel.react .connectionLost).2)
    (s := ((a.panel.react .connectionLost).1, a.shell))
    (fun _ h => Panel.not_isNews_of_chain h) ⟨rfl, linked htame⟩
  have hstranded : Stranded a.shell.installed a.shell.network.links
      (a.panel.react .connectionLost).1 a.shell := ⟨linked htame, rfl, hphase⟩
  have hidle := (hstranded.performAll (l := (a.panel.react .connectionLost).2)
    (s := ((a.panel.react .connectionLost).1, a.shell))).idle
  rw [← dispatch_eq Shell.host .connectionLost (a.panel, a.shell)] at hconnected hlinked hidle
  have hphase' : (a.post .connectionLost).phase? ≠ some .connected := by
    rw [show (a.post .connectionLost).phase? = a.phase? from
      hlinked.phase?_eq.trans (linked htame).phase?_eq.symm]
    exact hphase
  refine ⟨hlinked.tame, hlinked.single hsingle, ?_, fun _ => hidle⟩
  constructor
  · intro h
    rw [show (a.post .connectionLost).panel.connected = false from hconnected] at h
    cases h
  · exact fun h => absurd h hphase'

/-- Only which links are connected matters of a network. -/
theorem InStep.withNetwork (h : a.InStep) {n : Network} (hups : n.ups = a.shell.network.ups) :
    (a.withNetwork n).InStep := by
  have hphase : (a.withNetwork n).phase? = some .connected ↔ a.phase? = some .connected := by
    rw [phase?, phase?, Shell.phase?_eq_connected_iff, Shell.phase?_eq_connected_iff]
    show (a.shell.installed.bind fun i => n.ups[i]?) = some true ↔ _
    rw [hups]
  have hlength : n.links.length = a.shell.network.links.length := by
    simpa [Network.ups] using congrArg List.length hups
  refine ⟨h.tame, ?_, h.connected.trans hphase.symm, fun hdown => h.idle ?_⟩
  · rcases h.single with ⟨hinstalled, hlinks⟩ | ⟨hinstalled, l, hlinks⟩
    · rw [hlinks, List.length_nil] at hlength
      exact Or.inl ⟨hinstalled, List.eq_nil_of_length_eq_zero hlength⟩
    · rw [hlinks, List.length_singleton] at hlength
      exact Or.inr ⟨hinstalled, List.length_eq_one_iff.1 hlength⟩
  · exact fun hup => hdown (hphase.2 hup)

/-- A socket is nobody's, or else it belongs to the one link that there is. -/
theorem hear_cases (hsingle : a.shell.Single) (n : Nat) (e : SocketEvent) :
    a.shell.network.hear n e = (none, a.shell.network) ∨
      a.shell.installed = some 0 ∧ ∃ l, a.shell.network.links = [l] ∧
        a.shell.network.hear n e = ((l.hear a.shell.browser e).1,
          ⟨(l.hear a.shell.browser e).2.2, [(l.hear a.shell.browser e).2.1]⟩) := by
  unfold Network.hear
  split
  · exact Or.inl rfl
  · next i hi =>
    unfold Network.act
    split
    · exact Or.inl rfl
    · next l hl =>
      rcases hsingle with ⟨-, hlinks⟩ | ⟨hinstalled, l', hlinks⟩
      · rw [hlinks] at hl
        simp at hl
      · rw [hlinks] at hl
        cases i with
        | zero =>
          rw [List.getElem?_cons_zero, Option.some.injEq] at hl
          subst hl
          refine Or.inr ⟨hinstalled, l', hlinks, ?_⟩
          rw [hlinks]
          rfl
        | succ i => simp at hl

/-- The link has been told to somebody else's network: its phase is the one that it now has. -/
theorem phase?_single {n : Network} {l : Link} (hinstalled : a.shell.installed = some 0)
    (hn : n.links = [l]) : (a.withNetwork n).phase? = some l.phase := by
  show (a.shell.installed.bind fun i => n.links[i]?).map (·.phase) = _
  rw [hinstalled, hn]
  rfl

theorem InStep.socketEvent (h : a.InStep) (n : Nat) (e : SocketEvent) :
    (a.socketEvent n e).InStep := by
  rw [socketEvent_eq]
  simp only
  have hheeded : ((a.withNetwork (a.shell.network.hear n e).2).heed
      (a.shell.network.hear n e).1).InStep := by
    rcases hear_cases h.single n e with heq | ⟨hinstalled, l, hlinks, heq⟩
    · rw [heq]
      exact h
    rw [heq]
    have hsingle : ∀ l' b', (a.withNetwork ⟨b', [l']⟩).shell.Single :=
      fun l' _ => Or.inr ⟨hinstalled, l', rfl⟩
    have hsame : ∀ b', (a.withNetwork ⟨b', [l]⟩).InStep := by
      intro b'
      refine h.withNetwork ?_
      rw [Network.ups, Network.ups, hlinks]
    rcases e with _ | _ | _ | text
    · refine inStep_opened h.tame (hsingle _ _) ?_
      rw [phase?_single hinstalled rfl]
      rfl
    · refine inStep_lost h.tame (hsingle _ _) ?_
      rw [phase?_single hinstalled rfl]
      simp [Link.hear]
    · exact hsame _
    · cases text with
      | none => exact hsame _
      | some text =>
        show ((a.withNetwork ⟨a.shell.browser, [l]⟩).told (.received text)).InStep
        unfold told
        simp only
        split
        · next m hm =>
          obtain ⟨f, -, hf⟩ := Option.bind_eq_some_iff.1 hm
          exact (hsame _).post (Frame.not_isNews hf)
        · exact hsame _
  split
  · exact hheeded.withNetwork (Network.ups_afterClose _ _)
  · exact hheeded

theorem InStep.fire_timer (h : a.InStep) (t : Timer) : (Networked.fire run t a).InStep := by
  have hexpired : (a.withNetwork ⟨a.shell.browser.expire t, a.shell.network.links⟩).InStep :=
    h.withNetwork rfl
  obtain ⟨id, due, delay, task⟩ := t
  cases task with
  | reconnect i => exact hexpired.withNetwork (Network.ups_retry _ i)
  | dismiss n =>
    exact ⟨Page.Document.Only.detach hexpired.tame n, hexpired.single, hexpired.connected,
      hexpired.idle⟩

theorem InStep.adjust (h : a.InStep) (n : Nat)
    {f : Page.Element Nat Handler → Page.Element Nat Handler}
    (hf : ∀ e, (f e).listeners = e.listeners) : (a.adjust n f).InStep :=
  ⟨Page.Document.Only.adjustElement h.tame n hf, h.single, h.connected, h.idle⟩

/-- Whatever happens, `connected` goes with `connection_state` and no control is latched while not
`Connected`. -/
theorem InStep.happen (h : a.InStep) (x : Happening) : (a.happen x).InStep := by
  cases x with
  | socket n event => exact h.socketEvent n event
  | receive frame =>
    show (a.receive frame).InStep
    unfold receive
    split
    · next m hm => exact h.post (Frame.not_isNews hm)
    · exact h
  | refreshGroups => exact h.post fun hnews => hnews
  | refreshUsers => exact h.post fun hnews => hnews
  | refreshGroup groupId => exact h.post fun hnews => hnews
  | gesture target g =>
    have hon : OnGesture InStep :=
      { post := fun _ m hm h => h.post hm.not_isNews
        addHover := fun _ n h => h.adjust n fun e => e.listeners_addClass _
        removeHover := fun _ n h => h.adjust n fun e => e.listeners_removeClass _
        say := fun _ _ _ h => h.withNetwork rfl
        ask := fun _ _ h => ⟨h.tame, h.single, h.connected, h.idle⟩ }
    exact fire_induct hon h.tame target g h
  | fill n text => exact h.adjust n fun e => e.listeners_fill text
  | timer i =>
    simp only [App.happen]
    split
    · exact h.fire_timer _
    · exact h
  | tick ms =>
    show (a.tick ms).InStep
    exact tick_induct (fun _ t _ h => h.fire_timer t) (fun _ _ h => h.withNetwork rfl) ms h
  | refuse error => exact h.withNetwork rfl
  | obstruct n sendErrors sendError closeError => exact h.withNetwork rfl

/-! ## Runs -/

/-- A start leaves a link that is connecting, or none; the panel has heard nothing yet. -/
theorem inStep_start (words : Words) (b : Browser) {d : Page.Document Handler} (hd : d.Silent)
    (endpoint : Option Endpoint) : (unstarted words b d endpoint).start.2.InStep := by
  have htame := tame_start (tame_unstarted words b hd endpoint)
  obtain ⟨hinstalled, hlinks⟩ :
      (unstarted words b d endpoint).mount.2.shell.installed = none ∧
        (unstarted words b d endpoint).mount.2.shell.network.links = [] :=
    Shell.mount_unlinked _ rfl rfl
  have hwaiting : (unstarted words b d endpoint).start.2.shell.Single ∧
      (unstarted words b d endpoint).start.2.phase? ≠ some .connected := by
    rcases (unstarted words b d endpoint).start_cases with heq | heq
    · rw [heq]
      refine ⟨Or.inl ⟨hinstalled, hlinks⟩, ?_⟩
      rw [phase?, Shell.phase?, hinstalled]
      simp
    · rw [heq]
      exact Shell.connect_waiting _ hinstalled hlinks
  have hpanel : (unstarted words b d endpoint).start.2.panel = Panel.fresh words := by
    rcases (unstarted words b d endpoint).start_cases with heq | heq <;> rw [heq] <;> rfl
  refine ⟨htame, hwaiting.1, ?_, fun _ => by rw [hpanel]; rfl⟩
  rw [hpanel]
  exact ⟨fun h => absurd h (by simp [Panel.fresh]), fun h => absurd h hwaiting.2⟩

theorem InStep.runAll (h : a.InStep) (xs : List Happening) : (a.runAll xs).InStep := by
  induction xs generalizing a with
  | nil => exact h
  | cons x rest ih => exact ih (h.happen x)

/-- After `start` and any happenings, `connected` holds if and only if `connection_state` is
`Connected`; and while that is not so, `is_idle` holds and `is_disabled` does of no control,
requests that `send_command` has refused included. -/
theorem connected_iff_afterStart (words : Words) (b : Browser) {d : Page.Document Handler}
    (hd : d.Silent) (endpoint : Option Endpoint) (xs : List Happening) :
    ((afterStart words b d endpoint xs).panel.connected = true ↔
      (afterStart words b d endpoint xs).phase? = some .connected) ∧
    ((afterStart words b d endpoint xs).phase? ≠ some .connected →
      (afterStart words b d endpoint xs).panel.latches.isIdle = true ∧
        ∀ c, (afterStart words b d endpoint xs).panel.latches.isLatched c = false) := by
  have h : (afterStart words b d endpoint xs).InStep :=
    (inStep_start words b hd endpoint).runAll xs
  refine ⟨h.connected, fun hdown => ?_⟩
  have hidle := h.idle hdown
  exact ⟨by simp [Latches.isIdle, hidle], fun c => by simp [Latches.isLatched, hidle]⟩

/-- On a blank page, with a socket that opens, fails to send, and closes. -/
theorem connected_iff_afterStart_blank :
    (Page.Document.blank : Page.Document Handler).Silent ∧
    let a := afterStart { ahead := [] } { host := some "panel", protocol := some "http:" } .blank
      none [.obstruct 0 [some "full"] none none, .socket 0 .opened, .socket 0 .closed]
    (a.panel.connected = true ↔ a.phase? = some .connected) ∧
      (a.phase? ≠ some .connected →
        a.panel.latches.isIdle = true ∧ ∀ c, a.panel.latches.isLatched c = false) :=
  ⟨Page.Document.silent_blank, connected_iff_afterStart _ _ Page.Document.silent_blank _ _⟩

end App

end RosterPanel
