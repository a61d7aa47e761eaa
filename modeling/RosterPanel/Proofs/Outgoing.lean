import RosterPanel.Proofs.Foreign
import RosterPanel.Proofs.Gestures
import RosterPanel.Proofs.Sending

/-!
# What can go out on a gesture

A gesture sends nothing but what the messages ask for that the listeners post which it reaches,
whatever the state of the links and sockets. Results:

* `Shell.SendsOnly`: what has gone out from one shell to another.
* `App.sendsOnly_post`: a message sends nothing but what it asks for.
* `App.sendsOnly_fire`: a gesture sends nothing but what the listeners that it reaches ask for.
-/

namespace RosterPanel

/-! ## Texts on sockets -/

namespace Browser

/-- What has gone out by a socket. -/
def sentBy (b : Browser) (n : Nat) : List String := (b.sockets[n]?.map (·.sent)).getD []

theorem sentBy_modifySocket (b : Browser) (k : Nat) {f : Socket → Socket} {texts : List String}
    (hf : ∀ x : Socket, (f x).sent = x.sent ++ texts) (n : Nat) :
    (b.modifySocket k f).sentBy n = b.sentBy n ∨
      (b.modifySocket k f).sentBy n = b.sentBy n ++ texts := by
  simp only [sentBy, modifySocket, List.getElem?_modify]
  cases b.sockets[n]? with
  | none => exact Or.inl rfl
  | some x =>
    by_cases hn : k = n
    · exact Or.inr (by simp [hn, hf])
    · exact Or.inl (by simp [hn])

/-- Sending a text adds it to what has gone out by a socket, or adds nothing. -/
theorem sentBy_sendOn (b : Browser) (k : Nat) (text : String) (n : Nat) :
    (b.sendOn k text).2.sentBy n = b.sentBy n ∨
      (b.sendOn k text).2.sentBy n = b.sentBy n ++ [text] := by
  unfold sendOn
  split
  · have hsame : ∀ x : Socket, x.tried.sent = x.sent ++ [] := fun x =>
      (List.append_nil x.sent).symm
    have htried := b.sentBy_modifySocket k hsame n
    rw [List.append_nil, or_self] at htried
    exact Or.inl htried
  · exact b.sentBy_modifySocket k (fun _ => rfl) n

end Browser

theorem Link.sentBy_send (l : Link) (text : String) (b : Browser) (n : Nat) :
    (l.send text b).2.sentBy n = b.sentBy n ∨
      (l.send text b).2.sentBy n = b.sentBy n ++ [text] := by
  unfold send
  split
  · exact Or.inl rfl
  · split
    · exact b.sentBy_sendOn _ text n
    · exact Or.inl rfl

theorem Network.sentBy_send (w : Network) (i : Nat) (text : String) (n : Nat) :
    (w.send i text).2.browser.sentBy n = w.browser.sentBy n ∨
      (w.send i text).2.browser.sentBy n = w.browser.sentBy n ++ [text] := by
  unfold send act
  split
  · exact Or.inl rfl
  · next l _ => exact l.sentBy_send text w.browser n

namespace Shell

variable {s s' s'' : Shell} {P Q : Request → Prop}

theorem sentBy_send (s : Shell) (r : Request) (n : Nat) :
    (s.send r).2.browser.sentBy n = s.browser.sentBy n ∨
      (s.send r).2.browser.sentBy n = s.browser.sentBy n ++ [r.text] := by
  unfold send
  split
  · exact Or.inl rfl
  · next i _ => exact s.network.sentBy_send i r.text n

/-- From one shell to the other nothing has gone out but requests that pass, by any sockets. -/
def SendsOnly (P : Request → Prop) (s s' : Shell) : Prop :=
  ∀ n, ∃ rs : List Request, (∀ r ∈ rs, P r) ∧
    s'.browser.sentBy n = s.browser.sentBy n ++ rs.map Request.text

namespace SendsOnly

theorem of_sockets (h : s'.browser.sockets = s.browser.sockets) : s.SendsOnly P s' := fun n =>
  ⟨[], List.forall_mem_nil _, by
    rw [Browser.sentBy, h, List.map_nil, List.append_nil, Browser.sentBy]⟩

theorem trans (h : s.SendsOnly P s') (h' : s'.SendsOnly P s'') : s.SendsOnly P s'' := by
  intro n
  obtain ⟨rs, hrs, hsent⟩ := h n
  obtain ⟨rs', hrs', hsent'⟩ := h' n
  refine ⟨rs ++ rs', List.forall_mem_append.2 ⟨hrs, hrs'⟩, ?_⟩
  rw [hsent', hsent, List.map_append, List.append_assoc]

theorem mono (h : s.SendsOnly P s') (hPQ : ∀ r, P r → Q r) : s.SendsOnly Q s' := by
  intro n
  obtain ⟨rs, hrs, hsent⟩ := h n
  exact ⟨rs, fun r hr => hPQ r (hrs r hr), hsent⟩

end SendsOnly

theorem sendsOnly_send (s : Shell) (r : Request) : s.SendsOnly (· = r) (s.send r).2 := by
  intro n
  rcases s.sentBy_send r n with h | h
  · exact ⟨[], List.forall_mem_nil _, by rw [h, List.map_nil, List.append_nil]⟩
  · exact ⟨[r], List.forall_mem_singleton.2 rfl, h⟩

/-- Nothing goes out that is not handed over. -/
theorem kept_sendsOnly (s : Shell) :
    Kept (Host.recording host) (fun _ => True) (fun _ w => s.SendsOnly (· ∈ w.2) w.1) := by
  refine Kept.of_world (fun w r h => ?_) (fun p w part h => ?_) fun w kind text h => ?_
  · refine SendsOnly.trans (h.mono fun r' hr' => List.mem_append_left _ hr') ?_
    exact (w.1.sendsOnly_send r).mono fun r' hr' =>
      List.mem_append_right _ (List.mem_singleton.2 hr')
  · exact h.trans (.of_sockets (congrArg (·.2.2) (wire_draw p part w.1)))
  · exact h.trans (.of_sockets (congrArg (·.2.2) (wire_notify kind text w.1)))

end Shell

/-! ## Messages and listeners -/

namespace App

/-- A message that is no opened connection sends nothing but what it asks for. -/
theorem sendsOnly_post (a : App) {m : Message} (hm : m ≠ .connectionOpened) :
    a.shell.SendsOnly (· ∈ requests (a.panel.react m).2) (a.post m).shell := by
  have hsent := (Shell.kept_sendsOnly a.shell).dispatch (m := m) (s := (a.panel, a.shell, []))
    trivial (.of_sockets rfl)
  rw [Host.recorded_dispatch_of_ne _ hm] at hsent
  rw [post, Host.dispatch_recording Shell.host m a.panel a.shell []]
  exact hsent

end App

/-- The messages that a listener may post. -/
def Handler.Posts : Handler → Message → Prop
  | .post m, m' | .control m _, m' => m' = m
  | .dropOn groupId, m' => ∃ userId, m' = .assignUser userId groupId
  | .commit id key, m' => ∃ value, m' = .updateProperty id key value
  | _, _ => False

/-- Whatever the panel, a listener asks for requests only that pass. -/
def Handler.AsksOnly (P : Request → Prop) (h : Handler) : Prop :=
  ∀ m, h.Posts m → ∀ p : Panel, ∀ r ∈ requests (p.react m).2, P r

namespace Firing

variable {P : Request → Prop} {h : Handler} {f : Firing}

theorem sendsOnly_handle (htame : h.Tame) (hasks : h.AsksOnly P) (g : Gesture)
    (target self : Nat) : f.app.shell.SendsOnly P (f.handle g target self h).app.shell := by
  have hpost : ∀ {f' : Firing} {m : Message}, m.IsGesture → h.Posts m →
      f'.app.shell.browser.sockets = f.app.shell.browser.sockets →
      f.app.shell.SendsOnly P (f'.post m).app.shell := by
    intro f' m hm hposts hsame
    have hne : m ≠ .connectionOpened := by
      rintro rfl
      exact hm
    exact .trans (.of_sockets hsame) ((f'.app.sendsOnly_post hne).mono fun r hr =>
      hasks m hposts _ r hr)
  unfold handle
  split
  · exact .of_sockets rfl
  cases h with
  | post m => exact hpost htame rfl rfl
  | control m question =>
    simp only
    split
    · exact .of_sockets rfl
    · cases question with
      | none => exact hpost htame rfl rfl
      | some q =>
        have hasked : (f.ask q g.answer).2.app.shell.browser.sockets =
            f.app.shell.browser.sockets := by
          unfold ask
          simp only
          split <;> rfl
        simp only
        split
        · exact hpost htame rfl hasked
        · exact .of_sockets hasked
  | carryUser userId => exact .of_sockets rfl
  | hover =>
    simp only
    split <;> exact .of_sockets rfl
  | leave => exact .of_sockets rfl
  | dropOn groupId =>
    simp only
    split
    · exact hpost trivial ⟨_, rfl⟩ rfl
    · exact .of_sockets rfl
  | commit id key =>
    simp only
    split
    · exact hpost trivial ⟨_, rfl⟩ rfl
    · exact .of_sockets rfl

end Firing

namespace App

variable {P : Request → Prop} {a : App}

/-- A gesture sends nothing but what the listeners ask for that it reaches. -/
theorem sendsOnly_fire (htame : a.shell.Tame) {target : Nat} {g : Gesture}
    (hheard : ∀ l ∈ a.heard target g.event, l.2.AsksOnly P) :
    a.shell.SendsOnly P (a.fire target g).app.shell := by
  have hall : ∀ (listeners : List (Nat × Handler)) (f : Firing),
      (∀ l ∈ listeners, l.2.Tame ∧ l.2.AsksOnly P) → f.app.shell.SendsOnly P
        (listeners.foldl (fun f l => f.handle g target l.1 l.2) f).app.shell := by
    intro listeners
    induction listeners with
    | nil => exact fun _ _ => .of_sockets rfl
    | cons l rest ih =>
      intro f hl
      rw [List.forall_mem_cons] at hl
      exact .trans (Firing.sendsOnly_handle hl.1.1 hl.1.2 g target l.1) (ih _ hl.2)
  refine hall (a.heard target g.event) { app := a, transfer := g.transfer } fun l hl => ?_
  refine ⟨?_, hheard l hl⟩
  obtain ⟨e, he, hl⟩ := List.mem_flatMap.1 hl
  obtain ⟨listener, hlistener, rfl⟩ := List.mem_map.1 hl
  exact htame.path he listener (List.mem_filter.1 hlistener).1

end App

/-! ## Updates -/

namespace Panel

theorem eq_of_mem_requests_latchedSend {p : Panel} {c : Control} {r r' : Request}
    (h : r' ∈ requests (p.latchedSend c r).2) : r' = r := by
  unfold latchedSend at h
  split at h
  · cases h
  · exact List.mem_singleton.1 h

/-- No gesture but the commit of a field asks for an update. -/
theorem verb_ne_update (p : Panel) {m : Message} (hm : m.IsGesture)
    (hupdate : ∀ id key value, m ≠ .updateProperty id key value) :
    ∀ r ∈ requests (p.react m).2, r.verb ≠ .update := by
  intro r hr
  cases m with
  | requestCreateGroup =>
    rw [eq_of_mem_requests_latchedSend hr]
    rintro ⟨⟩
  | requestCreateUser =>
    rw [eq_of_mem_requests_latchedSend hr]
    rintro ⟨⟩
  | requestDelete entity =>
    rw [eq_of_mem_requests_latchedSend hr]
    rintro ⟨⟩
  | assignUser userId groupId =>
    rw [List.mem_singleton.1 hr]
    rintro ⟨⟩
  | removeUser userId groupId =>
    rw [List.mem_singleton.1 hr]
    rintro ⟨⟩
  | editProperties target =>
    simp only [react, editProperties] at hr
    split at hr
    · cases hr
    · rw [List.mem_singleton.1 hr]
      rintro ⟨⟩
  | updateProperty id key value => exact absurd rfl (hupdate id key value)
  | _ => exact hm.elim

end Panel

namespace Handler

variable {h : Handler}

theorem asksOnly_of_not_updates (htame : h.Tame) (hupdates : h.updates = false) :
    h.AsksOnly (·.verb ≠ .update) := by
  intro m hposts p
  cases h with
  | post m' | control m' question =>
    obtain rfl : m = m' := hposts
    refine p.verb_ne_update htame ?_
    rintro id key value rfl
    cases hupdates
  | dropOn groupId =>
    obtain ⟨userId, rfl⟩ := hposts
    exact p.verb_ne_update trivial nofun
  | carryUser | hover | leave => exact hposts.elim
  | commit => cases hupdates

/-- The commit of a field asks for one update. -/
theorem asksOnly_commit (id key : String) :
    (Handler.commit id key).AsksOnly fun r => ∃ value, r = .updateProperty id key value := by
  rintro m ⟨value, rfl⟩ p r hr
  exact ⟨value, List.mem_singleton.1 hr⟩

theorem AsksOnly.mono {P Q : Request → Prop} (hasks : h.AsksOnly P) (hPQ : ∀ r, P r → Q r) :
    h.AsksOnly Q :=
  fun m hm p r hr => hPQ r (hasks m hm p r hr)

end Handler

end RosterPanel
