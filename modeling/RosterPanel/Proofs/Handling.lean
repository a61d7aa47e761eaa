import RosterPanel.Proofs.Page.Listeners
import RosterPanel.Proofs.Routing

/-!
# What handling a message keeps

Handling a message nests further messages, and so an invariant of a panel and its world has to
survive every step of it. Results:

* `Kept`: the steps that an invariant has to survive.
* `Kept.dispatch`, `Kept.performAll`: it then survives the handling of every message that is
  allowed, and every list of effects.
* `dispatch_failure`, `dispatch_connectionOpened`: how the two kinds of messages are handled that
  others lead to and that lead to others.
* `Panel.withoutLatches`, `withoutLatches_dispatch_congr`: what a message does to a panel depends on
  the host in the latches only.
* `Message.IsNews`: the two messages about the connection; all others leave `connected` alone.
-/

namespace RosterPanel

variable {ω : Type} {host : Host ω}

/-- An invariant of a panel and its world survives every step of handling the messages that are
allowed. -/
structure Kept (host : Host ω) (Allowed : Message → Prop) (I : Panel → ω → Prop) : Prop where
  react : ∀ p w m, Allowed m → I p w → I (p.react m).1 w
  chain : ∀ (p : Panel) m m', Allowed m → .chain m' ∈ (p.react m).2 → Allowed m'
  fail : ∀ r e, Allowed (.ofLinkError r e)
  send : ∀ p w r, I p w → I p (host.send r w).2
  draw : ∀ p w part, I p w → I p (host.draw p part w)
  notify : ∀ p w kind text, I p w → I p (host.notify kind text w)

namespace Kept

variable {Allowed : Message → Prop} {I : Panel → ω → Prop}

theorem foldl_perform {es : List Effect} {s : Panel × ω}
    (hstep : ∀ e ∈ es, ∀ s : Panel × ω, I s.1 s.2 → I (perform host s e).1 (perform host s e).2)
    (h : I s.1 s.2) : I (es.foldl (perform host) s).1 (es.foldl (perform host) s).2 := by
  induction es generalizing s with
  | nil => exact h
  | cons e rest ih =>
    rw [List.foldl_cons]
    exact ih (fun e' he' => hstep e' (List.mem_cons_of_mem e he')) (hstep e List.mem_cons_self s h)

/-- One effect, if what it chains and what a failure leads to is taken care of. -/
theorem perform_of (hkept : Kept host Allowed I) {e : Effect}
    (hchain : ∀ m, e = .chain m → ∀ s : Panel × ω, I s.1 s.2 →
      I (dispatch host m s).1 (dispatch host m s).2)
    (hsend : ∀ r error, e = .send r → ∀ s : Panel × ω, I s.1 s.2 →
      I (dispatch host (.ofLinkError r error) s).1 (dispatch host (.ofLinkError r error) s).2)
    {s : Panel × ω} (h : I s.1 s.2) : I (perform host s e).1 (perform host s e).2 := by
  cases e with
  | chain m => exact hchain m rfl s h
  | draw part => exact hkept.draw s.1 s.2 part h
  | notify kind text => exact hkept.notify s.1 s.2 kind text h
  | send r =>
    have hsent := hkept.send s.1 s.2 r h
    simp only [RosterPanel.perform]
    split
    · next heq =>
      rw [heq] at hsent
      exact hsent
    · next error w heq =>
      rw [heq] at hsent
      exact hsend r error rfl (s.1, w) hsent

/-- Handling a message that is allowed keeps the invariant. -/
theorem dispatch (hkept : Kept host Allowed I) {m : Message} (hm : Allowed m) {s : Panel × ω}
    (h : I s.1 s.2) : I (dispatch host m s).1 (dispatch host m s).2 := by
  -- Further messages are of lower rank.
  induction hrank : m.rank using Nat.strongRecOn generalizing m s with
  | ind rank ih =>
    subst hrank
    rw [dispatch_eq]
    refine foldl_perform (fun e he s' h' => hkept.perform_of ?_ ?_ h') (hkept.react _ _ m hm h)
    · rintro m' rfl s h
      exact ih m'.rank (Message.rank_lt_of_chain he) (hkept.chain _ m m' hm he) h rfl
    · rintro r error rfl s h
      exact ih _ (Message.rank_pos_of_send he) (hkept.fail r error) h rfl

theorem perform (hkept : Kept host Allowed I) {e : Effect} (he : ∀ m, e = .chain m → Allowed m)
    {s : Panel × ω} (h : I s.1 s.2) : I (perform host s e).1 (perform host s e).2 :=
  hkept.perform_of (fun m hm _ h => hkept.dispatch (he m hm) h)
    (fun r error _ _ h => hkept.dispatch (hkept.fail r error) h) h

/-- Carrying out effects keeps the invariant, if all that they chain is allowed. -/
theorem performAll (hkept : Kept host Allowed I) {l : List Effect}
    (hes : ∀ m, .chain m ∈ l → Allowed m) {s : Panel × ω} (h : I s.1 s.2) :
    I (l.foldl (RosterPanel.perform host) s).1 (l.foldl (RosterPanel.perform host) s).2 :=
  foldl_perform (fun _ he _ h => hkept.perform (fun m hm => hes m (hm ▸ he)) h) h

/-- What is kept of the world, whatever the panel does. -/
theorem of_world {J : ω → Prop} (hsend : ∀ w r, J w → J (host.send r w).2)
    (hdraw : ∀ p w part, J w → J (host.draw p part w))
    (hnotify : ∀ w kind text, J w → J (host.notify kind text w)) :
    Kept host (fun _ => True) (fun _ => J) where
  react _ _ _ _ h := h
  chain _ _ _ _ _ := trivial
  fail _ _ := trivial
  send _ := hsend
  draw := hdraw
  notify _ := hnotify

end Kept

/-- Reporting a failure changes the panel, and then only draws and shows a notice. -/
theorem dispatch_failure {I : Panel → ω → Prop}
    (hdraw : ∀ p w part, I p w → I p (host.draw p part w))
    (hnotify : ∀ p w kind text, I p w → I p (host.notify kind text w)) (r : Request) (e : LinkError)
    {s : Panel × ω} (h : I (s.1.react (.ofLinkError r e)).1 s.2) :
    I (dispatch host (.ofLinkError r e) s).1 (dispatch host (.ofLinkError r e) s).2 := by
  rw [dispatch_eq]
  refine Kept.foldl_perform (fun x hx s' h' => ?_) h
  have hx : x ∈ (s.1.commandFailed r.verb e.message).2 := hx
  simp only [Panel.commandFailed, List.mem_append, List.mem_map, List.mem_singleton] at hx
  rcases hx with ⟨c, -, rfl⟩ | rfl
  · exact hdraw _ _ _ h'
  · exact hnotify _ _ _ _ h'

/-- An opened connection is handled as the two messages that it chains. -/
theorem dispatch_connectionOpened (host : Host ω) (s : Panel × ω) :
    dispatch host .connectionOpened s =
      dispatch host .refreshUsers
        (dispatch host .refreshGroups ({ s.1 with connected := true }, s.2)) := by
  rw [dispatch_eq]
  rfl

/-! ## Apart from the latches -/

/-- A panel as it is apart from what is latched. -/
def Panel.withoutLatches (p : Panel) : Panel := { p with latches := ∅ }

/-- Reports of failures change nothing but what is latched. -/
theorem Kept.withoutLatches (host : Host ω) (q : Panel) :
    Kept host (fun m => m.rank = 0) (fun p _ => p.withoutLatches = q) where
  react p _ m hm h := by
    cases m with
    | commandFailed v code text => exact h
    | _ => cases hm
  chain p m m' hm hchain := by
    have hlt := Message.rank_lt_of_chain hchain
    omega
  fail _ _ := rfl
  send _ _ _ h := h
  draw _ _ _ h := h
  notify _ _ _ _ h := h

/-- A message that chains no others has changed all but the latches as soon as the panel has
reacted. -/
theorem withoutLatches_dispatch_of_ne (host : Host ω) {m : Message} (hm : m ≠ .connectionOpened)
    (s : Panel × ω) : (dispatch host m s).1.withoutLatches = (s.1.react m).1.withoutLatches := by
  rw [dispatch_eq]
  exact (Kept.withoutLatches host _).performAll
    (fun m' hchain => absurd hchain (s.1.chain_notMem_react m m' hm)) rfl

theorem withoutLatches_connectionOpened (host : Host ω) (s : Panel × ω) :
    (dispatch host .connectionOpened s).1.withoutLatches =
      ((({ s.1 with connected := true } : Panel).react .refreshGroups).1.react
        .refreshUsers).1.withoutLatches := by
  have hgroups := withoutLatches_dispatch_of_ne host (m := .refreshGroups) nofun
    ({ s.1 with connected := true }, s.2)
  rw [dispatch_connectionOpened, withoutLatches_dispatch_of_ne host (m := .refreshUsers) nofun]
  exact congrArg (fun p : Panel => { p with users := [], usersListed := false }) hgroups

/-- What is sent and what cannot be sent is told by nothing but the latches. -/
theorem withoutLatches_dispatch_congr {ω' : Type} (host : Host ω) (host' : Host ω') (m : Message)
    (p : Panel) (w : ω) (w' : ω') :
    (dispatch host m (p, w)).1.withoutLatches = (dispatch host' m (p, w')).1.withoutLatches := by
  by_cases hm : m = .connectionOpened
  · subst hm
    rw [withoutLatches_connectionOpened, withoutLatches_connectionOpened]
  · rw [withoutLatches_dispatch_of_ne host hm, withoutLatches_dispatch_of_ne host' hm]

/-! ## News of the connection -/

/-- Whether a message tells about the connection. -/
def Message.IsNews : Message → Prop
  | .connectionOpened | .connectionLost => True
  | _ => False

theorem Message.IsGesture.not_isNews {m : Message} (h : m.IsGesture) : ¬ m.IsNews := by
  cases m <;> first | exact h.elim | exact fun hnews => hnews

/-- No frame tells about the connection. -/
theorem Frame.not_isNews {f : Frame} {m : Message} (h : f.message? = some m) : ¬ m.IsNews := by
  cases means_of_message? h <;> exact fun hnews => hnews

theorem Panel.connected_adopt (p : Panel) (e : Entity) :
    (p.adopt e).1.connected = p.connected := by
  cases e <;> simp only [adopt] <;> split <;> rfl

theorem Panel.connected_react {p : Panel} {m : Message} (h : ¬ m.IsNews) :
    (p.react m).1.connected = p.connected := by
  cases m with
  | connectionOpened | connectionLost => exact absurd trivial h
  | refreshGroups | refreshUsers | refreshGroup | assignUser | removeUser | updateProperty => rfl
  | entitiesListed kind entities => cases kind <;> rfl
  | membersListed groupId users =>
    simp only [react, membersListed]
    split <;> rfl
  | requestCreateGroup | requestCreateUser | requestDelete =>
    simp only [react, requestCreate, requestDelete, latchedSend]
    split <;> rfl
  | entityCreated e callback =>
    simp only [react, entityCreated]
    rw [connected_adopt]
  | entityDeleted id => rfl
  | memberAdded userId groupId =>
    simp only [react, memberAdded]
    split
    · rfl
    · split <;> rfl
  | memberRemoved userId groupId =>
    simp only [react, memberRemoved]
    split <;> rfl
  | editProperties target =>
    simp only [react, editProperties]
    split <;> rfl
  | propertiesLoaded id properties =>
    simp only [react, propertiesLoaded, showProperties]
    split
    · rfl
    · split <;> rfl
  | entityUpdated id properties =>
    simp only [react, entityUpdated, showProperties]
    split
    · rfl
    · split <;> rfl
  | commandFailed verb code text => rfl

/-- Only news of the connection chain further messages, which are no news themselves. -/
theorem Panel.not_isNews_of_chain {p : Panel} {m m' : Message} (h : .chain m' ∈ (p.react m).2) :
    ¬ m'.IsNews := by
  by_cases hm : m = .connectionOpened
  · subst hm
    simp only [react, connectionOpened, List.mem_cons, List.not_mem_nil, Effect.chain.injEq,
      or_false] at h
    rcases h with rfl | rfl <;> exact fun hnews => hnews
  · exact absurd h (p.chain_notMem_react m m' hm)

end RosterPanel
