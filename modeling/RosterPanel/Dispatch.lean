import RosterPanel.Link
import RosterPanel.Panel

/-!
# Dispatch

Handling a message to its end: the panel reacts, and its effects are carried out one after the
other by a host. Two effects lead to further messages, which are handled before the next effect:
a chained message, and a request that could not be sent, which counts as failed.

* `Message.rank_lt_of_chain`, `Message.rank_pos_of_send`: a message only leads to messages of lower
  rank, so that handling ends, and messages nest at most three deep.
* `dispatch_eq`: handling a message is reacting and then performing the effects in order.
-/

namespace RosterPanel

/-- What carries out the effects of a panel: the outside world `ω` can send requests, draw parts of
the page from what the panel knows, and show notices. -/
structure Host (ω : Type) where
  send : Request → ω → Except LinkError Unit × ω
  draw : Panel → Drawing → ω → ω
  notify : NoticeKind → String → ω → ω

/-- Whether an effect neither chains a message nor announces success. -/
def Effect.ordinary : Effect → Bool
  | .chain _ | .notify .success _ => false
  | .send _ | .draw _ | .notify .error _ => true

namespace Panel

theorem ordinary_showProperties (p : Panel) (id : String)
    (change : Option Properties → Properties) :
    (p.showProperties id change).2.all Effect.ordinary = true := by
  unfold showProperties
  split
  · rfl
  · split <;> rfl

/-- Messages are chained only when a connection opens, and success is announced only on the news of
an entity. -/
theorem ordinary_react (p : Panel) {m : Message} (hopened : m ≠ .connectionOpened)
    (hcreated : ∀ e callback, m ≠ .entityCreated e callback) :
    (p.react m).2.all Effect.ordinary = true := by
  cases m with
  | connectionOpened => exact absurd rfl hopened
  | entityCreated e callback => exact absurd rfl (hcreated e callback)
  | connectionLost =>
    simp only [react, connectionLost]
    split <;> simp [Effect.ordinary]
  | entitiesListed k entities =>
    cases k with
    | group =>
      have hchildren : ∀ e ∈ (p.groupsListing (entities.filterMap Entity.group?)).2,
          e.ordinary = true :=
        List.forall_mem_cons.2 ⟨rfl, List.forall_mem_map.2 fun _ _ => rfl⟩
      exact List.all_eq_true.2 hchildren
    | user => rfl
  | membersListed groupId users =>
    simp only [react, membersListed]
    split <;> simp [Effect.ordinary]
  | requestCreateGroup | requestCreateUser | requestDelete =>
    simp only [react, requestCreate, requestDelete, latchedSend]
    split <;> simp [Effect.ordinary]
  | entityDeleted id =>
    simp only [react, entityDeleted, forget]
    split <;> split <;> split <;> simp [Effect.ordinary]
  | memberAdded userId groupId =>
    simp only [react, memberAdded]
    split
    · rfl
    · split <;> simp [Effect.ordinary]
  | memberRemoved userId groupId =>
    simp only [react, memberRemoved]
    split <;> simp [Effect.ordinary]
  | editProperties target =>
    simp only [react, editProperties]
    split <;> simp [Effect.ordinary]
  | propertiesLoaded id properties =>
    exact p.ordinary_showProperties id _
  | entityUpdated id properties =>
    simp only [react, entityUpdated, List.all_append, ordinary_showProperties]
    split <;> split <;> simp [Effect.ordinary]
  | commandFailed verb code text => simp [react, commandFailed, Effect.ordinary]
  | refreshGroups | refreshUsers | refreshGroup | assignUser | removeUser | updateProperty =>
    simp [react, refreshGroups, refreshUsers, refreshGroup, Effect.ordinary]

/-- Chained messages are only asked for when a connection opens. -/
theorem chain_notMem_react (p : Panel) (m m' : Message) (hm : m ≠ .connectionOpened) :
    .chain m' ∉ (p.react m).2 := by
  intro h
  by_cases hcreated : ∃ e callback, m = .entityCreated e callback
  · obtain ⟨e, callback, rfl⟩ := hcreated
    simp only [react, entityCreated, List.mem_append] at h
    rcases h with h | h
    · split at h <;> simp at h
    · cases e <;> simp [adopt] at h
  · have hall := p.ordinary_react hm fun e callback heq => hcreated ⟨e, callback, heq⟩
    exact Bool.false_ne_true (List.all_eq_true.1 hall _ h)

end Panel

namespace Message

/-- How many levels of further messages a message can lead to. -/
def rank : Message → Nat
  | .commandFailed _ _ _ => 0
  | .connectionOpened => 2
  | _ => 1

/-- The `CommandFailed` with code 0 that `execute_command` reports a request with that could not be
sent. -/
def ofLinkError (r : Request) (e : LinkError) : Message := .commandFailed r.verb 0 e.message

theorem rank_lt_of_chain {p : Panel} {m m' : Message} (h : .chain m' ∈ (p.react m).2) :
    m'.rank < m.rank := by
  by_cases hm : m = .connectionOpened
  · subst hm
    simp only [Panel.react, Panel.connectionOpened, List.mem_cons, List.not_mem_nil,
      Effect.chain.injEq, or_false] at h
    rcases h with rfl | rfl <;> decide
  · exact absurd h (p.chain_notMem_react m m' hm)

theorem rank_pos_of_send {p : Panel} {m : Message} {r : Request} (h : .send r ∈ (p.react m).2) :
    0 < m.rank := by
  cases m with
  | commandFailed v code text =>
    simp [Panel.react, Panel.commandFailed] at h
  | _ => simp [rank]

end Message

section

variable {ω : Type}

/-- Model of `dispatch_global_message`: handles a message and everything that it leads to. -/
def dispatch (host : Host ω) (m : Message) (s : Panel × ω) : Panel × ω :=
  (s.1.react m).2.attach.foldl
    (fun s e =>
      match e with
      | ⟨.chain next, _⟩ => dispatch host next s
      | ⟨.send r, _⟩ =>
        match host.send r s.2 with
        | (.ok _, w) => (s.1, w)
        | (.error e, w) => dispatch host (.ofLinkError r e) (s.1, w)
      | ⟨.draw part, _⟩ => (s.1, host.draw s.1 part s.2)
      | ⟨.notify kind text, _⟩ => (s.1, host.notify kind text s.2))
    ((s.1.react m).1, s.2)
termination_by m.rank
decreasing_by
  · exact Message.rank_lt_of_chain ‹_›
  · exact Message.rank_pos_of_send ‹_›

/-- Model of `execute_command`: carries out one effect. -/
def perform (host : Host ω) (s : Panel × ω) : Effect → Panel × ω
  | .chain next => dispatch host next s
  | .send r =>
    match host.send r s.2 with
    | (.ok _, w) => (s.1, w)
    | (.error e, w) => dispatch host (.ofLinkError r e) (s.1, w)
  | .draw part => (s.1, host.draw s.1 part s.2)
  | .notify kind text => (s.1, host.notify kind text s.2)

theorem dispatch_eq (host : Host ω) (m : Message) (s : Panel × ω) :
    dispatch host m s = (s.1.react m).2.foldl (perform host) ((s.1.react m).1, s.2) := by
  rw [dispatch]
  conv => rhs; rw [← List.attach_map_subtype_val (s.1.react m).2, List.foldl_map]
  congr 1
  funext s e
  obtain ⟨e, he⟩ := e
  cases e <;> rfl

end

end RosterPanel
