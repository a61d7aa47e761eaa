import RosterPanel.Proofs.Handling
import RosterPanel.Proofs.Latching

/-!
# When the request of a control is refused

A request that cannot be sent is reported by its verb, and the report does not say which control
sent it. What it releases is the oldest control that waits for a request with that verb. Results:

* `Panel.Reachable`: the panels that come about, in which each control waits for a request of its
  own kind (`Panel.Reachable.sorted`).
* `Latches.controls_releaseVerb`: a release by a verb, as the list of latched controls sees it.
* `Panel.controls_refused`: which controls are latched after a control's request has been refused.
* `Panel.refused_iff`: they are the ones from before if and only if none of those waits for the verb
  of the request that `send_command` has refused; `Panel.released_other` is a run where one does,
  and is released though its own command is not resolved.
-/

namespace RosterPanel

variable {ω : Type}

/-! ## What a control waits for -/

/-- The verb of the requests that a control sends. -/
def Control.verb : Control → Verb
  | .addGroup | .addUser => .create
  | .delete _ => .delete

theorem Control.Asks.verb_eq {c : Control} {r : Request} (h : c.Asks r) : r.verb = c.verb := by
  cases c <;> exact h.1

namespace Latches

/-- Each control waits for a request of its own kind. -/
def Sorted (l : Latches) : Prop := ∀ a ∈ l.pending, a.verb = a.control.verb

theorem map_takeFirst {α β : Type} {f : α → β} {p : α → Bool} {q : β → Bool} {l : List α}
    (h : ∀ a ∈ l, p a = q (f a)) : (takeFirst p l).2.map f = (l.map f).eraseP q := by
  induction l with
  | nil => rfl
  | cons a rest ih =>
    have ha := h a List.mem_cons_self
    have hrest := ih fun b hb => h b (List.mem_cons_of_mem a hb)
    cases hp : p a with
    | true => rw [takeFirst, if_pos hp, List.map_cons, List.eraseP_cons_of_pos (ha ▸ hp)]
    | false =>
      have hq : ¬ q (f a) = true := by rw [← ha, hp]; decide
      rw [List.map_cons, List.eraseP_cons_of_neg hq, ← hrest]
      simp [takeFirst, hp]

/-- On the list of latched controls, `resolve_kind` erases the first that sends requests with that
verb. -/
theorem controls_releaseVerb {l : Latches} (h : l.Sorted) (v : Verb) :
    (l.releaseVerb v).2.controls = l.controls.eraseP (·.verb == v) :=
  map_takeFirst fun a ha => by rw [h a ha]

end Latches

theorem LatchStep.sorted {l l' : Latches} {effects : List Effect} (h : LatchStep l l' effects)
    (hl : l.Sorted) : l'.Sorted := by
  intro a ha
  cases h with
  | keep => exact hl a ha
  | arm _ hasks =>
    rcases List.mem_append.1 ha with ha | ha
    · exact hl a ha
    · rw [List.mem_singleton.1 ha]
      exact hasks.verb_eq
  | release hpending _ =>
    refine hl a ?_
    rw [hpending]
    rcases List.mem_append.1 ha with ha | ha
    · exact List.mem_append_left _ ha
    · exact List.mem_append_right _ (List.mem_cons_of_mem _ ha)
  | clear => cases ha

/-- A host that can send nothing. -/
def Host.offline : Host Unit where
  send _ _ := (.error .notConnected, ())
  draw _ _ _ := ()
  notify _ _ _ := ()

namespace Panel

/-! ## Panels that come about -/

/-- The panels that come about: a fresh one, and what a message makes of one. -/
inductive Reachable : Panel → Prop
  | fresh (words : Words) : Reachable (Panel.fresh words)
  | react {p : Panel} (m : Message) : Reachable p → Reachable (p.react m).1

theorem Reachable.sorted {p : Panel} (h : p.Reachable) : p.latches.Sorted := by
  induction h with
  | fresh words => exact nofun
  | react m _ ih => exact (latchStep_react _ m).sorted ih

/-- Handling a message to its end leads to panels that come about. -/
theorem Reachable.dispatch {host : Host ω} {s : Panel × ω} (h : s.1.Reachable) (m : Message) :
    (dispatch host m s).1.Reachable := by
  have hkept : Kept host (fun _ => True) fun p _ => p.Reachable :=
    { react := fun _ _ m _ h => h.react m
      chain := fun _ _ _ _ _ => trivial
      fail := fun _ _ => trivial
      send := fun _ _ _ h => h
      draw := fun _ _ _ h => h
      notify := fun _ _ _ _ h => h }
  exact hkept.dispatch trivial h

/-! ## Refusals -/

/-- The control that a message latches if it is free, and the request that it then sends. -/
def guarded? (p : Panel) : Message → Option (Control × Request)
  | .requestCreateGroup => some (.addGroup, (Placeholder.create .group p.words).1)
  | .requestCreateUser => some (.addUser, (Placeholder.create .user p.words).1)
  | .requestDelete e => some (.delete e.ref, .delete e)
  | _ => none

section

variable {p : Panel} {m : Message} {c : Control} {r : Request}

theorem asks_of_guarded (h : p.guarded? m = some (c, r)) : c.Asks r := by
  cases m <;> cases h
  · exact Placeholder.asks_create .group p.words
  · exact Placeholder.asks_create .user p.words
  · exact Request.asks_delete _

/-- Such messages differ in the control and the request, and in whether a placeholder is drawn. -/
theorem react_eq_latchedSend (h : p.guarded? m = some (c, r)) :
    ∃ words, p.react m = latchedSend { p with words } c r := by
  cases m <;> cases h
  · exact ⟨(Placeholder.create .group p.words).2, rfl⟩
  · exact ⟨(Placeholder.create .user p.words).2, rfl⟩
  · exact ⟨p.words, rfl⟩

/-- A free control is latched, behind all others, and its request is sent. -/
theorem react_of_free (h : p.guarded? m = some (c, r)) (hfree : p.latches.isLatched c = false) :
    (p.react m).1.latches = ⟨p.latches.pending ++ [⟨c, r.verb⟩]⟩ ∧
      (p.react m).2 = [.draw (.control c true), .send r] := by
  obtain ⟨words, heq⟩ := react_eq_latchedSend h
  rw [heq]
  simp [latchedSend, Latches.arm, hfree]

/-- Reporting a failure releases by the verb of the request, and changes nothing else. -/
theorem latches_dispatch_ofLinkError (host : Host ω) (r : Request) (e : LinkError)
    (s : Panel × ω) :
    (dispatch host (.ofLinkError r e) s).1.latches = (s.1.latches.releaseVerb r.verb).2 :=
  dispatch_failure (I := fun q _ => q.latches = (s.1.latches.releaseVerb r.verb).2)
    (fun _ _ _ h => h) (fun _ _ _ _ h => h) r e rfl

/-- After `execute_command` has reported a refused request of `c`, the latched controls are
`controls ++ [c]` without the first that sends requests with the same verb. -/
theorem controls_refused (hreach : p.Reachable) (h : p.guarded? m = some (c, r))
    (hfree : p.latches.isLatched c = false) (host : Host ω) (w : ω) {e : LinkError}
    (hrefused : (host.send r (host.draw (p.react m).1 (.control c true) w)).1 = .error e) :
    (dispatch host m (p, w)).1.latches.controls =
      (p.latches.controls ++ [c]).eraseP (·.verb == c.verb) := by
  obtain ⟨hlatches, heffects⟩ := react_of_free h hfree
  have hsorted := (hreach.react m).sorted
  rcases hsent : host.send r (host.draw (p.react m).1 (.control c true) w) with ⟨_, w'⟩
  rw [hsent] at hrefused
  cases hrefused
  rw [dispatch_eq, heffects]
  simp only [List.foldl_cons, List.foldl_nil, perform, hsent]
  rw [latches_dispatch_ofLinkError, Latches.controls_releaseVerb hsorted, hlatches,
    (asks_of_guarded h).verb_eq, Latches.controls, List.map_append]
  rfl

end

/-- The oldest control with a verb is the one that is taken out. -/
theorem eraseP_oldest {older newer : List Control} {d : Control} {v : Verb}
    (holder : ∀ x ∈ older, x.verb ≠ v) (hd : d.verb = v) :
    (older ++ d :: newer).eraseP (·.verb == v) = older ++ newer := by
  have hnone : ∀ x ∈ older, ¬ (x.verb == v) = true := by
    intro x hx
    rw [beq_iff_eq]
    exact holder x hx
  rw [List.eraseP_append_right _ hnone]
  subst hd
  exact congrArg (older ++ ·) (List.eraseP_cons_of_pos (beq_self_eq_true d.verb))

/-- The newest control is the one that is taken out, if no other has its verb and only then. -/
theorem eraseP_append_self {l : List Control} {c : Control} (hc : c ∉ l) :
    (l ++ [c]).eraseP (·.verb == c.verb) = l ↔ ∀ d ∈ l, d.verb ≠ c.verb := by
  constructor
  · intro heq d hd hverb
    have hpasses : (d.verb == c.verb) = true := by rw [hverb, beq_self_eq_true]
    rw [List.eraseP_append_left (p := (·.verb == c.verb)) hpasses _ hd] at heq
    refine hc ?_
    rw [← heq]
    exact List.mem_append_right _ List.mem_cons_self
  · intro hother
    rw [eraseP_oldest hother rfl, List.append_nil]

/-- For a panel that comes about and a control `c` that is free: when `send_command` refuses the
request of `c`, `execute_command` has `resolve_kind` release by the verb. Afterwards the same
controls are latched as before, in the same order, if and only if none of them waits for the verb of
`c`; otherwise `older ++ d :: newer` becomes `older ++ newer ++ [c]`, where `d` is the oldest that
does: it is released in place of `c`, which stays latched. -/
theorem refused_iff {p : Panel} (hreach : p.Reachable) {m : Message} {c : Control} {r : Request}
    (hguarded : p.guarded? m = some (c, r)) (hfree : p.latches.isLatched c = false)
    (host : Host ω) (w : ω) {e : LinkError}
    (hrefused : (host.send r (host.draw (p.react m).1 (.control c true) w)).1 = .error e) :
    let after := (dispatch host m (p, w)).1.latches.controls
    (after = p.latches.controls ↔ ∀ d ∈ p.latches.controls, d.verb ≠ c.verb) ∧
      ∀ older d newer, p.latches.controls = older ++ d :: newer →
        (∀ x ∈ older, x.verb ≠ c.verb) → d.verb = c.verb → after = older ++ newer ++ [c] := by
  intro after
  have hafter : after = _ := controls_refused hreach hguarded hfree host w hrefused
  rw [hafter]
  refine ⟨eraseP_append_self (Latches.isLatched_eq_false_iff.1 hfree), ?_⟩
  intro older d newer hcontrols holder hd
  rw [hcontrols, List.append_assoc, List.cons_append, eraseP_oldest holder hd, List.append_assoc]

/-- A creation is refused while a deletion is under way. -/
theorem refused_iff_deletion :
    let p := ((fresh { ahead := [] }).react (.requestDelete (.group ⟨"1", "Staff"⟩))).1
    p.Reachable ∧ p.latches.isLatched .addUser = false ∧
      (dispatch .offline .requestCreateUser (p, ())).1.latches.controls =
        [.delete ⟨"1", .group⟩] := by
  intro p
  have hreach : p.Reachable := .react _ (.fresh _)
  have hfree : p.latches.isLatched .addUser = false := by decide
  have hother : ∀ d ∈ p.latches.controls, d.verb ≠ Control.addUser.verb := by decide
  exact ⟨hreach, hfree,
    (refused_iff hreach (m := .requestCreateUser) rfl hfree .offline () rfl).1.2
      hother⟩

/-- With the CREATE of `AddGroup` under way, the CREATE of `AddUser` is refused: `AddGroup` is
released, whose command is not resolved yet, and `AddUser` stays latched, whose command was never
sent. -/
theorem released_other :
    let p := ((fresh { ahead := [] }).react .requestCreateGroup).1
    let r := (Placeholder.create .user p.words).1
    p.Reachable ∧ p.guarded? .requestCreateUser = some (.addUser, r) ∧
      p.latches.isLatched .addUser = false ∧ (Host.offline.send r ()).1 = .error .notConnected ∧
      p.latches.controls = [.addGroup] ∧
      (dispatch .offline .requestCreateUser (p, ())).1.latches.controls = [.addUser] := by
  intro p r
  have hreach : p.Reachable := .react _ (.fresh _)
  have hfree : p.latches.isLatched .addUser = false := by decide
  refine ⟨hreach, rfl, hfree, rfl, rfl, ?_⟩
  exact controls_refused hreach (m := .requestCreateUser) rfl hfree .offline () rfl

end Panel

end RosterPanel
