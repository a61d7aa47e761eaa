import RosterPanel.Proofs.Handling

/-!
# Requests that are handed over

Which requests a host is handed while a message is handled, whether or not it can send them. The
host is made to keep them, and does everything else as before. Results:

* `Host.Projects`, `Host.Projects.dispatch`: where one host does the same as another with a part of
  its world, handling a message does the same with that part.
* `Host.recording`, `Host.dispatch_recording`: a host that keeps what it is handed handles messages
  as the host that it is made of.
* `Host.recorded_dispatch_of_ne`, `Host.recorded_connectionOpened`: the host is handed the requests
  that the message asks for, once each and in order, and none for those that cannot be sent.
-/

namespace RosterPanel

variable {ω ω' : Type}

/-! ## A part of the world -/

/-- A host does with a part `f` of its world what another does with its whole world. -/
structure Host.Projects (host' : Host ω') (host : Host ω) (f : ω' → ω) : Prop where
  send : ∀ r w, host.send r (f w) = ((host'.send r w).1, f (host'.send r w).2)
  draw : ∀ p part w, host.draw p part (f w) = f (host'.draw p part w)
  notify : ∀ kind text w, host.notify kind text (f w) = f (host'.notify kind text w)

namespace Host.Projects

variable {host' : Host ω'} {host : Host ω} {f : ω' → ω}

/-- One effect, if what it chains and what a failure leads to is taken care of. -/
theorem perform_of (h : Projects host' host f) {e : Effect}
    (hchain : ∀ m, e = .chain m → ∀ s : Panel × ω',
      dispatch host m (s.1, f s.2) = ((dispatch host' m s).1, f (dispatch host' m s).2))
    (hsend : ∀ r error, e = .send r → ∀ s : Panel × ω',
      dispatch host (.ofLinkError r error) (s.1, f s.2) =
        ((dispatch host' (.ofLinkError r error) s).1,
          f (dispatch host' (.ofLinkError r error) s).2))
    (s : Panel × ω') :
    perform host (s.1, f s.2) e = ((perform host' s e).1, f (perform host' s e).2) := by
  cases e with
  | chain m => exact hchain m rfl s
  | draw part => exact congrArg (Prod.mk s.1) (h.draw s.1 part s.2)
  | notify kind text => exact congrArg (Prod.mk s.1) (h.notify kind text s.2)
  | send r =>
    have hsent := h.send r s.2
    cases hresult : host'.send r s.2 with
    | mk result w =>
      rw [hresult] at hsent
      cases result with
      | ok _ => simp only [perform, hsent, hresult]
      | error error =>
        simp only [perform, hsent, hresult]
        exact hsend r error rfl (s.1, w)

theorem foldl_perform {es : List Effect} (hes : ∀ e ∈ es, ∀ s : Panel × ω',
      perform host (s.1, f s.2) e = ((perform host' s e).1, f (perform host' s e).2))
    (s : Panel × ω') : es.foldl (perform host) (s.1, f s.2) =
      ((es.foldl (perform host') s).1, f (es.foldl (perform host') s).2) := by
  induction es generalizing s with
  | nil => rfl
  | cons e rest ih =>
    rw [List.foldl_cons, List.foldl_cons, hes e List.mem_cons_self s]
    exact ih (fun e' he' => hes e' (List.mem_cons_of_mem e he')) _

/-- Handling a message does the same with the part of the world. -/
theorem dispatch (h : Projects host' host f) (m : Message) (s : Panel × ω') :
    dispatch host m (s.1, f s.2) = ((dispatch host' m s).1, f (dispatch host' m s).2) := by
  -- Further messages are of lower rank.
  induction hrank : m.rank using Nat.strongRecOn generalizing m s with
  | ind rank ih =>
    subst hrank
    rw [dispatch_eq, dispatch_eq]
    refine foldl_perform (fun e he => h.perform_of ?_ ?_) ((s.1.react m).1, s.2)
    · rintro m' rfl s
      exact ih m'.rank (Message.rank_lt_of_chain he) m' s rfl
    · rintro r error rfl s
      exact ih _ (Message.rank_pos_of_send he) _ s rfl

end Host.Projects

/-! ## Keeping requests -/

/-- The request that an effect hands to the host. -/
def Effect.request? : Effect → Option Request
  | .send r => some r
  | _ => none

/-- The requests among effects, in order. -/
def requests (es : List Effect) : List Request := es.filterMap Effect.request?

namespace Host

variable (host : Host ω)

/-- A host that also keeps the requests that it is handed, whether or not it can send them. -/
def recording : Host (ω × List Request) where
  send r w := ((host.send r w.1).1, (host.send r w.1).2, w.2 ++ [r])
  draw p part w := (host.draw p part w.1, w.2)
  notify kind text w := (host.notify kind text w.1, w.2)

theorem recording_projects : Projects host.recording host Prod.fst where
  send _ _ := rfl
  draw _ _ _ := rfl
  notify _ _ _ := rfl

/-- Keeping requests changes nothing else. -/
theorem dispatch_recording (m : Message) (p : Panel) (w : ω) (log : List Request) :
    dispatch host m (p, w) = ((dispatch host.recording m (p, w, log)).1,
      (dispatch host.recording m (p, w, log)).2.1) :=
  host.recording_projects.dispatch m (p, w, log)

/-- Reporting a failure sends nothing. -/
theorem recorded_failed (r : Request) (e : LinkError) (s : Panel × ω × List Request) :
    (dispatch host.recording (.ofLinkError r e) s).2.2 = s.2.2 :=
  dispatch_failure (I := fun _ (w : ω × List Request) => w.2 = s.2.2) (fun _ _ _ h => h)
    (fun _ _ _ _ h => h) r e rfl

theorem recorded_perform {e : Effect} (he : ∀ m, e ≠ .chain m) (s : Panel × ω × List Request) :
    (perform host.recording s e).2.2 = s.2.2 ++ requests [e] := by
  cases e with
  | chain m => exact absurd rfl (he m)
  | draw part => exact (List.append_nil _).symm
  | notify kind text => exact (List.append_nil _).symm
  | send r =>
    have hsent : (host.recording.send r s.2).2.2 = s.2.2 ++ [r] := rfl
    cases hresult : host.recording.send r s.2 with
    | mk result w =>
      rw [hresult] at hsent
      cases result with
      | ok _ =>
        simp only [perform, hresult]
        exact hsent
      | error error =>
        simp only [perform, hresult]
        exact (host.recorded_failed r error (s.1, w)).trans hsent

theorem recorded_performAll {es : List Effect} (hes : ∀ m, .chain m ∉ es)
    (s : Panel × ω × List Request) :
    (es.foldl (perform host.recording) s).2.2 = s.2.2 ++ requests es := by
  induction es generalizing s with
  | nil => exact (List.append_nil _).symm
  | cons e rest ih =>
    have hfirst := host.recorded_perform (fun m heq => hes m (heq ▸ List.mem_cons_self)) s
    rw [List.foldl_cons, ih (fun m hm => hes m (List.mem_cons_of_mem e hm)), hfirst,
      List.append_assoc]
    exact congrArg _ List.filterMap_append.symm

/-- A message that chains no others hands over the requests that it asks for. -/
theorem recorded_dispatch_of_ne {m : Message} (hm : m ≠ .connectionOpened)
    (s : Panel × ω × List Request) :
    (dispatch host.recording m s).2.2 = s.2.2 ++ requests (s.1.react m).2 := by
  rw [dispatch_eq]
  exact host.recorded_performAll (fun m' => s.1.chain_notMem_react m m' hm) _

/-- On an opened connection the host is handed two requests, for the groups and for the users. -/
theorem recorded_connectionOpened (s : Panel × ω × List Request) :
    (dispatch host.recording .connectionOpened s).2.2 = s.2.2 ++ [.list .group, .list .user] := by
  have hgroups := host.recorded_dispatch_of_ne (m := .refreshGroups) nofun
    ({ s.1 with connected := true }, s.2)
  rw [dispatch_connectionOpened, host.recorded_dispatch_of_ne (m := .refreshUsers) nofun, hgroups,
    List.append_assoc]
  rfl

end Host

end RosterPanel
