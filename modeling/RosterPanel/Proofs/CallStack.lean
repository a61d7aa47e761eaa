import Mathlib.Logic.Function.Iterate
import RosterPanel.Proofs.Handling

/-!
# Handling a message step by step

`dispatch` handles a message to its end in one go. Here the same is done in single steps, on a stack
that holds, for each message that is being handled, the effects that are still to be carried out.
Nothing in a step says that the steps ever end. Results:

* `Machine`, `Machine.step`: the stack and one step on it, with a journal of what happens.
* `Machine.leads_call`: the steps end, and what they end with is what `dispatch` gives.
* `Accounted`: in a journal each request that could not be sent is reported once, by one message and
  one error notice.
* `Machine.handled_in_steps`: `dispatch_global_message` ends, nests 3 messages at most, accounts for
  each request that `send_command` refuses, and leaves a panel in which at most `guard` tells which
  those were.
-/

namespace RosterPanel

variable {ω : Type}

/-! ## Steps -/

/-- What is noted of the handling of a message. -/
inductive Entry
  /-- A message begins to be handled. -/
  | handled (message : Message)
  | sent (request : Request)
  /-- A request could not be sent. -/
  | refused (request : Request) (error : LinkError)
  | notified (kind : NoticeKind) (text : String)

/-- A panel and its world while messages are being handled. -/
structure Machine (ω : Type) where
  panel : Panel
  world : ω
  /-- For each message that is being handled, the innermost first, what is still to be done. -/
  stack : List (List Effect)
  journal : List Entry

namespace Machine

/-- Begins to handle a message. -/
def call (c : Machine ω) (m : Message) : Machine ω where
  panel := (c.panel.react m).1
  world := c.world
  stack := (c.panel.react m).2 :: c.stack
  journal := c.journal ++ [.handled m]

/-- Carries out an effect, apart from what the messages ask for that it leads to. -/
def carry (host : Host ω) (c : Machine ω) : Effect → Machine ω
  | .chain m => c.call m
  | .send r =>
    match host.send r c.world with
    | (.ok _, w) => { c with world := w, journal := c.journal ++ [.sent r] }
    | (.error e, w) =>
      call { c with world := w, journal := c.journal ++ [.refused r e] } (.ofLinkError r e)
  | .draw part => { c with world := host.draw c.panel part c.world }
  | .notify kind text =>
    { c with
      world := host.notify kind text c.world
      journal := c.journal ++ [.notified kind text] }

/-- Carries out the next effect of the innermost message, or is done with that message. -/
def step (host : Host ω) (c : Machine ω) : Machine ω :=
  match c.stack with
  | [] => c
  | [] :: outer => { c with stack := outer }
  | (e :: rest) :: outer => carry host { c with stack := rest :: outer } e

/-- Steps lead from one state to another, and on the way at most so many messages are being handled
at a time. -/
inductive Leads (host : Host ω) (depth : Nat) : Machine ω → Machine ω → Prop
  | refl {c : Machine ω} : c.stack.length ≤ depth → Leads host depth c c
  | head {c d : Machine ω} : c.stack.length ≤ depth → Leads host depth (c.step host) d →
      Leads host depth c d

variable {host : Host ω} {depth : Nat} {a b c : Machine ω}

theorem Leads.trans (h : Leads host depth a b) (h' : Leads host depth b c) :
    Leads host depth a c := by
  induction h with
  | refl => exact h'
  | head hdepth _ ih => exact .head hdepth (ih h')

theorem Leads.mono {depth' : Nat} (h : Leads host depth a b) (hle : depth ≤ depth') :
    Leads host depth' a b := by
  induction h with
  | refl hdepth => exact .refl (Nat.le_trans hdepth hle)
  | head hdepth _ ih => exact .head (Nat.le_trans hdepth hle) ih

theorem Leads.exists_iterate (h : Leads host depth a b) :
    ∃ n, (step host)^[n] a = b ∧ ∀ k ≤ n, ((step host)^[k] a).stack.length ≤ depth := by
  induction h with
  | refl hdepth =>
    refine ⟨0, rfl, fun k hk => ?_⟩
    rw [Nat.le_zero.1 hk]
    exact hdepth
  | head hdepth _ ih =>
    obtain ⟨n, hn, hall⟩ := ih
    refine ⟨n + 1, hn, fun k hk => ?_⟩
    cases k with
    | zero => exact hdepth
    | succ k => exact hall k (Nat.le_of_succ_le_succ hk)

/-- Once nothing is left to be done, no step changes anything. -/
theorem iterate_of_done (h : a.stack = []) (n : Nat) : (step host)^[n] a = a := by
  refine Function.iterate_fixed ?_ n
  rw [step, h]

end Machine

/-! ## Journals -/

namespace Entry

/-- The report of a failure whose handling is noted, if it is one. -/
def failure? : Entry → Option Message
  | .handled (.commandFailed v code text) => some (.commandFailed v code text)
  | _ => none

/-- The report that is due for what is noted, if it is a request that could not be sent. -/
def refusal? : Entry → Option Message
  | .refused r e => some (.ofLinkError r e)
  | _ => none

def isError : Entry → Bool
  | .notified .error _ => true
  | _ => false

def isRefusal : Entry → Bool
  | .refused _ _ => true
  | _ => false

end Entry

/-- What the error notice says about a request that could not be sent. -/
def Request.failureText (r : Request) (e : LinkError) : String :=
  r.verb.name ++ " failed: " ++ e.message

/-- A journal accounts for the requests that could not be sent; besides, it notes some errors. -/
structure Accounted (errors : Nat) (log : List Entry) : Prop where
  /-- A request that could not be sent is reported at once, by a message and an error notice. -/
  answered : ∀ before r e after, log = before ++ .refused r e :: after →
    ∃ rest, after = .handled (.ofLinkError r e) :: .notified .error (r.failureText e) :: rest
  /-- The failures that are handled are those of requests that could not be sent, one for each. -/
  reports : log.filterMap Entry.failure? = log.filterMap Entry.refusal?
  /-- There is one error notice more for each request that could not be sent. -/
  errors : log.countP Entry.isError = errors + log.countP Entry.isRefusal

/-- How a journal can be that accounts for the requests that could not be sent, entry by entry. -/
inductive Journal : Nat → List Entry → Prop
  | nil : Journal 0 []
  | sent {n : Nat} {log : List Entry} (r : Request) : Journal n log → Journal n (.sent r :: log)
  | refused {n : Nat} {log : List Entry} (r : Request) (e : LinkError) : Journal n log →
      Journal n (.refused r e :: .handled (.ofLinkError r e) ::
        .notified .error (r.failureText e) :: log)
  | notified {n : Nat} {log : List Entry} (kind : NoticeKind) (text : String) : Journal n log →
      Journal ((if kind = .error then 1 else 0) + n) (.notified kind text :: log)
  | handled {n : Nat} {log : List Entry} {m : Message} : (Entry.handled m).failure? = none →
      Journal n log → Journal n (.handled m :: log)

namespace Journal

variable {n k : Nat} {log later : List Entry}

theorem append (h : Journal n log) (h' : Journal k later) : Journal (n + k) (log ++ later) := by
  induction h with
  | nil => rwa [Nat.zero_add]
  | sent r _ ih => exact .sent r ih
  | refused r e _ ih => exact .refused r e ih
  | notified kind text _ ih =>
    rw [Nat.add_assoc]
    exact .notified kind text ih
  | handled hm _ ih => exact .handled hm ih

/-- A refusal in a journal stands behind every entry that is none. -/
theorem behind {x : Entry} {before after : List Entry} {r : Request} {e : LinkError}
    (hx : x.refusal? = none) (h : x :: log = before ++ .refused r e :: after) :
    ∃ rest, log = rest ++ .refused r e :: after := by
  cases before with
  | nil =>
    cases h
    cases hx
  | cons y rest => exact ⟨rest, (List.cons.inj h).2⟩

theorem answered (h : Journal n log) {before after : List Entry} {r : Request} {e : LinkError}
    (heq : log = before ++ .refused r e :: after) :
    ∃ rest, after = .handled (.ofLinkError r e) :: .notified .error (r.failureText e) :: rest := by
  induction h generalizing before with
  | nil => simp at heq
  | sent _ _ ih | notified _ _ _ ih | handled _ _ ih =>
    obtain ⟨_, hrest⟩ := behind rfl heq
    exact ih hrest
  | refused r' e' _ ih =>
    cases before with
    | nil =>
      cases heq
      exact ⟨_, rfl⟩
    | cons x rest =>
      obtain ⟨_, hnotified⟩ := behind rfl (List.cons.inj heq).2
      obtain ⟨_, hrest⟩ := behind rfl hnotified
      exact ih hrest

theorem accounted (h : Journal n log) : Accounted n log where
  answered _ _ _ _ heq := h.answered heq
  reports := by
    induction h with
    | nil => rfl
    | sent r _ ih => exact ih
    | refused r e _ ih => exact congrArg (.ofLinkError r e :: ·) ih
    | notified kind text _ ih => exact ih
    | handled hm _ ih =>
      rw [List.filterMap_cons_none hm]
      exact ih
  errors := by
    induction h with
    | nil => rfl
    | sent r _ ih => simpa [List.countP_cons, Entry.isError, Entry.isRefusal] using ih
    | refused r e _ ih =>
      simp only [List.countP_cons, Entry.isError, Entry.isRefusal, ih]
      simp [Nat.add_assoc]
    | notified kind text _ ih =>
      cases kind with
      | success => simpa [List.countP_cons, Entry.isError, Entry.isRefusal] using ih
      | error =>
        simp only [List.countP_cons, Entry.isError, Entry.isRefusal, ih]
        simp only [if_true, Bool.false_eq_true, if_false]
        omega
    | handled _ _ ih => simpa [List.countP_cons, Entry.isError, Entry.isRefusal] using ih

end Journal

/-! ## Handling ends -/

/-- How many error notices effects ask for. -/
def errors (es : List Effect) : Nat :=
  es.countP fun
    | .notify .error _ => true
    | _ => false

namespace Machine

variable {host : Host ω}

/-- An effect is carried out by steps that have at most so many messages handled at a time. -/
def Carries (host : Host ω) (depth : Nat) (e : Effect) : Prop :=
  ∀ p w rest outer journal, ∃ log, Journal (errors [e]) log ∧
    Leads host (outer.length + depth) ⟨p, w, (e :: rest) :: outer, journal⟩
      ⟨(perform host (p, w) e).1, (perform host (p, w) e).2, rest :: outer, journal ++ log⟩

theorem Carries.mono {depth depth' : Nat} {e : Effect} (h : Carries host depth e)
    (hle : depth ≤ depth') : Carries host depth' e := by
  intro p w rest outer journal
  obtain ⟨log, hlog, hlead⟩ := h p w rest outer journal
  exact ⟨log, hlog, hlead.mono (Nat.add_le_add_left hle _)⟩

theorem carries_draw (part : Drawing) : Carries host 1 (.draw part) := by
  intro p w rest outer journal
  refine ⟨[], .nil, .head (Nat.le_refl _) ?_⟩
  rw [List.append_nil]
  exact .refl (Nat.le_refl _)

theorem carries_notify (kind : NoticeKind) (text : String) :
    Carries host 1 (.notify kind text) := by
  intro p w rest outer journal
  refine ⟨[.notified kind text], ?_, .head (Nat.le_refl _) (.refl (Nat.le_refl _))⟩
  cases kind with
  | success => exact .notified .success text .nil
  | error => exact .notified .error text .nil

/-- Effects are carried out in order, and then their message has been handled. -/
theorem leads_effects {depth : Nat} {es : List Effect} (h : ∀ e ∈ es, Carries host (depth + 1) e)
    (p : Panel) (w : ω) (outer : List (List Effect)) (journal : List Entry) :
    ∃ log, Journal (errors es) log ∧
      Leads host (outer.length + (depth + 1)) ⟨p, w, es :: outer, journal⟩
        ⟨(es.foldl (perform host) (p, w)).1, (es.foldl (perform host) (p, w)).2, outer,
          journal ++ log⟩ := by
  induction es generalizing p w journal with
  | nil =>
    refine ⟨[], .nil, .head (by simp) ?_⟩
    rw [List.append_nil]
    exact .refl (Nat.le_add_right _ _)
  | cons e rest ih =>
    obtain ⟨first, hfirst, hlead⟩ := h e List.mem_cons_self p w rest outer journal
    obtain ⟨later, hlater, hrest⟩ := ih (fun e' he' => h e' (List.mem_cons_of_mem e he'))
      (perform host (p, w) e).1 (perform host (p, w) e).2 (journal ++ first)
    refine ⟨first ++ later, ?_, ?_⟩
    · have := hfirst.append hlater
      rwa [errors, errors, ← List.countP_append] at this
    · rw [List.append_assoc] at hrest
      exact hlead.trans hrest

/-- A message is handled, if all that it asks for can be carried out. -/
theorem leads_call (host : Host ω) {depth : Nat} {m : Message} {p : Panel}
    (h : ∀ e ∈ (p.react m).2, Carries host (depth + 1) e) (w : ω) (outer : List (List Effect))
    (journal : List Entry) :
    ∃ log, Journal (errors (p.react m).2) log ∧
      Leads host (outer.length + (depth + 1)) (call ⟨p, w, outer, journal⟩ m)
        ⟨(dispatch host m (p, w)).1, (dispatch host m (p, w)).2, outer,
          journal ++ .handled m :: log⟩ := by
  obtain ⟨log, hlog, hlead⟩ :=
    leads_effects h (p.react m).1 w outer (journal ++ [.handled m])
  rw [List.append_assoc] at hlead
  rw [dispatch_eq]
  exact ⟨log, hlog, hlead⟩

/-- Reporting a failure shows an error notice and leads to nothing else. -/
theorem leads_failure (host : Host ω) (p : Panel) (w : ω) (outer : List (List Effect))
    (journal : List Entry) (r : Request) (e : LinkError) :
    Leads host (outer.length + 1) (call ⟨p, w, outer, journal⟩ (.ofLinkError r e))
      ⟨(dispatch host (.ofLinkError r e) (p, w)).1, (dispatch host (.ofLinkError r e) (p, w)).2,
        outer,
        journal ++ [.handled (.ofLinkError r e), .notified .error (r.failureText e)]⟩ := by
  have heffects : (p.react (.ofLinkError r e)).2 =
      (p.latches.releaseVerb r.verb).1.toList.map .free ++
        [.notify .error (r.failureText e)] := rfl
  have hjournal : journal ++ [.handled (.ofLinkError r e), .notified .error (r.failureText e)] =
      journal ++ [.handled (.ofLinkError r e)] ++ [.notified .error (r.failureText e)] := by
    rw [List.append_assoc]
    rfl
  rw [dispatch_eq, call, hjournal, heffects]
  have hnow := Nat.le_refl (outer.length + 1)
  have hdone := Nat.le_add_right outer.length 1
  cases (p.latches.releaseVerb r.verb).1 with
  | none => exact .head hnow (.head hnow (.refl hdone))
  | some c => exact .head hnow (.head hnow (.head hnow (.refl hdone)))

/-- A request is sent, or it is refused and reported. -/
theorem carries_send (r : Request) : Carries host 2 (.send r) := by
  intro p w rest outer journal
  rcases hsent : host.send r w with ⟨_ | _, w'⟩
  · next e =>
    have hlead := leads_failure host p w' (rest :: outer) (journal ++ [.refused r e]) r e
    refine ⟨[.refused r e, .handled (.ofLinkError r e), .notified .error (r.failureText e)],
      .refused r e .nil, .head (Nat.le_succ _) ?_⟩
    simp only [step, carry, perform, hsent]
    rwa [List.append_assoc] at hlead
  · refine ⟨[.sent r], .sent r .nil, .head (Nat.le_succ _) ?_⟩
    simp only [step, carry, perform, hsent]
    exact .refl (Nat.le_succ _)

/-- A message that chains no others nests one further message at a time. -/
theorem carries_of_ne {m : Message} (hm : m ≠ .connectionOpened) (p : Panel) :
    ∀ e ∈ (p.react m).2, Carries host 2 e := by
  intro e he
  cases e with
  | chain m' => exact absurd he (p.chain_notMem_react m m' hm)
  | send r => exact carries_send r
  | draw part => exact (carries_draw part).mono (by decide)
  | notify kind text => exact (carries_notify kind text).mono (by decide)

/-- A chained message that chains no others is handled one level further in. -/
theorem carries_chain {m : Message} (hm : m ≠ .connectionOpened)
    (hreport : (Entry.handled m).failure? = none) (hquiet : ∀ p : Panel, errors (p.react m).2 = 0) :
    Carries host 3 (.chain m) := by
  intro p w rest outer journal
  obtain ⟨log, hlog, hlead⟩ :=
    leads_call host (carries_of_ne hm p) w (rest :: outer) journal
  rw [hquiet] at hlog
  have hnow : outer.length + 1 ≤ outer.length + 3 := Nat.add_le_add_left (by decide) _
  have hdepth : (rest :: outer).length + 2 = outer.length + 3 := by simp
  rw [hdepth] at hlead
  exact ⟨.handled m :: log, .handled hreport hlog, .head hnow hlead⟩

/-- Whatever a message asks for can be carried out, with three messages handled at a time. -/
theorem carries_react (m : Message) (p : Panel) : ∀ e ∈ (p.react m).2, Carries host 3 e := by
  intro e he
  by_cases hm : m = .connectionOpened
  · subst hm
    simp only [Panel.react, Panel.connectionOpened, List.mem_cons, List.not_mem_nil,
      or_false] at he
    rcases he with rfl | rfl
    · exact carries_chain (by simp) rfl fun _ => rfl
    · exact carries_chain (by simp) rfl fun _ => rfl
  · exact (carries_of_ne hm p e he).mono (by decide)

/-- For every host, message `m` and panel `p`: after some number of `step`s from the `call` of `m`
the stack is empty and what is left is `dispatch_global_message` of `m`; on the way the stack has at
most 3 messages. In the log each request that `send_command` refuses comes with one `CommandFailed`
and one error notice. The panel in the end depends on what can be sent in its `guard` only. -/
theorem handled_in_steps (host : Host ω) (m : Message) (p : Panel) (w : ω) :
    ∃ n log, (step host)^[n] (call ⟨p, w, [], []⟩ m) =
        ⟨(dispatch host m (p, w)).1, (dispatch host m (p, w)).2, [], .handled m :: log⟩ ∧
      (∀ k, ((step host)^[k] (call ⟨p, w, [], []⟩ m)).stack.length ≤ 3) ∧
      Accounted (errors (p.react m).2) log ∧
      ∀ {ω' : Type} (host' : Host ω') (w' : ω'),
        (dispatch host' m (p, w')).1.withoutLatches =
          (dispatch host m (p, w)).1.withoutLatches := by
  obtain ⟨log, hlog, hlead⟩ := leads_call host (carries_react m p) w [] []
  obtain ⟨n, hend, hdepth⟩ := hlead.exists_iterate
  refine ⟨n, log, hend, fun k => ?_, hlog.accounted, fun host' w' =>
    withoutLatches_dispatch_congr host' host m p w' w⟩
  rcases Nat.le_total k n with hk | hk
  · exact hdepth k hk
  · obtain ⟨extra, rfl⟩ := Nat.exists_eq_add_of_le' hk
    rw [Function.iterate_add_apply, hend, iterate_of_done rfl]
    exact Nat.zero_le 3

end Machine

end RosterPanel
