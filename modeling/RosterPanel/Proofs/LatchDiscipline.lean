import RosterPanel.Proofs.Latching

/-!
# One request at a time from each control

What the effects of a whole run say about a control. Results:

* `LatchStep.signals_eq`: a message shows a control exactly when it has latched or freed it.
* `Tracks`: a sequence of signals that turns over at each step; `LatchStep.tracks` and
  `tracks_reactAll` are the step and the run of it for the signals of a control.
* `Paired`: each control is shown as latched right before its own request, and no other request
  that a control could wait for is sent.
* `Panel.disciplined_run`: both, put together for every run of `update` from a fresh panel on.
-/

namespace RosterPanel

/-! ## Signals of a control -/

/-- What an effect shows a control as, if it shows it as anything. -/
def Effect.signal? (c : Control) : Effect → Option Bool
  | .draw (.control d disabled) => if d = c then some disabled else none
  | _ => none

/-- What effects show a control as, in order: `true` for latched and `false` for free. -/
def signals (c : Control) (effects : List Effect) : List Bool :=
  effects.filterMap (Effect.signal? c)

/-- Signals that turn over at each step, from one state of a control to another. -/
def Tracks : Bool → List Bool → Bool → Prop
  | start, [], stop => start = stop
  | start, b :: rest, stop => b = !start ∧ Tracks b rest stop

theorem Tracks.append {a b c : Bool} {l m : List Bool} (hl : Tracks a l b) (hm : Tracks b m c) :
    Tracks a (l ++ m) c := by
  induction l generalizing a with
  | nil => exact hl ▸ hm
  | cons x rest ih => exact ⟨hl.1, ih hl.2⟩

/-- Two equal signals have another one between them. -/
theorem Tracks.turn_between {a b x : Bool} {l m k : List Bool}
    (h : Tracks a (l ++ x :: m ++ x :: k) b) : (!x) ∈ m := by
  induction l generalizing a with
  | nil =>
    cases m with
    | nil => exact absurd h.2.1 (by simp)
    | cons y rest => simp [h.2.1]
  | cons y rest ih => exact ih h.2

theorem Tracks.getElem? {a b : Bool} {l : List Bool} (h : Tracks a l b) {i : Nat} {x : Bool}
    (hx : l[i]? = some x) : x = if i % 2 = 0 then !a else a := by
  induction l generalizing a i with
  | nil => simp at hx
  | cons y rest ih =>
    cases i with
    | zero =>
      rw [List.getElem?_cons_zero, Option.some.injEq] at hx
      rw [← hx, h.1]
      rfl
    | succ i =>
      rw [List.getElem?_cons_succ] at hx
      rw [ih h.2 hx, h.1]
      rcases Nat.mod_two_eq_zero_or_one i with hi | hi
      · rw [if_pos hi, if_neg (by omega), Bool.not_not]
      · rw [if_neg (by omega), if_pos (by omega)]

theorem Tracks.getLast?_eq {a b : Bool} {l : List Bool} (h : Tracks a l b) :
    l.getLast?.getD a = b := by
  induction l generalizing a with
  | nil => exact h
  | cons y rest ih =>
    have hrest := ih h.2
    rw [List.getLast?_cons]
    cases hlast : rest.getLast? <;> simp_all

theorem signals_append (c : Control) (es fs : List Effect) :
    signals c (es ++ fs) = signals c es ++ signals c fs :=
  List.filterMap_append

theorem signals_control (c d : Control) (b : Bool) (es : List Effect) :
    signals c (.draw (.control d b) :: es) = (if d = c then [b] else []) ++ signals c es := by
  by_cases h : d = c <;> simp [signals, Effect.signal?, h]

theorem signals_of_quiet (c : Control) {es : List Effect} (h : ∀ e ∈ es, e.Quiet) :
    signals c es = [] := by
  rw [signals, List.filterMap_eq_nil_iff]
  intro e he
  have hq := h e he
  unfold Effect.signal?
  split
  · exact hq.elim
  · rfl

theorem signals_nil (c : Control) : signals c [] = [] := rfl

theorem signals_send (c : Control) (r : Request) (es : List Effect) :
    signals c (.send r :: es) = signals c es := rfl

theorem signals_map_free (c : Control) (l : List Control) (hl : l.Nodup) :
    signals c (l.map .free) = if c ∈ l then [false] else [] := by
  induction l with
  | nil => rfl
  | cons d rest ih =>
    obtain ⟨hd, hrest⟩ := List.nodup_cons.1 hl
    rw [List.map_cons, Effect.free, signals_control, ih hrest]
    by_cases h : d = c
    · subst h
      simp [hd]
    · have h' : ¬ c = d := fun h'' => h h''.symm
      simp [h, h']

theorem Latches.isLatched_congr {l m : Latches} {c : Control}
    (h : c ∈ l.controls ↔ c ∈ m.controls) : l.isLatched c = m.isLatched c := by
  rw [Bool.eq_iff_iff, isLatched_iff, isLatched_iff, h]

/-- A message shows a control once, as it is latched then, if that has changed, and not at all
otherwise. -/
theorem LatchStep.signals_eq {l l' : Latches} {effects : List Effect} (h : LatchStep l l' effects)
    (hl : l.controls.Nodup) (c : Control) :
    signals c effects = if l'.isLatched c = l.isLatched c then [] else [l'.isLatched c] := by
  cases h with
  | keep hquiet => rw [signals_of_quiet c hquiet, if_pos rfl]
  | @arm d r hfree _ =>
    rw [signals_control, signals_send, signals_nil, List.append_nil]
    by_cases hd : d = c
    · have his : Latches.isLatched ⟨l.pending ++ [⟨d, r.verb⟩]⟩ c = true :=
        Latches.isLatched_iff.2 (by simp [Latches.controls, hd])
      rw [if_pos hd, his, ← hd, hfree]
      rfl
    · have hd' : ¬ c = d := fun h => hd h.symm
      rw [if_neg hd, if_pos (Latches.isLatched_congr (by simp [Latches.controls, hd']))]
  | @release before after a effects hpending hquiet =>
    have hcontrols := Latches.controls_of_pending hpending
    have hleft : Latches.controls ⟨before ++ after⟩ =
        before.map (·.control) ++ after.map (·.control) := List.map_append
    rw [Effect.free, signals_control, signals_of_quiet c hquiet, List.append_nil]
    by_cases hc : a.control = c
    · have hgone := (Latches.nodup_removed hl hpending).1
      have hwas : l.isLatched c = true := by rw [Latches.isLatched_iff, hcontrols, hc]; simp
      have his : Latches.isLatched ⟨before ++ after⟩ c = false :=
        Latches.isLatched_eq_false_iff.2 (hc ▸ hgone)
      rw [if_pos hc, hwas, his]
      rfl
    · have hc' : ¬ c = a.control := fun h => hc h.symm
      rw [if_neg hc, if_pos]
      refine Latches.isLatched_congr ?_
      rw [hcontrols, hleft, List.mem_append, List.mem_append, List.mem_cons, or_iff_right hc']
  | clear hquiet =>
    rw [signals_append, signals_of_quiet c hquiet, signals_map_free c _ hl, List.append_nil]
    by_cases hc : c ∈ l.controls
    · rw [if_pos hc, Latches.isLatched_iff.2 hc]
      rfl
    · rw [if_neg hc, Latches.isLatched_eq_false_iff.2 hc]
      rfl

/-- What a message shows of a control takes it from how it was latched to how it is latched. -/
theorem LatchStep.tracks {l l' : Latches} {effects : List Effect} (h : LatchStep l l' effects)
    (hl : l.controls.Nodup) (c : Control) :
    Tracks (l.isLatched c) (signals c effects) (l'.isLatched c) := by
  rw [h.signals_eq hl c]
  split
  · next hsame => exact hsame.symm
  · next hturned => exact ⟨Bool.eq_not.2 hturned, rfl⟩

namespace Panel

theorem tracks_reactAll (ms : List Message) (p : Panel) (h : p.latches.controls.Nodup)
    (c : Control) :
    Tracks (p.latches.isLatched c) (signals c (p.reactAll ms).2)
      ((p.reactAll ms).1.latches.isLatched c) := by
  induction ms generalizing p with
  | nil => exact rfl
  | cons m rest ih =>
    have hstep := latchStep_react p m
    rw [reactAll, signals_append]
    exact (hstep.tracks h c).append (ih _ (hstep.nodup h))

end Panel

/-! ## Requests of controls -/

/-- Whether a request is one that a control could wait for. -/
def Request.Guarded (r : Request) : Prop := r.verb = .create ∨ r.verb = .delete

/-- Latched controls and their requests go together: a control is shown as latched right before its
own request, and a guarded request is sent right after its control is shown as latched. -/
structure Paired (effects : List Effect) : Prop where
  asked : ∀ c before after, effects = before ++ .draw (.control c true) :: after →
    ∃ r rest, after = .send r :: rest ∧ c.Asks r
  asking : ∀ r before after, effects = before ++ .send r :: after → r.Guarded →
    ∃ c earlier, before = earlier ++ [.draw (.control c true)] ∧ c.Asks r

/-- Where an element of two lists in a row is found. -/
theorem append_eq_append_cons {α : Type} {l m before after : List α} {x : α}
    (h : l ++ m = before ++ x :: after) :
    (∃ k, l = before ++ x :: k ∧ after = k ++ m) ∨ ∃ k, m = k ++ x :: after ∧ before = l ++ k := by
  rcases List.append_eq_append_iff.1 h with ⟨k, hbefore, hm⟩ | ⟨k, hl, hrest⟩
  · exact Or.inr ⟨k, hm, hbefore⟩
  · cases k with
    | nil =>
      refine Or.inr ⟨[], ?_, by simpa using hl.symm⟩
      simpa using hrest.symm
    | cons y k =>
      obtain ⟨rfl, hafter⟩ := List.cons.inj hrest
      exact Or.inl ⟨k, hl, hafter⟩

theorem Paired.append {es fs : List Effect} (he : Paired es) (hf : Paired fs) :
    Paired (es ++ fs) where
  asked c before after h := by
    rcases append_eq_append_cons h with ⟨k, hes, rfl⟩ | ⟨k, hfs, -⟩
    · obtain ⟨r, rest, rfl, hr⟩ := he.asked c before k hes
      exact ⟨r, rest ++ fs, rfl, hr⟩
    · exact hf.asked c k after hfs
  asking r before after h hr := by
    rcases append_eq_append_cons h with ⟨k, hes, -⟩ | ⟨k, hfs, rfl⟩
    · exact he.asking r before k hes hr
    · obtain ⟨c, earlier, rfl, hc⟩ := hf.asking r k after hfs hr
      exact ⟨c, es ++ earlier, by rw [List.append_assoc], hc⟩

/-- Effects that neither latch a control nor send a guarded request. -/
theorem paired_of_forall {es : List Effect}
    (h : ∀ e ∈ es, e.Quiet ∨ ∃ c, e = .free c) : Paired es where
  asked c before after hes := by
    rcases h (.draw (.control c true)) (by simp [hes]) with hq | ⟨d, hd⟩
    · exact hq.elim
    · simp at hd
  asking r before after hes hr := by
    rcases h (.send r) (by simp [hes]) with hq | ⟨d, hd⟩
    · exact absurd hr (not_or.2 hq)
    · simp at hd

theorem paired_arm {c : Control} {r : Request} (h : c.Asks r) :
    Paired [.draw (.control c true), .send r] where
  asked d before after hes := by
    rcases before with _ | ⟨e, _ | ⟨e', before⟩⟩
    · simp only [List.nil_append, List.cons.injEq, Effect.draw.injEq, Drawing.control.injEq] at hes
      obtain ⟨⟨rfl, -⟩, rfl⟩ := hes
      exact ⟨r, [], rfl, h⟩
    · simp at hes
    · simp at hes
  asking s before after hes _ := by
    rcases before with _ | ⟨e, _ | ⟨e', before⟩⟩
    · simp at hes
    · simp only [List.cons_append, List.nil_append, List.cons.injEq, Effect.send.injEq] at hes
      obtain ⟨rfl, rfl, -⟩ := hes
      exact ⟨c, [], rfl, h⟩
    · simp at hes

theorem LatchStep.paired {l l' : Latches} {effects : List Effect} (h : LatchStep l l' effects) :
    Paired effects := by
  cases h with
  | keep hquiet => exact paired_of_forall fun e he => Or.inl (hquiet e he)
  | arm _ hr => exact paired_arm hr
  | release _ hquiet =>
    refine paired_of_forall fun e he => ?_
    rcases List.mem_cons.1 he with rfl | he
    · exact Or.inr ⟨_, rfl⟩
    · exact Or.inl (hquiet e he)
  | clear hquiet =>
    refine paired_of_forall fun e he => ?_
    rcases List.mem_append.1 he with he | he
    · obtain ⟨c, -, rfl⟩ := List.mem_map.1 he
      exact Or.inr ⟨c, rfl⟩
    · exact Or.inl (hquiet e he)

theorem Panel.paired_reactAll (ms : List Message) (p : Panel) : Paired (p.reactAll ms).2 := by
  induction ms generalizing p with
  | nil => exact paired_of_forall (by simp [Panel.reactAll])
  | cons m rest ih => exact (latchStep_react p m).paired.append (ih _)

/-! ## Runs of a fresh panel -/

/-- What holds of the commands that `update` has asked for when a panel is in a state. -/
structure Disciplined (p : Panel) (effects : List Effect) : Prop where
  /-- A control is shown as latched, free, latched and so on. -/
  alternate : ∀ c i b, (signals c effects)[i]? = some b → b = (i % 2 == 0)
  /-- A control is latched when it has last been shown so. -/
  latched : ∀ c, p.latches.isLatched c = true ↔ (signals c effects).getLast? = some true
  /-- Right after a control has been shown as latched, its request is sent once. -/
  asked : ∀ c before after, effects = before ++ .draw (.control c true) :: after →
    ∃ r rest, after = .send r :: rest ∧ c.Asks r ∧ ∀ s later, rest = .send s :: later → ¬ c.Asks s
  /-- Requests to create or to delete are sent only then. -/
  asking : ∀ r before after, effects = before ++ .send r :: after → r.Guarded →
    ∃ c earlier, before = earlier ++ [.draw (.control c true)] ∧ c.Asks r
  /-- Between two requests of a control it is freed. -/
  freed : ∀ c r s before between after,
    effects = before ++ .send r :: between ++ .send s :: after → c.Asks r → c.Asks s →
      .free c ∈ between

theorem mem_of_mem_signals {c : Control} {b : Bool} {es : List Effect} (h : b ∈ signals c es) :
    .draw (.control c b) ∈ es := by
  obtain ⟨e, he, hb⟩ := List.mem_filterMap.1 h
  unfold Effect.signal? at hb
  split at hb
  · split at hb
    · next hd =>
      cases hb
      exact hd ▸ he
    · cases hb
  · cases hb

/-- Two guarded requests of one control have a release of it between them. -/
theorem free_mem_between {es : List Effect} (hpaired : Paired es) {c : Control} {a b : Bool}
    (htracks : Tracks a (signals c es) b) {r s : Request} {before between after : List Effect}
    (h : es = before ++ .send r :: between ++ .send s :: after) (hr : c.Asks r) (hs : c.Asks s) :
    .free c ∈ between := by
  have h' : es = before ++ .send r :: (between ++ .send s :: after) := by simp [h]
  obtain ⟨d, first, rfl, hd⟩ := hpaired.asking r _ _ h' hr.verb
  obtain ⟨e, second, hsecond, he⟩ := hpaired.asking s _ _ h hs.verb
  cases hd.unique hr
  cases he.unique hs
  -- The effect before the second request lies behind the first one.
  obtain ⟨middle, rfl⟩ : ∃ middle, between = middle ++ [.draw (.control c true)] := by
    rcases List.eq_nil_or_concat between with rfl | ⟨middle, x, rfl⟩
    · have hlast := (List.append_inj' hsecond rfl).2
      simp at hlast
    · rw [List.concat_eq_append, ← List.cons_append, ← List.append_assoc] at hsecond
      have hlast := (List.append_inj' hsecond rfl).2
      exact ⟨middle, by rw [List.concat_eq_append, hlast]⟩
  have hsignals : signals c es =
      signals c first ++ true :: signals c middle ++ true :: signals c after := by
    rw [h]
    simp [signals_append, signals_control, signals_send]
  rw [hsignals] at htracks
  have hfree := mem_of_mem_signals htracks.turn_between
  exact List.mem_append_left _ hfree

theorem Panel.isLatched_fresh (words : Words) (c : Control) :
    (Panel.fresh words).latches.isLatched c = false := rfl

/-- For all messages `ms`, the commands of `update` from a fresh panel on are `Disciplined`:
`SetControlDisabled` says `true, false, true, …` of each control `c` and last what `is_disabled` is
of `c`; right after each `true` comes the one `Send` of the request of `c`, and no other `Send` is a
CREATE or a DELETE. -/
theorem Panel.disciplined_run (words : Words) (ms : List Message) :
    Disciplined ((Panel.fresh words).reactAll ms).1 ((Panel.fresh words).reactAll ms).2 := by
  have htracks := fun c => tracks_reactAll ms (Panel.fresh words) List.nodup_nil c
  have hpaired := paired_reactAll ms (Panel.fresh words)
  refine ⟨?_, ?_, ?_, hpaired.asking, ?_⟩
  · intro c i b hb
    rw [(htracks c).getElem? hb, isLatched_fresh]
    by_cases hi : i % 2 = 0 <;> simp [hi]
  · intro c
    rw [← (htracks c).getLast?_eq, isLatched_fresh]
    cases (signals c ((Panel.fresh words).reactAll ms).2).getLast? <;> simp
  · intro c before after h
    obtain ⟨r, rest, rfl, hr⟩ := hpaired.asked c before after h
    refine ⟨r, rest, rfl, hr, ?_⟩
    rintro s later rfl hs
    have h' : ((Panel.fresh words).reactAll ms).2 =
        (before ++ [.draw (.control c true), .send r]) ++ .send s :: later := by
      simpa using h
    obtain ⟨d, earlier, hlast, -⟩ := hpaired.asking s _ _ h' hs.verb
    rw [← List.singleton_append, ← List.append_assoc] at hlast
    have := (List.append_inj' hlast rfl).2
    simp at this
  · intro c r s before between after h hr hs
    exact free_mem_between hpaired (htracks c) h hr hs

end RosterPanel
