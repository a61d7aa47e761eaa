import RosterPanel.Proofs.LastWord
import RosterPanel.Proofs.LatchDiscipline

/-!
# What becomes of latches

Latches are a queue from which any place can be taken: whatever is done with them, in any order and
with any verbs, the latched controls are in the order in which they were latched last, and no
control is released that was not latched, or twice. Results:

* `Latches.performAll`: a run of operations, with the news of controls latched and released.
* `Latches.answers`: what each operation answers and leaves.
* `Told`: how single news change the latches, with `Told.perform` and `Told.performAll` for
  operations and runs of them.
* `Told.nodup`, `Told.mem_pending_iff`, `Told.ordered`, `Told.released`, `Told.latched`: what the
  news say of the latches, each by induction on them.
* `Latches.account_performAll`: all of it, for every list of calls of `try_arm`, `resolve_control`,
  `resolve_delete`, `resolve_kind` and `release_all`.
-/

namespace RosterPanel

/-! ## Operations and their news -/

/-- What can be done with latches. -/
inductive LatchOp
  | arm (control : Control) (verb : Verb)
  | releaseControl (control : Control)
  | releaseDeletion (id : String)
  | releaseVerb (verb : Verb)
  | releaseAll

/-- A control has been latched, or released. -/
inductive LatchNews
  | armed (latch : Latch)
  | freed (control : Control)

namespace LatchNews

/-- The control that news is of. -/
def control : LatchNews → Control
  | .armed a => a.control
  | .freed c => c

/-- What news says of a control, if it is of that one: for which verb it waits, or that it is
free. -/
def of? (c : Control) (n : LatchNews) : Option (Option Verb) :=
  if n.control = c then
    match n with
    | .armed a => some (some a.verb)
    | .freed _ => some none
  else none

theorem of?_eq_none_iff {c : Control} {n : LatchNews} : n.of? c = none ↔ n.control ≠ c := by
  unfold of?
  by_cases h : n.control = c
  · rw [if_pos h]
    cases n <;> simp [h]
  · rw [if_neg h]
    exact iff_of_true rfl h

theorem of?_eq_armed_iff {a : Latch} {n : LatchNews} :
    n.of? a.control = some (some a.verb) ↔ n = .armed a := by
  obtain ⟨c, v⟩ := a
  cases n with
  | armed b =>
    obtain ⟨d, w⟩ := b
    by_cases h : d = c <;> simp [of?, control, h]
  | freed d => by_cases h : d = c <;> simp [of?, control, h]

end LatchNews

namespace Latches

/-- An operation, with the news of it. -/
def perform (l : Latches) : LatchOp → List LatchNews × Latches
  | .arm c v =>
    match l.arm c v with
    | (.armed, l) => ([.armed ⟨c, v⟩], l)
    | (.rejected, l) => ([], l)
  | .releaseControl c =>
    let (found, l) := l.releaseControl c
    (found.toList.map .freed, l)
  | .releaseDeletion id =>
    let (found, l) := l.releaseDeletion id
    (found.toList.map .freed, l)
  | .releaseVerb v =>
    let (found, l) := l.releaseVerb v
    (found.toList.map .freed, l)
  | .releaseAll =>
    let (all, l) := l.releaseAll
    (all.map .freed, l)

/-- Operations in a row, with the news of all of them. -/
def performAll (l : Latches) : List LatchOp → List LatchNews × Latches
  | [] => ([], l)
  | op :: rest =>
    let (news, l) := l.perform op
    let (more, l) := l.performAll rest
    (news ++ more, l)

end Latches

/-! ## Answers -/

namespace Latches

/-- A release finds nothing and leaves everything, or takes out the oldest latch that fits. -/
inductive TakesOldest (l : Latches) (fits : Latch → Prop) : Option Control × Latches → Prop
  | none : (∀ a ∈ l.pending, ¬ fits a) → TakesOldest l fits (none, l)
  | some {older newer : List Latch} {a : Latch} : l.pending = older ++ a :: newer → fits a →
      (∀ b ∈ older, ¬ fits b) → TakesOldest l fits (some a.control, ⟨older ++ newer⟩)

theorem takesOldest_releaseFirst (l : Latches) {p : Latch → Bool} {fits : Latch → Prop}
    (h : ∀ a, p a = true ↔ fits a) : l.TakesOldest fits (l.releaseFirst p) := by
  have hnot : ∀ a, p a = false → ¬ fits a := fun a ha hfits => by
    rw [(h a).2 hfits] at ha
    cases ha
  rcases l.releaseFirst_cases p with ⟨heq, hnone⟩ | ⟨older, a, newer, hl, ha, holder, heq⟩
  · rw [heq]
    exact .none fun a ha => hnot a (hnone a ha)
  · rw [heq]
    exact .some hl ((h a).1 ha) fun b hb => hnot b (holder b hb)

theorem deletes_iff {id : String} {c : Control} :
    c.deletes id = true ↔ ∃ kind, c = .delete ⟨id, kind⟩ := by
  cases c with
  | addGroup | addUser => simp [Control.deletes]
  | delete r =>
    obtain ⟨id', kind⟩ := r
    simp [Control.deletes]

theorem arm_of_mem {l : Latches} {c : Control} (h : c ∈ l.controls) (v : Verb) :
    l.arm c v = (.rejected, l) :=
  if_pos (isLatched_iff.2 h)

theorem arm_of_notMem {l : Latches} {c : Control} (h : c ∉ l.controls) (v : Verb) :
    l.arm c v = (.armed, ⟨l.pending ++ [⟨c, v⟩]⟩) :=
  if_neg fun hlatched => h (isLatched_iff.1 hlatched)

/-- What the operations answer and leave. -/
structure Answers (l : Latches) : Prop where
  rejected : ∀ c v, (l.arm c v).1 = .rejected ↔ c ∈ l.controls
  /-- What is latched already stays as it is. -/
  stays : ∀ c v, c ∈ l.controls → (l.arm c v).2 = l
  joins : ∀ c v, c ∉ l.controls → l.arm c v = (.armed, ⟨l.pending ++ [⟨c, v⟩]⟩)
  control : ∀ c, l.TakesOldest (·.control = c) (l.releaseControl c)
  deletion : ∀ id,
    l.TakesOldest (fun a => ∃ kind, a.control = .delete ⟨id, kind⟩) (l.releaseDeletion id)
  verb : ∀ v, l.TakesOldest (·.verb = v) (l.releaseVerb v)
  all : l.releaseAll = (l.pending.map (·.control), ⟨[]⟩)

theorem answers (l : Latches) : l.Answers where
  rejected c v := by
    by_cases h : c ∈ l.controls
    · rw [arm_of_mem h]
      exact iff_of_true rfl h
    · rw [arm_of_notMem h]
      exact iff_of_false nofun h
  stays c v h := by rw [arm_of_mem h]
  joins c v h := arm_of_notMem h v
  control c := l.takesOldest_releaseFirst fun _ => beq_iff_eq
  deletion id := l.takesOldest_releaseFirst fun _ => deletes_iff
  verb v := l.takesOldest_releaseFirst fun _ => beq_iff_eq
  all := rfl

end Latches

/-! ## News -/

/-- Latches that have come about, from none, by news. A control is latched if it was free, behind
all others, and any control can be released. -/
inductive Told : List LatchNews → Latches → Prop
  | nil : Told [] ∅
  | arm {news : List LatchNews} {l : Latches} {c : Control} (v : Verb) :
      Told news l → c ∉ l.controls → Told (news ++ [.armed ⟨c, v⟩]) ⟨l.pending ++ [⟨c, v⟩]⟩
  | free {news : List LatchNews} {l : Latches} {older newer : List Latch} {a : Latch} :
      Told news l → l.pending = older ++ a :: newer →
      Told (news ++ [.freed a.control]) ⟨older ++ newer⟩

namespace Told

variable {news : List LatchNews} {l : Latches}

/-! ### Operations tell news -/

theorem releaseFirst (h : Told news l) (p : Latch → Bool) :
    Told (news ++ (l.releaseFirst p).1.toList.map .freed) (l.releaseFirst p).2 := by
  rcases l.releaseFirst_cases p with ⟨heq, -⟩ | ⟨older, a, newer, hl, -, -, heq⟩
  · rw [heq]
    exact (List.append_nil news).symm ▸ h
  · rw [heq]
    exact h.free hl

/-- Releasing everything is releasing the oldest latch again and again. -/
theorem releaseAll (h : Told news l) : Told (news ++ l.controls.map .freed) ∅ := by
  obtain ⟨pending⟩ := l
  induction pending generalizing news with
  | nil => exact (List.append_nil news).symm ▸ h
  | cons a rest ih =>
    have hfirst : Told (news ++ [.freed a.control]) ⟨[] ++ rest⟩ := h.free rfl
    have hrest := ih hfirst
    rwa [List.append_assoc] at hrest

theorem perform (h : Told news l) (op : LatchOp) :
    Told (news ++ (l.perform op).1) (l.perform op).2 := by
  cases op with
  | arm c v =>
    by_cases hc : c ∈ l.controls
    · simp only [Latches.perform, Latches.arm_of_mem hc, List.append_nil]
      exact h
    · simp only [Latches.perform, Latches.arm_of_notMem hc]
      exact h.arm v hc
  | releaseControl c => exact h.releaseFirst _
  | releaseDeletion id => exact h.releaseFirst _
  | releaseVerb v => exact h.releaseFirst _
  | releaseAll => exact h.releaseAll

theorem performAll (h : Told news l) (ops : List LatchOp) :
    Told (news ++ (l.performAll ops).1) (l.performAll ops).2 := by
  induction ops generalizing news l with
  | nil => exact (List.append_nil news).symm ▸ h
  | cons op rest ih =>
    have hrest := ih (h.perform op)
    rwa [List.append_assoc] at hrest

/-! ### What the news say -/

theorem nodup (h : Told news l) : l.controls.Nodup := by
  induction h with
  | nil => exact List.nodup_nil
  | arm v _ hfree ih => exact Latches.nodup_concat ih hfree v
  | free _ hl ih => exact (Latches.nodup_removed ih hl).2

/-- What is pending is what was latched last on its control, with nothing said of that since. -/
theorem mem_pending_iff (h : Told news l) (a : Latch) :
    a ∈ l.pending ↔ lastWord (LatchNews.of? a.control) news = some (some a.verb) := by
  induction h with
  | nil => exact iff_of_false List.not_mem_nil (by simp [lastWord_nil])
  | @arm news l c v htold hfree ih =>
    rw [lastWord_concat, List.mem_append, List.mem_singleton]
    by_cases hc : c = a.control
    · have hnot : a ∉ l.pending := fun hmem => hfree (hc ▸ List.mem_map_of_mem hmem)
      have hsaid : LatchNews.of? a.control (.armed ⟨c, v⟩) = some (some v) := if_pos hc
      rw [hsaid, or_iff_right hnot, Option.some_or, Option.some.injEq, Option.some.injEq]
      exact ⟨fun heq => heq ▸ rfl, fun heq => by rw [hc, heq]⟩
    · have hsilent : LatchNews.of? a.control (.armed ⟨c, v⟩) = none := if_neg hc
      rw [hsilent, Option.none_or, ih, or_iff_left fun heq : a = ⟨c, v⟩ => hc (by rw [heq])]
  | @free news l older newer b htold hl ih =>
    have hgone := (Latches.nodup_removed htold.nodup hl).1
    rw [hl, List.mem_append, List.mem_cons] at ih
    rw [lastWord_concat, List.mem_append]
    by_cases hb : b.control = a.control
    · have hnot : ¬ (a ∈ older ∨ a ∈ newer) := fun hmem =>
        hgone (hb ▸ List.mem_map_of_mem (List.mem_append.2 hmem))
      have hsaid : LatchNews.of? a.control (.freed b.control) = some none := if_pos hb
      rw [hsaid]
      exact iff_of_false hnot (by simp)
    · have hsilent : LatchNews.of? a.control (.freed b.control) = none := if_neg hb
      rw [hsilent, Option.none_or, ← ih, or_iff_right fun heq : a = b => hb (heq ▸ rfl)]

/-- The news of when a pending latch was latched. -/
theorem exists_armed (h : Told news l) {a : Latch} (ha : a ∈ l.pending) :
    ∃ before after, news = before ++ .armed a :: after ∧ ∀ n ∈ after, n.control ≠ a.control := by
  obtain ⟨before, n, after, hnews, hn, hafter⟩ :=
    lastWord_eq_some_iff.1 ((h.mem_pending_iff a).1 ha)
  rw [LatchNews.of?_eq_armed_iff.1 hn] at hnews
  exact ⟨before, after, hnews, fun x hx => LatchNews.of?_eq_none_iff.1 (hafter x hx)⟩

end Told

/-- One latch was latched before another, and both for the last time. -/
def ArmedBefore (news : List LatchNews) (a b : Latch) : Prop :=
  ∃ before between after, news = before ++ .armed a :: between ++ .armed b :: after ∧
    (∀ n ∈ between ++ .armed b :: after, n.control ≠ a.control) ∧
      ∀ n ∈ after, n.control ≠ b.control

/-- News of other controls does not matter. -/
theorem ArmedBefore.concat {news : List LatchNews} {a b : Latch} (h : ArmedBefore news a b)
    {n : LatchNews} (ha : n.control ≠ a.control) (hb : n.control ≠ b.control) :
    ArmedBefore (news ++ [n]) a b := by
  obtain ⟨before, between, after, rfl, hsince, hafter⟩ := h
  refine ⟨before, between, after ++ [n], by simp, ?_, ?_⟩
  · rw [← List.cons_append, ← List.append_assoc]
    exact List.forall_mem_append.2 ⟨hsince, List.forall_mem_singleton.2 ha⟩
  · exact List.forall_mem_append.2 ⟨hafter, List.forall_mem_singleton.2 hb⟩

/-- Where an element is found in a list with one more at its end. -/
theorem concat_eq_append_cons {α : Type} {l before after : List α} {x y : α}
    (h : l ++ [y] = before ++ x :: after) :
    (∃ k, l = before ++ x :: k ∧ after = k ++ [y]) ∨ (y = x ∧ before = l ∧ after = []) := by
  rcases append_eq_append_cons h with hold | ⟨k, hlast, hbefore⟩
  · exact Or.inl hold
  · cases k with
    | nil =>
      obtain ⟨rfl, rfl⟩ := List.cons.inj hlast
      exact Or.inr ⟨rfl, by rw [hbefore, List.append_nil], rfl⟩
    | cons z k => simp at hlast

namespace Told

variable {news : List LatchNews} {l : Latches}

/-- What is pending is in the order in which it was latched last. -/
theorem ordered (h : Told news l) : l.pending.Pairwise (ArmedBefore news) := by
  induction h with
  | nil => exact List.Pairwise.nil
  | @arm news l c v htold hfree ih =>
    have hother : ∀ a ∈ l.pending, c ≠ a.control := fun a ha heq =>
      hfree (heq ▸ List.mem_map_of_mem ha)
    refine List.pairwise_append.2 ⟨?_, List.pairwise_singleton _ _, fun a ha b hb => ?_⟩
    · exact ih.imp_of_mem fun ha hb hab => hab.concat (hother _ ha) (hother _ hb)
    · rw [List.mem_singleton.1 hb]
      obtain ⟨before, between, rfl, hsince⟩ := htold.exists_armed ha
      refine ⟨before, between, [], rfl, ?_, by simp⟩
      exact List.forall_mem_append.2 ⟨hsince, List.forall_mem_singleton.2 (hother a ha)⟩
  | @free news l older newer b htold hl ih =>
    have hgone := (Latches.nodup_removed htold.nodup hl).1
    have hother : ∀ a ∈ older ++ newer, b.control ≠ a.control := fun a ha heq =>
      hgone (heq ▸ List.mem_map_of_mem ha)
    have hsub : (older ++ newer).Sublist l.pending := by
      rw [hl]
      exact (List.sublist_cons_self b newer).append_left older
    exact (ih.sublist hsub).imp_of_mem fun ha hb hab => hab.concat (hother _ ha) (hother _ hb)

/-- What was latched is released by the next news of its control, or is still pending. -/
theorem released (h : Told news l) {a : Latch} {before after : List LatchNews}
    (hnews : news = before ++ .armed a :: after) :
    (∃ between later, after = between ++ .freed a.control :: later ∧
        ∀ n ∈ between, n.control ≠ a.control) ∨
      (a ∈ l.pending ∧ ∀ n ∈ after, n.control ≠ a.control) := by
  induction h generalizing after with
  | nil => simp at hnews
  | @arm news l c v htold hfree ih =>
    rcases concat_eq_append_cons hnews with ⟨k, hold, rfl⟩ | ⟨hlast, -, rfl⟩
    · rcases ih hold with ⟨between, later, rfl, hbetween⟩ | ⟨ha, hk⟩
      · exact Or.inl ⟨between, later ++ [.armed ⟨c, v⟩], by simp, hbetween⟩
      · have hc : c ≠ a.control := fun heq => hfree (heq ▸ List.mem_map_of_mem ha)
        exact Or.inr ⟨List.mem_append_left _ ha,
          List.forall_mem_append.2 ⟨hk, List.forall_mem_singleton.2 hc⟩⟩
    · cases hlast
      exact Or.inr ⟨List.mem_append_right _ List.mem_cons_self, by simp⟩
  | @free news l older newer b htold hl ih =>
    rcases concat_eq_append_cons hnews with ⟨k, hold, rfl⟩ | ⟨hlast, -, -⟩
    · rcases ih hold with ⟨between, later, rfl, hbetween⟩ | ⟨ha, hk⟩
      · exact Or.inl ⟨between, later ++ [.freed b.control], by simp, hbetween⟩
      · by_cases hb : b.control = a.control
        · exact Or.inl ⟨k, [], by rw [hb], hk⟩
        · have hleft : a ∈ older ++ newer := by
            have hne : a ≠ b := fun heq => hb (heq ▸ rfl)
            rw [hl, List.mem_append, List.mem_cons, or_iff_right hne] at ha
            exact List.mem_append.2 ha
          exact Or.inr ⟨hleft, List.forall_mem_append.2 ⟨hk, List.forall_mem_singleton.2 hb⟩⟩
    · cases hlast

/-- What is released had been latched, with no news of its control in between. -/
theorem latched (h : Told news l) {c : Control} {before after : List LatchNews}
    (hnews : news = before ++ .freed c :: after) :
    ∃ v earlier between, before = earlier ++ .armed ⟨c, v⟩ :: between ∧
      ∀ n ∈ between, n.control ≠ c := by
  induction h generalizing after with
  | nil => simp at hnews
  | arm v htold hfree ih =>
    rcases concat_eq_append_cons hnews with ⟨k, hold, -⟩ | ⟨hlast, -, -⟩
    · exact ih hold
    · cases hlast
  | @free news l older newer b htold hl ih =>
    rcases concat_eq_append_cons hnews with ⟨k, hold, -⟩ | ⟨hlast, rfl, -⟩
    · exact ih hold
    · cases hlast
      have hb : b ∈ l.pending := by rw [hl]; simp
      obtain ⟨earlier, between, heq, hbetween⟩ := htold.exists_armed hb
      exact ⟨b.verb, earlier, between, heq, hbetween⟩

end Told

/-! ## Runs -/

/-- What the news of some operations say of the latches that these leave. -/
structure LatchAccount (news : List LatchNews) (l : Latches) : Prop where
  nodup : l.controls.Nodup
  /-- Pending are the latches of which nothing has been said since they were latched. -/
  pending : ∀ a, a ∈ l.pending ↔
    ∃ before after, news = before ++ .armed a :: after ∧ ∀ n ∈ after, n.control ≠ a.control
  /-- They are in the order in which they were latched last. -/
  ordered : l.pending.Pairwise (ArmedBefore news)
  /-- What was latched is released by the next news of its control, or is still pending. -/
  released : ∀ a before after, news = before ++ .armed a :: after →
    (∃ between later, after = between ++ .freed a.control :: later ∧
        ∀ n ∈ between, n.control ≠ a.control) ∨
      (a ∈ l.pending ∧ ∀ n ∈ after, n.control ≠ a.control)
  /-- What is released had been latched, with no news of its control in between. -/
  latched : ∀ c before after, news = before ++ .freed c :: after →
    ∃ v earlier between, before = earlier ++ .armed ⟨c, v⟩ :: between ∧
      ∀ n ∈ between, n.control ≠ c

theorem Told.account {news : List LatchNews} {l : Latches} (h : Told news l) :
    LatchAccount news l where
  nodup := h.nodup
  pending a := by
    refine ⟨h.exists_armed, ?_⟩
    rintro ⟨before, after, hnews, hafter⟩
    rcases h.released hnews with ⟨between, later, rfl, -⟩ | ⟨ha, -⟩
    · exact absurd rfl (hafter (.freed a.control) (by simp))
    · exact ha
  ordered := h.ordered
  released _ _ _ := h.released
  latched _ _ _ := h.latched

/-- For any list `ops` of operations on a new `ControlGuard`: each release by `resolve_control`,
`resolve_delete`, `resolve_kind` or `release_all` goes with one `Armed` of `try_arm` before it, and
what is pending is what was armed last and not released, in that order; and the next operation
answers as `Answers` says: `Rejected` for what is pending, and the oldest that fits otherwise. -/
theorem Latches.account_performAll (ops : List LatchOp) :
    let (news, l) := (∅ : Latches).performAll ops
    LatchAccount news l ∧ l.Answers :=
  ⟨(Told.nil.performAll ops).account, answers _⟩

/-- A control may wait for a verb that is not its own. -/
example : ((∅ : Latches).performAll
    [.arm .addGroup .delete, .arm .addUser .create, .arm .addGroup .create,
      .releaseVerb .create]).2.pending = [⟨.addGroup, .delete⟩] := by
  decide

end RosterPanel
