import Mathlib.Data.List.Basic

/-!
# The last word

Where each piece of news replaces older ones about the same thing, what counts in the end is what
was said last. Results:

* `lastWord_cons`, `lastWord_concat`: news from before counts only where nothing is said later.
* `lastWord_eq_some_iff`: the place of what is said last.
* `Interleaved`: lists that say the same about each thing, in whatever order they pass from one
  thing to another; `Interleaved.swap` is the smallest case.
* `Interleaved.lastWord_eq`: what is said last about one thing does not depend on that order.
-/

namespace RosterPanel

variable {α β κ : Type}

/-- What a list says last to a reader, who may skip parts of it. -/
def lastWord (read : α → Option β) (l : List α) : Option β := (l.filterMap read).getLast?

theorem lastWord_nil (read : α → Option β) : lastWord read [] = none := rfl

theorem lastWord_cons (read : α → Option β) (a : α) (l : List α) :
    lastWord read (a :: l) = (lastWord read l).or (read a) := by
  unfold lastWord
  cases ha : read a with
  | none => rw [List.filterMap_cons_none ha, Option.or_none]
  | some b =>
    rw [List.filterMap_cons_some ha, List.getLast?_cons]
    cases (l.filterMap read).getLast? <;> rfl

/-- What is said at the end replaces all that was said before about the same thing. -/
theorem lastWord_concat (read : α → Option β) (l : List α) (a : α) :
    lastWord read (l ++ [a]) = (read a).or (lastWord read l) := by
  unfold lastWord
  cases ha : read a with
  | none => simp [ha]
  | some b => simp [ha]

/-- What is said last is said at some place, and nothing is said behind it. -/
theorem lastWord_eq_some_iff {read : α → Option β} {l : List α} {b : β} :
    lastWord read l = some b ↔ ∃ before a after,
      l = before ++ a :: after ∧ read a = some b ∧ ∀ x ∈ after, read x = none := by
  induction l with
  | nil => simp [lastWord_nil]
  | cons a rest ih =>
    rw [lastWord_cons, Option.or_eq_some_iff, ih]
    constructor
    · rintro (⟨before, x, after, rfl, hx, hafter⟩ | ⟨hrest, ha⟩)
      · exact ⟨a :: before, x, after, rfl, hx, hafter⟩
      · refine ⟨[], a, rest, rfl, ha, ?_⟩
        rwa [lastWord, List.getLast?_eq_none_iff, List.filterMap_eq_nil_iff] at hrest
    · rintro ⟨before, x, after, heq, hx, hafter⟩
      cases before with
      | nil =>
        obtain ⟨rfl, rfl⟩ := List.cons.inj heq
        refine Or.inr ⟨?_, hx⟩
        rwa [lastWord, List.getLast?_eq_none_iff, List.filterMap_eq_nil_iff]
      | cons y before =>
        obtain ⟨rfl, rfl⟩ := List.cons.inj heq
        exact Or.inl ⟨before, x, after, rfl, hx, hafter⟩

/-- Two lists have the same elements under each key, and in the same order. Only the order among
elements with different keys may differ. -/
def Interleaved [DecidableEq κ] (key : α → κ) (l m : List α) : Prop :=
  ∀ k, l.filter (key · = k) = m.filter (key · = k)

namespace Interleaved

variable [DecidableEq κ] {key : α → κ}

/-- Neighbours with different keys may change places. -/
theorem swap {a b : α} (h : key a ≠ key b) (before after : List α) :
    Interleaved key (before ++ a :: b :: after) (before ++ b :: a :: after) := by
  intro k
  rw [List.filter_append, List.filter_append]
  congr 1
  by_cases ha : key a = k
  · have hb : key b ≠ k := fun hb => h (ha.trans hb.symm)
    simp [ha, hb]
  · simp [List.filter_cons, ha]

/-- A reader who reads about one thing only sees no difference. -/
theorem lastWord_eq {l m : List α} (h : Interleaved key l m) {k : κ} {read : α → Option β}
    (hread : ∀ a, key a ≠ k → read a = none) : lastWord read l = lastWord read m := by
  have hskip : ∀ l : List α, l.filterMap read = (l.filter (key · = k)).filterMap read := by
    intro l
    rw [List.filterMap_filter]
    refine List.filterMap_congr fun a _ => ?_
    split
    · rfl
    · next ha => exact hread a (by simpa using ha)
  rw [lastWord, lastWord, hskip l, hskip m, h k]

end Interleaved

end RosterPanel
