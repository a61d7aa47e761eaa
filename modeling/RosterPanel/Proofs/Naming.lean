import Mathlib.Data.Set.Card
import Mathlib.Order.Interval.Finset.Nat
import RosterPanel.Placeholder
import RosterPanel.Proofs.Json.Numerals

/-!
# How placeholder names are drawn

The requests for new entities share one source of words. Each goes on with the word after the last
one that the request before it used, passes words over until one draws a number, and bears that
number in its names. Results:

* `Placeholder.ofWord?_eq_some_iff`: the words that draw a number stand in a row.
* `Placeholder.ncard_ofWord?`: there are equally many for each number.
* `Placeholder.numeral_decimal`: a number is written with one to four digits.
* `Placeholder.draws_draw`, `Placeholder.inTurn_requests`: one draw ends with the first word that
  is not passed over, and the draws of a run of requests take the words in turn.
* `Placeholder.named_requests`: all of it, for every source and every run of `create_group` and
  `create_user`.
-/

namespace RosterPanel

namespace Placeholder

/-! ## The words that draw a number -/

/-- The first of the words that draw a number: the numbers share the words out in order. -/
def firstWord (n : Nat) : Nat := ((n - 1) * UInt32.size + (count - 1)) / count

/-- The words of a number's share are those whose product lies in the right stretch, near enough to
its start. -/
theorem inShare_iff {n w : Nat} :
    firstWord n ≤ w ∧ w < firstWord n + share ↔
      (n - 1) * UInt32.size ≤ w * count ∧ w * count < (n - 1) * UInt32.size + count * share := by
  simp only [firstWord, count, share, UInt32.size]
  omega

/-- A word draws `n` if and only if `1 ≤ n ≤ 9998` and it is one of the `2 ^ 18` words from
`firstWord n` on, the least `w` with `(n - 1) * 2 ^ 32 ≤ w * 9998`. -/
theorem ofWord?_eq_some_iff {w : UInt32} {n : Nat} :
    ofWord? w = some n ↔
      (1 ≤ n ∧ n ≤ count) ∧ firstWord n ≤ w.toNat ∧ w.toNat < firstWord n + share := by
  have hproduct : w.toNat * count < UInt32.size * count :=
    Nat.mul_lt_mul_of_pos_right w.toNat_lt (by decide)
  rw [inShare_iff]
  unfold ofWord?
  dsimp only
  generalize w.toNat * count = product at hproduct ⊢
  split
  · next hlow =>
    rw [Option.some.injEq]
    simp only [count, share, UInt32.size] at hproduct hlow ⊢
    omega
  · next hlow =>
    simp only [count, share, UInt32.size, reduceCtorEq, false_iff] at hproduct hlow ⊢
    omega

theorem ofWord?_zero : ofWord? 0 = some 1 := ofWord?_eq_some_iff.2 (by decide)

/-- Each `n` from 1 to 9998 is drawn by `2 ^ 18` words. -/
theorem ncard_ofWord? {n : Nat} (h : 1 ≤ n ∧ n ≤ count) :
    {w : UInt32 | ofWord? w = some n}.ncard = share := by
  have himage : UInt32.toNat '' {w : UInt32 | ofWord? w = some n} =
      Finset.Ico (firstWord n) (firstWord n + share) := by
    ext k
    simp only [Set.mem_image, Set.mem_ofPred_eq, ofWord?_eq_some_iff, Finset.coe_Ico, Set.mem_Ico]
    constructor
    · rintro ⟨w, ⟨-, hw⟩, rfl⟩
      exact hw
    · intro hk
      -- The last share ends before the words do.
      have hlt : k < UInt32.size := by
        simp only [firstWord, count, share, UInt32.size] at h hk ⊢
        omega
      have hself : (UInt32.ofNat k).toNat = k := UInt32.toNat_ofNat_of_lt' hlt
      exact ⟨UInt32.ofNat k, ⟨h, by rw [hself]; exact hk⟩, hself⟩
  rw [← Set.ncard_image_of_injective _ fun _ _ => UInt32.toNat_inj.1, himage,
    Set.ncard_coe_finset, Nat.card_Ico, Nat.add_sub_cancel_left]

/-! ## Digits -/

/-- A text is the usual way to write a number, and no longer than four digits. -/
structure Numeral (digits : String) (n : Nat) : Prop where
  reads : Nat.ofDigitChars 10 digits.toList 0 = n
  isDigit : ∀ c ∈ digits.toList, c.isDigit = true
  length : 1 ≤ digits.length ∧ digits.length ≤ 4
  leading : digits.toList.head? ≠ some '0'

theorem numeral_decimal {n : Nat} (h : 1 ≤ n ∧ n ≤ count) : Numeral (decimal n) n where
  reads := by
    rw [decimal, String.toList_ofList]
    exact Nat.ofDigitChars_ten_toDigits
  isDigit c hc := by
    rw [decimal, String.toList_ofList] at hc
    exact Nat.isDigit_of_mem_toDigits (by decide) (by decide) hc
  length := by
    have hfour : n < 10 ^ 4 := Nat.lt_of_le_of_lt h.2 (by decide)
    rw [decimal, String.length_ofList]
    exact ⟨Nat.length_toDigits_pos, (Nat.length_toDigits_le_iff (by decide) (by decide)).2 hfour⟩
  leading := by
    rw [decimal, String.toList_ofList]
    exact Json.head?_toDigits h.1

/-! ## Draws -/

/-- The word at a position of a source that hands out the listed words, and zeros after them. -/
def wordAt (words : List UInt32) (i : Nat) : UInt32 := words.getD i 0

/-- A draw that uses the words from one position up to another: it passes over all of them but the
last, which draws the number. -/
structure Draws (words : List UInt32) (start stop n : Nat) : Prop where
  lt : start < stop
  passed : ∀ i, start ≤ i → i + 1 < stop → ofWord? (wordAt words i) = none
  drawn : ofWord? (wordAt words (stop - 1)) = some n

theorem Draws.of_tail {w : UInt32} {words : List UInt32} {stop n : Nat} (hw : ofWord? w = none)
    (h : Draws words 0 stop n) : Draws (w :: words) 0 (stop + 1) n where
  lt := Nat.succ_pos stop
  passed i _ hi := by
    cases i with
    | zero => exact hw
    | succ i => exact h.passed i (Nat.zero_le i) (by omega)
  drawn := by
    obtain ⟨last, rfl⟩ : ∃ last, stop = last + 1 := ⟨stop - 1, by have := h.lt; omega⟩
    exact h.drawn

/-- A draw from listed words ends: at the latest with the first zero after them. -/
theorem draws_drawFrom (words : List UInt32) :
    ∃ stop n, Draws words 0 stop n ∧ drawFrom words = (n, words.drop stop, stop) := by
  induction words with
  | nil =>
    refine ⟨1, 1, ⟨Nat.one_pos, fun i _ hi => absurd hi (by omega), ofWord?_zero⟩, ?_⟩
    rw [drawFrom, ofWord?_zero]
    rfl
  | cons w rest ih =>
    cases hw : ofWord? w with
    | some n =>
      refine ⟨1, n, ⟨Nat.one_pos, fun i _ hi => absurd hi (by omega), hw⟩, ?_⟩
      rw [drawFrom, hw]
      rfl
    | none =>
      obtain ⟨stop, n, hdraws, heq⟩ := ih
      refine ⟨stop + 1, n, hdraws.of_tail hw, ?_⟩
      rw [drawFrom, hw, heq]
      rfl

/-- What is left of a source of listed words from a position on. -/
def wordsFrom (words : List UInt32) (start : Nat) : Words := ⟨words.drop start, start⟩

theorem wordAt_drop (words : List UInt32) (start i : Nat) :
    wordAt (words.drop start) i = wordAt words (start + i) := by
  simp only [wordAt, List.getD_eq_getElem?_getD, List.getElem?_drop]

/-- A draw goes on where a source stands. -/
theorem draws_draw (words : List UInt32) (start : Nat) :
    ∃ stop n, Draws words start stop n ∧
      draw (wordsFrom words start) = (n, wordsFrom words stop) := by
  obtain ⟨used, n, hdraws, heq⟩ := draws_drawFrom (words.drop start)
  refine ⟨start + used, n, ⟨?_, ?_, ?_⟩, ?_⟩
  · have hpos := hdraws.lt
    omega
  · intro i hi hlt
    have hpassed := hdraws.passed (i - start) (Nat.zero_le _) (by omega)
    rwa [wordAt_drop, Nat.add_sub_cancel' hi] at hpassed
  · have hdrawn := hdraws.drawn
    have hpos := hdraws.lt
    rwa [wordAt_drop, ← Nat.add_sub_assoc hpos] at hdrawn
  · rw [draw, wordsFrom, heq, List.drop_drop]
    rfl

theorem Draws.bounds {words : List UInt32} {start stop n : Nat} (h : Draws words start stop n) :
    1 ≤ n ∧ n ≤ count :=
  (ofWord?_eq_some_iff.1 h.drawn).1

/-! ## Runs of requests -/

/-- The requests for entities of some kinds, made one after the other from one source, each with
the source as it leaves it. -/
def requests (source : Words) : List EntityKind → List (Request × Words)
  | [] => []
  | k :: rest => create k source :: requests (create k source).2 rest

/-- The request for a new entity with a numeral in its names. -/
def named (digits : String) : EntityKind → Request
  | .group => {
      verb := .create
      body := some (.description { kind := some .group, name := some ("New group_" ++ digits) }) }
  | .user => {
      verb := .create
      callback := some "test"
      body := some (.description {
        kind := some .user, name := some digits, realName := some ("New user_" ++ digits) }) }

/-- Requests that take the words of a source in turn, from a position on: each draws a number from
the words that follow those of the request before it, and bears its numeral. -/
inductive InTurn (words : List UInt32) : Nat → List EntityKind → List (Request × Words) → Prop
  | nil {start : Nat} : InTurn words start [] []
  | cons {start stop n : Nat} {digits : String} {k : EntityKind} {kinds : List EntityKind}
      {made : List (Request × Words)} :
      Draws words start stop n → 1 ≤ n → n ≤ 9998 → Numeral digits n →
        InTurn words stop kinds made →
          InTurn words start (k :: kinds) ((named digits k, wordsFrom words stop) :: made)

theorem create_eq_named (k : EntityKind) {source rest : Words} {n : Nat}
    (h : draw source = (n, rest)) : create k source = (named (decimal n) k, rest) := by
  rw [create, h]
  cases k <;> rfl

theorem inTurn_requests (words : List UInt32) (kinds : List EntityKind) (start : Nat) :
    InTurn words start kinds (requests (wordsFrom words start) kinds) := by
  induction kinds generalizing start with
  | nil => exact .nil
  | cons k rest ih =>
    obtain ⟨stop, n, hdraws, heq⟩ := draws_draw words start
    rw [requests, create_eq_named k heq]
    exact .cons hdraws hdraws.bounds.1 hdraws.bounds.2 (numeral_decimal hdraws.bounds) (ih stop)

/-- For any words of the source and any sequence `kinds` of calls of `create_group` and
`create_user`: each call starts where the one before stopped, passes over the words that `gen_range`
rejects, and names the entity by the decimal numeral of an `n` with `1 ≤ n ≤ 9998`. Each such `n` is
drawn by `2 ^ 18` of the `2 ^ 32` words. -/
theorem named_requests (words : List UInt32) (kinds : List EntityKind) :
    InTurn words 0 kinds (requests { ahead := words } kinds) ∧
      ∀ n, 1 ≤ n → n ≤ 9998 → {w : UInt32 | ofWord? w = some n}.ncard = 2 ^ 18 :=
  ⟨inTurn_requests words kinds 0, fun _ hpos hle => ncard_ofWord? ⟨hpos, hle⟩⟩

/-- A group and a user, from a source whose first word is passed over and that has one word more. -/
theorem named_requests_passedOver :
    let words : List UInt32 := [300000, 2147483648]
    let made := requests { ahead := words } [.group, .user]
    InTurn words 0 [.group, .user] made ∧ made.map (·.2.used) = [2, 3] ∧
      made.map (fun r => r.1.description?.bind (·.name)) = [some "New group_5000", some "1"] ∧
        {w : UInt32 | ofWord? w = some 5000}.ncard = 2 ^ 18 := by
  intro words made
  have hrun := named_requests words [.group, .user]
  exact ⟨hrun.1, by decide, by decide, hrun.2 5000 (by decide) (by decide)⟩

end Placeholder

end RosterPanel
