import Mathlib.Algebra.Order.Field.Power
import Mathlib.Data.Rat.Floor
import Mathlib.Tactic.FieldSimp
import Mathlib.Tactic.Linarith
import Mathlib.Tactic.Positivity
import Mathlib.Tactic.SplitIfs
import RosterPanel.Json.Binary64

/-!
# The digits of a double

Results:

* `Binary64.Covers`: the numbers that round to the magnitude `mantissa · 2^exponent` of a double.
* `Binary64.covers_shortest`: the decimal `c · 10^place` that `shortest` gives is one of them, for
  every double whose mantissa is below `2^53` and not zero: seventeen digits are always enough.
* `Binary64.shortest_ne_zero`: it is not zero either.
-/

namespace RosterPanel.Json.Binary64

/-- The magnitude of a double. -/
def size (x : Binary64) : ℚ := x.mantissa * 2 ^ x.exponent

/-- The numbers that round to the magnitude of a double, those half way between two doubles to the
one with the even mantissa. -/
structure Covers (x : Binary64) (q : ℚ) : Prop where
  least : (4 * x.mantissa - x.reach : Nat) * 2 ^ (x.exponent - 2) ≤ q
  greatest : q ≤ (4 * x.mantissa + 2 : Nat) * 2 ^ (x.exponent - 2)
  odd : x.mantissa % 2 ≠ 0 → (4 * x.mantissa - x.reach : Nat) * 2 ^ (x.exponent - 2) < q ∧
    q < (4 * x.mantissa + 2 : Nat) * 2 ^ (x.exponent - 2)

variable {x : Binary64}

theorem size_eq (x : Binary64) : x.size = (4 * x.mantissa : Nat) * 2 ^ (x.exponent - 2) := by
  rw [size, zpow_sub₀ (by norm_num)]
  push_cast
  ring

/-- Such a number is at most half a last place away. -/
theorem Covers.abs_sub_le {q : ℚ} (h : x.Covers q) (hsome : 0 < x.mantissa) :
    |q - x.size| ≤ 2 ^ x.exponent / 2 := by
  have hreach : x.reach ≤ 2 := by
    rw [reach]
    split_ifs <;> omega
  have hunit : (2 : ℚ) ^ x.exponent = 4 * 2 ^ (x.exponent - 2) := by
    rw [zpow_sub₀ (by norm_num)]
    ring
  have hpos : (0 : ℚ) < 2 ^ (x.exponent - 2) := by positivity
  have hleast := h.least
  have hgreatest := h.greatest
  have hlow : (4 * x.mantissa - 2 : ℚ) * 2 ^ (x.exponent - 2) ≤
      (4 * x.mantissa - x.reach : Nat) * 2 ^ (x.exponent - 2) := by
    gcongr
    rw [Nat.cast_sub (by omega)]
    push_cast
    have hcast : (x.reach : ℚ) ≤ 2 := by exact_mod_cast hreach
    linarith
  push_cast at hgreatest
  rw [abs_le, size_eq, hunit]
  push_cast
  constructor
  · linarith
  · linarith

/-! ## Quotients -/

theorem shift_spec (numer : Nat) {denom : Nat} (hdenom : 0 < denom) (k : Int) :
    0 < (shift numer denom k).2 ∧
      ((shift numer denom k).1 : ℚ) / (shift numer denom k).2 = numer / denom * 2 ^ k := by
  unfold shift
  simp only [Nat.pow_eq]
  split
  · next hk =>
    obtain ⟨n, rfl⟩ := Int.eq_ofNat_of_zero_le hk
    refine ⟨hdenom, ?_⟩
    push_cast
    rw [Int.toNat_natCast, zpow_natCast]
    ring
  · next hk =>
    obtain ⟨n, hn⟩ : ∃ n : Nat, k = -(n : Int) := ⟨(-k).toNat, by omega⟩
    subst hn
    refine ⟨Nat.mul_pos hdenom (Nat.pow_pos (by decide)), ?_⟩
    push_cast
    rw [Int.neg_neg, Int.toNat_natCast, zpow_neg, zpow_natCast]
    field_simp

/-- The quotient is `2^(exponent - 2) / 10^place`. -/
theorem quarter_spec (x : Binary64) (place : Int) :
    0 < (x.quarter place).2 ∧
      ((x.quarter place).1 : ℚ) * 10 ^ place = (x.quarter place).2 * 2 ^ (x.exponent - 2) := by
  obtain ⟨hdenom, hunit⟩ := shift_spec 1 Nat.one_pos (x.exponent - 2)
  unfold quarter
  rcases hshift : shift 1 1 (x.exponent - 2) with ⟨unit, denom⟩
  rw [hshift] at hdenom hunit
  have hunit : (unit : ℚ) = denom * 2 ^ (x.exponent - 2) := by
    have hne : (denom : ℚ) ≠ 0 := by
      have hpos : 0 < denom := hdenom
      positivity
    rw [div_eq_iff hne] at hunit
    rw [hunit]
    push_cast
    ring
  dsimp only
  simp only [Nat.pow_eq]
  split
  · next hplace =>
    obtain ⟨n, rfl⟩ := Int.eq_ofNat_of_zero_le hplace
    refine ⟨Nat.mul_pos hdenom (Nat.pow_pos (by decide)), ?_⟩
    push_cast
    rw [hunit, Int.toNat_natCast, zpow_natCast]
    ring
  · next hplace =>
    obtain ⟨n, hn⟩ : ∃ n : Nat, place = -(n : Int) := ⟨(-place).toNat, by omega⟩
    subst hn
    refine ⟨hdenom, ?_⟩
    push_cast
    rw [hunit, Int.neg_neg, Int.toNat_natCast, zpow_neg, zpow_natCast]
    field_simp

/-- Comparing with a multiple of a quarter of the last place. -/
theorem mul_le_iff (x : Binary64) (place : Int) (k c : Nat) :
    (k * (x.quarter place).1 ≤ c * (x.quarter place).2 ↔
        (k : ℚ) * 2 ^ (x.exponent - 2) ≤ c * 10 ^ place) ∧
      (c * (x.quarter place).2 ≤ k * (x.quarter place).1 ↔
        (c : ℚ) * 10 ^ place ≤ k * 2 ^ (x.exponent - 2)) := by
  obtain ⟨hdenom, hunit⟩ := x.quarter_spec place
  generalize (x.quarter place).1 = unit at hunit ⊢
  generalize (x.quarter place).2 = denom at hdenom hunit ⊢
  have hd : (0 : ℚ) < denom := by exact_mod_cast hdenom
  have hten : (0 : ℚ) < 10 ^ place := by positivity
  have hk : (k : ℚ) * 2 ^ (x.exponent - 2) * denom = (k * unit : Nat) * 10 ^ place := by
    push_cast
    rw [mul_assoc, mul_comm _ (denom : ℚ), ← hunit, mul_assoc]
  have hc : (c : ℚ) * 10 ^ place * denom = (c * denom : Nat) * 10 ^ place := by
    push_cast
    ring
  constructor
  · rw [← mul_le_mul_iff_of_pos_right hd, hk, hc, mul_le_mul_iff_of_pos_right hten, Nat.cast_le]
  · rw [← mul_le_mul_iff_of_pos_right hd, hk, hc, mul_le_mul_iff_of_pos_right hten, Nat.cast_le]

theorem inReach_iff {place : Int} {c : Nat} :
    x.inReach place c = true ↔ x.Covers (c * 10 ^ place) := by
  obtain ⟨hlow, hlow'⟩ := x.mul_le_iff place (4 * x.mantissa - x.reach) c
  obtain ⟨hhigh', hhigh⟩ := x.mul_le_iff place (4 * x.mantissa + 2) c
  unfold inReach
  dsimp only
  split
  · next heven =>
    rw [Bool.and_eq_true, decide_eq_true_eq, decide_eq_true_eq, hlow, hhigh]
    exact ⟨fun h => ⟨h.1, h.2, fun hodd => absurd heven hodd⟩, fun h => ⟨h.least, h.greatest⟩⟩
  · next hodd =>
    rw [Bool.and_eq_true, decide_eq_true_eq, decide_eq_true_eq, ← Nat.not_le, ← Nat.not_le, hlow',
      hhigh', not_le, not_le]
    exact ⟨fun h => ⟨h.1.le, h.2.le, fun _ => h⟩, fun h => h.odd hodd⟩

/-! ## Places -/

theorem lt_pow_digitCount (n : Nat) : n < 10 ^ digitCount n :=
  (Nat.length_toDigits_le_iff (by decide) Nat.length_toDigits_pos).1 (Nat.le_refl _)

theorem pow_digitCount_le {n : Nat} (h : 0 < n) : 10 ^ (digitCount n - 1) ≤ n := by
  rcases Nat.eq_zero_or_pos (digitCount n - 1) with hzero | hpos
  · rw [hzero]
    exact h
  · refine Nat.not_lt.1 fun hlt => ?_
    have hlength := (Nat.length_toDigits_le_iff (by decide) hpos).2 hlt
    rw [← digitCount] at hlength
    omega

/-- The place of the first digit. -/
theorem pow_floorLog10_le {numer denom : Nat} (hnumer : 0 < numer) (hdenom : 0 < denom) :
    (10 : ℚ) ^ floorLog10 numer denom ≤ numer / denom := by
  have hd : (0 : ℚ) < denom := by exact_mod_cast hdenom
  rw [le_div_iff₀ hd]
  unfold floorLog10
  split
  · next hle =>
    have hquotient : 0 < numer / denom := Nat.div_pos hle hdenom
    have hcount : 0 < digitCount (numer / denom) := Nat.length_toDigits_pos
    have hpower : ((digitCount (numer / denom) : Int) - 1) =
        ((digitCount (numer / denom) - 1 : Nat) : Int) := by omega
    rw [hpower, zpow_natCast]
    exact_mod_cast (Nat.le_div_iff_mul_le hdenom).1 (pow_digitCount_le hquotient)
  · next hlt =>
    have hcount := lt_pow_digitCount ((denom - 1) / numer)
    rw [Nat.div_lt_iff_lt_mul hnumer] at hcount
    rw [zpow_neg, zpow_natCast, inv_mul_le_iff₀ (by positivity)]
    have hle : denom ≤ 10 ^ digitCount ((denom - 1) / numer) * numer := by omega
    exact_mod_cast hle

/-! ## Decimals in reach -/

/-- The multiples of `10^place` around the magnitude. -/
theorem floor_spec (x : Binary64) (place : Int) :
    let below := 4 * x.mantissa * (x.quarter place).1 / (x.quarter place).2
    (below : ℚ) * 10 ^ place ≤ x.size ∧ x.size < (below + 1 : Nat) * 10 ^ place := by
  intro below
  have hdenom := (x.quarter_spec place).1
  have hbelow := (x.mul_le_iff place (4 * x.mantissa) below).2
  have habove := (x.mul_le_iff place (4 * x.mantissa) (below + 1)).2
  rw [size_eq, ← hbelow, ← not_le, ← habove, Nat.not_le]
  refine ⟨Nat.div_mul_le_self _ _, ?_⟩
  exact Nat.mul_comm _ (below + 1) ▸ Nat.lt_mul_div_succ _ hdenom

theorem covers_of_nearestOnGrid? {place : Int} {c : Nat} (h : x.nearestOnGrid? place = some c) :
    x.Covers (c * 10 ^ place) := by
  rw [← inReach_iff]
  unfold nearestOnGrid? at h
  dsimp only at h
  split at h
  · next hbelow habove =>
    cases h
    split
    · exact hbelow
    · exact habove
  · next hbelow _ =>
    cases h
    exact hbelow
  · next _ habove =>
    cases h
    exact habove
  · cases h

theorem covers_of_lt {q : ℚ}
    (hleast : (4 * x.mantissa - x.reach : Nat) * 2 ^ (x.exponent - 2) < q)
    (hgreatest : q < (4 * x.mantissa + 2 : Nat) * 2 ^ (x.exponent - 2)) : x.Covers q :=
  ⟨hleast.le, hgreatest.le, fun _ => ⟨hleast, hgreatest⟩⟩

/-- The numbers that round to a double reach over more than its `10^16`th part. -/
theorem reach_spec (hnormal : x.mantissa < 2 * leastNormal) :
    4 * x.mantissa < 10 ^ 16 * (x.reach + 2) := by
  have hvalue : leastNormal = 2 ^ 52 := rfl
  rw [reach]
  split_ifs with hleast
  · omega
  · omega

/-- A grid with seventeen digits is finer than the numbers that round to a double. -/
theorem isSome_nearestOnGrid? (hsome : 0 < x.mantissa) (hnormal : x.mantissa < 2 * leastNormal)
    {place : Int} (hplace : 10 ^ place * 10 ^ 16 ≤ x.size) : (x.nearestOnGrid? place).isSome := by
  have hfloor := x.floor_spec place
  have hreach : x.reach ≤ 4 * x.mantissa := by
    unfold reach
    split <;> omega
  have hwide : ((4 * x.mantissa : Nat) : ℚ) < (10 ^ 16 * (x.reach + 2) : Nat) := by
    exact_mod_cast reach_spec hnormal
  rw [size_eq] at hfloor hplace
  unfold nearestOnGrid?
  dsimp only at hfloor ⊢
  generalize 4 * x.mantissa * (x.quarter place).1 / (x.quarter place).2 = below at hfloor ⊢
  obtain ⟨hbelow, habove⟩ := hfloor
  have hunit : (0 : ℚ) < 2 ^ (x.exponent - 2) := by positivity
  have hcovers : x.Covers (below * 10 ^ place) ∨ x.Covers ((below + 1 : Nat) * 10 ^ place) := by
    by_contra hneither
    rw [not_or] at hneither
    -- Otherwise the whole reach fits between two multiples.
    have hlow : (below : ℚ) * 10 ^ place ≤
        (4 * x.mantissa - x.reach : Nat) * 2 ^ (x.exponent - 2) := by
      refine not_lt.1 fun hlt => hneither.1 (covers_of_lt hlt (lt_of_le_of_lt hbelow ?_))
      gcongr
      omega
    have hhigh : ((4 * x.mantissa + 2 : Nat) : ℚ) * 2 ^ (x.exponent - 2) ≤
        (below + 1 : Nat) * 10 ^ place := by
      refine not_lt.1 fun hlt => hneither.2 (covers_of_lt (lt_of_le_of_lt ?_ habove) hlt)
      gcongr
      omega
    rw [Nat.cast_sub hreach] at hlow
    push_cast at hlow hhigh hplace hwide
    have hgap : (x.reach + 2 : ℚ) * 2 ^ (x.exponent - 2) ≤ 10 ^ place := by linarith
    have hlt := mul_lt_mul_of_pos_right hwide hunit
    linarith
  rcases hcovers with hcovers | hcovers
  · rw [inReach_iff.2 hcovers]
    split <;> simp_all
  · rw [inReach_iff.2 hcovers]
    split <;> simp_all

/-! ## The shortest decimal -/

theorem stripZeros_spec (n : Nat) : (stripZeros n).1 * 10 ^ (stripZeros n).2 = n := by
  induction n using Nat.strongRecOn with
  | ind n ih =>
    rw [stripZeros]
    split
    · next h =>
      have hrest := ih (n / 10) (by omega)
      rw [Nat.pow_succ, ← Nat.mul_assoc, hrest]
      omega
    · exact Nat.mul_one n

/-- The shortest decimal stands on a grid, less its zeros. Without any it would be wrong. -/
theorem shortest_cases (x : Binary64) :
    (∃ c p, x.nearestOnGrid? p = some c ∧ x.shortest = ((stripZeros c).1, p + (stripZeros c).2)) ∨
      (∀ i < 17, x.nearestOnGrid? (floorLog10 x.ratio.1 x.ratio.2 - (i : Nat)) = none) ∧
        x.shortest = (x.mantissa, x.exponent) := by
  unfold shortest
  dsimp only
  split
  · next c p hfound =>
    obtain ⟨place, -, hplace⟩ := List.exists_of_findSome?_eq_some hfound
    obtain ⟨c', hnearest, heq⟩ := Option.map_eq_some_iff.1 hplace
    cases heq
    exact Or.inl ⟨c, p, hnearest, rfl⟩
  · next hnone =>
    refine Or.inr ⟨fun i hi => ?_, rfl⟩
    have hplace := List.findSome?_eq_none_iff.1 hnone _
      (List.mem_map_of_mem (List.mem_range.2 hi))
    exact Option.map_eq_none_iff.1 hplace

theorem shortest_ne_zero (h : 0 < x.mantissa) : x.shortest.1 ≠ 0 := by
  rcases x.shortest_cases with ⟨c, p, hnearest, heq⟩ | ⟨-, heq⟩
  · rw [heq]
    intro hzero
    have hc := stripZeros_spec c
    rw [hzero, Nat.zero_mul] at hc
    have hleast := (covers_of_nearestOnGrid? hnearest).least
    have hreach : 0 < 4 * x.mantissa - x.reach := by
      rw [reach]
      split_ifs <;> omega
    have hpos : (0 : ℚ) < (4 * x.mantissa - x.reach : Nat) * 2 ^ (x.exponent - 2) := by positivity
    rw [← hc, Nat.cast_zero, zero_mul] at hleast
    exact absurd hpos (not_lt.2 hleast)
  · rw [heq]
    exact Nat.pos_iff_ne_zero.1 h

/-- The decimal `c · 10^place` with the shortest digits rounds to the magnitude of a double. -/
theorem covers_shortest (hsome : 0 < x.mantissa) (hnormal : x.mantissa < 2 * leastNormal) :
    x.Covers (x.shortest.1 * 10 ^ x.shortest.2) := by
  rcases x.shortest_cases with ⟨c, p, hnearest, heq⟩ | ⟨hnone, -⟩
  · have hc : (c : ℚ) * 10 ^ p = (stripZeros c).1 * 10 ^ (p + (stripZeros c).2) := by
      have hstrip : ((stripZeros c).1 : ℚ) * 10 ^ (stripZeros c).2 = c := by
        exact_mod_cast stripZeros_spec c
      rw [zpow_add₀ (by norm_num), zpow_natCast, ← hstrip]
      ring
    rw [heq, ← hc]
    exact covers_of_nearestOnGrid? hnearest
  · -- Seventeen digits cannot all have failed.
    obtain ⟨hdenom, hratio⟩ := shift_spec x.mantissa Nat.one_pos x.exponent
    have hsize : (x.ratio.1 : ℚ) / x.ratio.2 = x.size := by
      rw [ratio, hratio, size, Nat.cast_one, div_one]
    have hnumer : 0 < x.ratio.1 := by
      have hpos : 0 < x.size := by
        rw [size]
        positivity
      refine Nat.pos_of_ne_zero fun hzero => ?_
      rw [← hsize, hzero, Nat.cast_zero, zero_div] at hpos
      exact lt_irrefl 0 hpos
    have htop := pow_floorLog10_le hnumer hdenom
    have hplace : (10 : ℚ) ^ (floorLog10 x.ratio.1 x.ratio.2 - (16 : Nat)) * 10 ^ 16 ≤ x.size := by
      rw [zpow_sub₀ (by norm_num), zpow_natCast, div_mul_cancel₀ _ (by positivity), ← hsize]
      exact htop
    have hfound := isSome_nearestOnGrid? hsome hnormal hplace
    rw [hnone 16 (by decide)] at hfound
    cases hfound

end RosterPanel.Json.Binary64
