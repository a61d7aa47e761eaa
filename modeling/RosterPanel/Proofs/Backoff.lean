import Mathlib.Algebra.Group.Nat.Defs
import Mathlib.Data.List.Basic
import RosterPanel.Proofs.LinkSession

/-!
# How a delay grows

The delay before a link connects again is doubled with each failed attempt, ten times at most, and
never longer than a cap. It is worked out in words of 32 bits and handed over as a signed one.
Nothing is lost on the way, as long as the cap fits into a signed word. Results:

* `LinkSettings.toNat_delay`: `get_backoff_ms` is `min (initialDelay * 2 ^ min attempt 10) maxDelay`
  in exact arithmetic.
* `LinkSettings.toInt_delay`: as the signed word that `schedule_reconnect` hands over it is the same
  number, if `maxDelay < 2 ^ 31`.
* `LinkSettings.toNat_delay_succ`, `LinkSettings.delay_eq_maxDelay`: each delay is twice the one
  before, until the cap is reached or the doubling ends.
* `LinkSettings.backsOff`: all that can be said of `get_backoff_ms`, for every number of attempts.
-/

namespace RosterPanel

namespace LinkSettings

variable {s : LinkSettings}

/-! ## Words -/

/-- Saturating multiplication is `min (a * b) (2 ^ 32 - 1)`. -/
theorem toNat_saturatingMul (a b : UInt32) :
    (saturatingMul a b).toNat = min (a.toNat * b.toNat) (2 ^ 32 - 1) := by
  have hlt : min (a.toNat * b.toNat) (UInt32.size - 1) < 2 ^ 32 := by
    have hle := Nat.min_le_right (a.toNat * b.toNat) (UInt32.size - 1)
    simp only [UInt32.size] at hle ⊢
    omega
  exact UInt32.toNat_ofNat_of_lt' hlt

/-- Doubling ends before it leaves a word. -/
theorem toNat_factor (attempt : UInt32) :
    (UInt32.ofNat (Nat.pow 2 (min attempt.toNat 10))).toNat = 2 ^ min attempt.toNat 10 := by
  have hpow : 2 ^ min attempt.toNat 10 ≤ 2 ^ 10 := Nat.pow_le_pow_right (by decide) (by omega)
  refine UInt32.toNat_ofNat_of_lt' ?_
  simp only [Nat.pow_eq, UInt32.size]
  omega

/-- Exactly, `get_backoff_ms` is `min (initialDelay * 2 ^ min attempt 10) maxDelay`: a product that
is too large for a word is above the cap anyway. -/
theorem toNat_delay (s : LinkSettings) (attempt : UInt32) :
    (s.delay attempt).toNat =
      min (s.initialDelay.toNat * 2 ^ min attempt.toNat 10) s.maxDelay.toNat := by
  have hmax : s.maxDelay.toNat < 2 ^ 32 := s.maxDelay.toNat_lt
  rw [delay, UInt32.toNat_min, toNat_saturatingMul, toNat_factor]
  omega

/-- If `maxDelay < 2 ^ 31`, the cast of `get_backoff_ms` to a signed word keeps the number. -/
theorem toInt_delay (hmax : s.maxDelay.toNat < 2 ^ 31) (attempt : UInt32) :
    (s.delay attempt).toInt32.toInt = (s.delay attempt).toNat := by
  have hsmall : (s.delay attempt).toNat < 2 ^ 31 := by
    rw [toNat_delay]
    exact Nat.lt_of_le_of_lt (Nat.min_le_right _ _) hmax
  exact BitVec.toInt_eq_toNat_of_lt (x := (s.delay attempt).toBitVec)
    (by rw [UInt32.toNat_toBitVec]; omega)

/-! ## From one attempt to the next -/

theorem delay_le_maxDelay (s : LinkSettings) (attempt : UInt32) :
    s.delay attempt ≤ s.maxDelay := by
  rw [UInt32.le_iff_toNat_le, toNat_delay]
  exact Nat.min_le_right _ _

theorem delay_le_delay (s : LinkSettings) {a b : UInt32} (h : a ≤ b) : s.delay a ≤ s.delay b := by
  have hexponent : min a.toNat 10 ≤ min b.toNat 10 := by
    rw [UInt32.le_iff_toNat_le] at h
    omega
  have hpow : 2 ^ min a.toNat 10 ≤ 2 ^ min b.toNat 10 := Nat.pow_le_pow_right (by decide) hexponent
  have hproduct := Nat.mul_le_mul_left s.initialDelay.toNat hpow
  rw [UInt32.le_iff_toNat_le, toNat_delay, toNat_delay]
  omega

/-- For `a < 10` the delay after `a + 1` attempts is `min maxDelay (2 * delay a)`. -/
theorem toNat_delay_succ (s : LinkSettings) {a : UInt32} (h : a < 10) :
    (s.delay (a + 1)).toNat = min s.maxDelay.toNat (2 * (s.delay a).toNat) := by
  have hsmall : a.toNat < 10 := UInt32.lt_iff_toNat_lt.1 h
  have hnext : (a + 1).toNat = a.toNat + 1 := by
    rw [UInt32.toNat_add, UInt32.toNat_one, Nat.mod_eq_of_lt (by omega)]
  have hhere : min a.toNat 10 = a.toNat := Nat.min_eq_left (by omega)
  have hthere : min (a.toNat + 1) 10 = a.toNat + 1 := Nat.min_eq_left (by omega)
  have hdouble : s.initialDelay.toNat * 2 ^ (a.toNat + 1) =
      2 * (s.initialDelay.toNat * 2 ^ a.toNat) := by
    rw [Nat.pow_succ, ← Nat.mul_assoc, Nat.mul_comm]
  rw [toNat_delay, toNat_delay, hnext, hhere, hthere, hdouble]
  omega

/-- From `a = 10` on the delay is `maxDelay`, if `maxDelay ≤ initialDelay * 1024`. -/
theorem delay_eq_maxDelay (h : s.maxDelay.toNat ≤ s.initialDelay.toNat * 1024) {a : UInt32}
    (ha : 10 ≤ a) : s.delay a = s.maxDelay := by
  have hlarge : 10 ≤ a.toNat := UInt32.le_iff_toNat_le.1 ha
  refine UInt32.toNat_inj.1 ?_
  rw [toNat_delay, Nat.min_eq_right hlarge]
  exact Nat.min_eq_right h

/-! ## Delays of timers -/

/-- The delay that a timer is set with when so many attempts have failed. -/
def wait (s : LinkSettings) (failed : Nat) : Int := (s.delay (UInt32.ofNat failed)).toInt32.toInt

/-- With the default settings the doubling soon reaches the cap, so that it is never cut off. The
failures are counted in a word of 32 bits. -/
theorem wait_default (url : String) (failed : Nat) :
    ({ url } : LinkSettings).wait failed =
      (min 30000 (1000 * 2 ^ (failed % 2 ^ 32)) : Nat) := by
  have hmax : (30000 : UInt32).toNat < 2 ^ 31 := by decide
  rw [wait, toInt_delay hmax, toNat_delay, UInt32.toNat_ofNat', Nat.min_comm]
  refine congrArg Int.ofNat ?_
  show min 30000 (1000 * 2 ^ min (failed % 2 ^ 32) 10) = _
  rcases Nat.le_total (failed % 2 ^ 32) 10 with hle | hge
  · rw [Nat.min_eq_left hle]
  · have hpow : 2 ^ 10 ≤ 2 ^ (failed % 2 ^ 32) := Nat.pow_le_pow_right (by decide) hge
    rw [Nat.min_eq_right hge]
    omega

/-- How the delays go with the number of failed attempts, in exact arithmetic. -/
structure BacksOff (s : LinkSettings) : Prop where
  /-- The power of two that the initial delay is multiplied by does not leave a word. -/
  factor : ∀ a : UInt32, (UInt32.ofNat (Nat.pow 2 (min a.toNat 10))).toNat = 2 ^ min a.toNat 10
  /-- Nor does the product, or it is the largest word in its place. -/
  product : ∀ b : UInt32, (saturatingMul s.initialDelay b).toNat =
    min (s.initialDelay.toNat * b.toNat) (2 ^ 32 - 1)
  exact : ∀ a, (s.delay a).toNat =
    min s.maxDelay.toNat (s.initialDelay.toNat * 2 ^ min a.toNat 10)
  capped : ∀ a, s.delay a ≤ s.maxDelay
  monotone : ∀ a b, a ≤ b → s.delay a ≤ s.delay b
  doubles : ∀ a < 10, (s.delay (a + 1)).toNat = min s.maxDelay.toNat (2 * (s.delay a).toNat)
  levels : s.maxDelay.toNat ≤ s.initialDelay.toNat * 1024 → ∀ a, 10 ≤ a → s.delay a = s.maxDelay
  /-- As a signed word it is the same number, and so not negative. -/
  signed : ∀ a, (s.delay a).toInt32.toInt = (s.delay a).toNat
  /-- That number is the delay of the timer that a link sets, where timers can be set. -/
  planned : ∀ (l : Link) (self : Nat) (b : Browser), l.settings = s → b.Ticking →
    (l.scheduleRetry self b).2.timers.map (·.delay) =
      b.timers.map (·.delay) ++ [((s.delay l.attempt).toNat : Int)]

/-- For settings with `maxDelay ≤ 2 ^ 31 - 1` and all counts `a` of attempts, `get_backoff_ms` is
`min maxDelay (initialDelay * 2 ^ min a 10)` in exact arithmetic; so it never falls, doubles up to
the cap for `a < 10`, stays at the cap from 10 on if `maxDelay ≤ initialDelay * 1024`, and is the
same number as the signed word that `schedule_reconnect` hands over. -/
theorem backsOff (hmax : s.maxDelay.toNat ≤ 2 ^ 31 - 1) : s.BacksOff where
  factor := toNat_factor
  product := toNat_saturatingMul s.initialDelay
  exact a := (s.toNat_delay a).trans (Nat.min_comm _ _)
  capped := s.delay_le_maxDelay
  monotone _ _ := s.delay_le_delay
  doubles _ := s.toNat_delay_succ
  levels h _ := delay_eq_maxDelay h
  signed := toInt_delay (by omega)
  planned l self b hsettings hset := by
    obtain ⟨t, n, -, hdelay, heq⟩ := l.scheduleRetry_of_ticking self hset
    rw [heq, List.map_append, List.map_singleton, hdelay, hsettings, toInt_delay (by omega)]

/-- The longest delays that there can be: the first product is cut off already. -/
theorem backsOff_longest :
    let s : LinkSettings :=
      { url := "ws://panel/ws", initialDelay := 4294967295, maxDelay := 2147483647 }
    s.maxDelay.toNat ≤ 2 ^ 31 - 1 ∧ s.maxDelay.toNat ≤ s.initialDelay.toNat * 1024 ∧
      s.delay 4294967295 = s.maxDelay ∧ (s.delay 4294967295).toInt32.toInt = 2147483647 ∧
        s.BacksOff := by
  intro s
  have hmax : s.maxDelay.toNat ≤ 2 ^ 31 - 1 := by decide
  have hlarge : s.maxDelay.toNat ≤ s.initialDelay.toNat * 1024 := by decide
  have hbacks := backsOff hmax
  have hlevel := hbacks.levels hlarge 4294967295 (by decide)
  refine ⟨hmax, hlarge, hlevel, ?_, hbacks⟩
  rw [hbacks.signed, hlevel]
  rfl

end LinkSettings

end RosterPanel
