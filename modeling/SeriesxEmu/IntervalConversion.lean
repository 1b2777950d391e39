import Mathlib.Algebra.Order.Floor.Div
import SeriesxEmu.Calls

/-!
# Intervals and ticks

An interval counts units of 100 ns. A negative one is relative, a positive one is a time on the
system clock, and a tick is one millisecond. The code keeps the tick count in 64 bits but rounds
up through a 32-bit result, so the conversion is exact as long as the rounded count fits 32 bits.
-/

namespace SeriesxEmu

/-- The units an interval asks its caller to wait at the given clock. -/
def requested (interval : Int) (now : Nat) : Nat :=
  if interval < 0 then (-interval).toNat else (interval - now).toNat

/-- The deadline has been reached already. -/
def Due (interval : Int) (now : Nat) : Prop := interval = 0 ∨ (0 < interval ∧ interval ≤ now)

/-- The conversion of an interval is exact, and so are the delay and the timeout made from it:
neither is shorter than the request, and no shorter request takes longer. -/
structure Converts (interval : Int) (now : Nat) : Prop where
  immediate : (intervalToTicks interval now).1 = true ↔ Due interval now
  relative : interval < 0 → (intervalToTicks interval now).2 = (-interval).toNat ⌈/⌉ 10000
  absolute : 0 < interval → (now : Int) < interval →
    (intervalToTicks interval now).2 = (interval - now).toNat ⌈/⌉ 10000
  positive : ¬ Due interval now → 1 ≤ (intervalToTicks interval now).2
  enough : requested interval now ≤ 10000 * (intervalToTicks interval now).2
  monotone : ∀ shorter : Int, -2 ^ 63 ≤ shorter → shorter < 2 ^ 63 →
    requested shorter now ≤ requested interval now → (intervalToTicks shorter now).2 ≤ (intervalToTicks interval now).2
  delay : ∀ (krnl : XboxKrnl) (va word : Nat), krnl.filetime = now → krnl.ram.read64 va = some word →
    va ≠ 0 → int64 word = interval → krnl.inFiber = true → ¬ Due interval now →
      ∃ ticks, requested interval now ≤ 10000 * ticks ∧
        krnl.keDelayExecutionThread va = (krnl.blockCurrent .delay ticks (.returning success), none)
  timeout : ∀ (krnl : XboxKrnl) (va word : Nat), krnl.filetime = now → krnl.ram.read64 va = some word →
    va ≠ 0 → int64 word = interval → ∃ immediate ticks, krnl.readTimeout va = some (immediate, ticks) ∧
      (immediate = true ↔ Due interval now) ∧ requested interval now ≤ 10000 * ticks

/-- An interval is due when nothing of it is left. -/
theorem due_iff {interval : Int} {now : Nat} : Due interval now ↔ requested interval now = 0 := by
  unfold Due requested
  split <;> omega

/-- `ceil_ms` rounds up and then keeps the low 32 bits. -/
theorem ceilMs_eq {units : Nat} (small : units ≤ 2 ^ 63) : ceilMs units = units ⌈/⌉ 10000 % 2 ^ 32 := by
  rw [ceilMs, Nat.ceilDiv_eq_add_pred_div]
  omega

/-- What the conversion computes: the requested time rounded up, in 32 bits. -/
theorem intervalToTicks_eq {interval : Int} {now : Nat} (lower : -2 ^ 63 ≤ interval)
    (upper : interval < 2 ^ 63) :
    intervalToTicks interval now =
      (requested interval now ⌈/⌉ 10000 % 2 ^ 32 == 0, requested interval now ⌈/⌉ 10000 % 2 ^ 32) := by
  unfold intervalToTicks requested
  rcases lt_trichotomy interval 0 with negative | rfl | positive
  · have small : (-interval).toNat ≤ 2 ^ 63 := by omega
    rw [if_neg negative.ne, if_neg negative.not_gt, if_pos negative, ceilMs_eq small]
  · simp
  · rw [if_neg positive.ne', if_pos positive, if_neg positive.not_gt]
    have same : (interval - now).toNat = interval.toNat - now := by omega
    have small : interval.toNat - now ≤ 2 ^ 63 := by omega
    split
    · rename_i reached
      have reached : interval.toNat - now = 0 := by omega
      simp [same, reached]
    · rw [same, ceilMs_eq small]

/-- A request of no more than the given ticks is rounded to no more. -/
theorem requested_ceil {units ticks : Nat} : units ⌈/⌉ 10000 ≤ ticks ↔ units ≤ 10000 * ticks :=
  ceilDiv_le_iff_le_mul (by decide)

/-- The conversion of an interval is exact if and only if the requested time, rounded up to
milliseconds, is below 2^32.

Proof: the ticks are the time rounded up, reduced to a word. Reduction keeps them exactly when they
fit. -/
theorem converts_iff (interval : Int) (now : Nat) (lower : -2 ^ 63 ≤ interval) (upper : interval < 2 ^ 63) :
    Converts interval now ↔ requested interval now ⌈/⌉ 10000 < 2 ^ 32 := by
  have computed := @intervalToTicks_eq interval now lower upper
  have covers : requested interval now ≤ 10000 * (requested interval now ⌈/⌉ 10000) :=
    requested_ceil.mp le_rfl
  constructor
  · intro converts
    have enough := converts.enough
    rw [computed, ← requested_ceil] at enough
    exact lt_of_le_of_lt enough (Nat.mod_lt _ (Nat.two_pow_pos 32))
  · intro fits
    have exact : intervalToTicks interval now =
        (requested interval now ⌈/⌉ 10000 == 0, requested interval now ⌈/⌉ 10000) := by
      rw [computed, Nat.mod_eq_of_lt fits]
    have reached : requested interval now ⌈/⌉ 10000 = 0 ↔ Due interval now := by
      rw [due_iff, ← Nat.le_zero, requested_ceil, Nat.mul_zero, Nat.le_zero]
    have immediate : (intervalToTicks interval now).1 = true ↔ Due interval now := by
      rw [exact, beq_iff_eq, reached]
    refine ⟨immediate, fun negative => ?_, fun positive later => ?_, fun waits => ?_, ?_, ?_, ?_, ?_⟩
    · rw [exact, requested, if_pos negative]
    · rw [exact, requested, if_neg positive.not_gt]
    · rw [exact]
      exact Nat.one_le_iff_ne_zero.mpr (fun zero => waits (reached.mp zero))
    · rw [exact]
      exact covers
    · intro shorter above below less
      rw [exact, intervalToTicks_eq above below]
      have fewer : requested shorter now ⌈/⌉ 10000 ≤ requested interval now ⌈/⌉ 10000 :=
        requested_ceil.mpr (less.trans covers)
      exact (Nat.mod_le _ _).trans fewer
    · intro krnl va word clock read mapped stored fiber waits
      have later : (requested interval now ⌈/⌉ 10000 == 0) = false := by
        rw [beq_eq_false_iff_ne, Ne, reached]
        exact waits
      exact ⟨_, covers, by simp [XboxKrnl.keDelayExecutionThread, mapped, read, stored, clock, exact, later, fiber]⟩
    · intro krnl va word clock read mapped stored
      have converted : krnl.readTimeout va = some (intervalToTicks interval now) := by
        simp [XboxKrnl.readTimeout, mapped, read, stored, clock]
      refine ⟨_, _, converted, immediate, ?_⟩
      have same : (intervalToTicks interval now).2 = requested interval now ⌈/⌉ 10000 := by rw [exact]
      exact covers.trans (Nat.mul_le_mul_left _ same.ge)

/-- One millisecond, and a deadline half a unit of it ahead of the clock. -/
theorem millisecond_converts : Converts (-10000) 0 ∧ Converts 5000 0 :=
  ⟨(converts_iff (-10000) 0 (by decide) (by decide)).mpr (by decide),
    (converts_iff 5000 0 (by decide) (by decide)).mpr (by decide)⟩

/-- A delay of 2^32 ms is no delay. -/
theorem converts_fails : ¬ ∀ (interval : Int) (now : Nat), -2 ^ 63 ≤ interval → interval < 2 ^ 63 →
    Converts interval now := by
  intro always
  have waits := (always (-(10000 * 2 ^ 32)) 0 (by decide) (by decide)).positive (by simp [Due])
  exact absurd waits (by decide)

end SeriesxEmu
