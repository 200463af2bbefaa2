import DanceSync.Js.Date

/-!
# Timers of the platform

`setTimeout` waits for a whole number of milliseconds: the fraction of a delay is dropped, and a
delay that is no number, is below 1 or is too long is replaced by 1.

## Main definitions

* `timeoutMs`: when a timer fires.
-/

namespace DanceSync

/-- The longest delay of `setTimeout`. -/
def TIMEOUT_MAX : ℤ := 2147483647

/-- `setTimeout`: how long after the call the timer fires, in milliseconds; `none` is `NaN`. -/
def timeoutMs : Option ℚ → ℤ
  | some delay => if 1 ≤ delay ∧ delay ≤ TIMEOUT_MAX then truncate delay else 1
  | none => 1

theorem timeoutMs_of_lt {delay : ℚ} (h : TIMEOUT_MAX < delay) : timeoutMs (some delay) = 1 :=
  if_neg fun hle => absurd h (not_lt.mpr hle.2)

theorem one_le_timeoutMs (delay : Option ℚ) : 1 ≤ timeoutMs delay := by
  unfold timeoutMs
  split
  next ms =>
    split_ifs with h
    · exact (truncate_intCast 1).symm.trans_le (truncate_mono (by simpa using h.1))
    · exact le_rfl
  next => exact le_rfl

theorem timeoutMs_le (delay : Option ℚ) : timeoutMs delay ≤ TIMEOUT_MAX := by
  unfold timeoutMs
  split
  next ms =>
    split_ifs with h
    · exact (truncate_mono h.2).trans_eq (truncate_intCast _)
    · decide
  next => decide

/-- No timer is early for a whole delay within the limit. -/
theorem le_timeoutMs {n : ℤ} {delay : ℚ} (hn : delay = n) (h : n ≤ TIMEOUT_MAX) :
    n ≤ timeoutMs (some delay) := by
  subst hn
  rw [timeoutMs, truncate_intCast]
  split_ifs with hcond
  · exact le_rfl
  · have hle : (n : ℚ) ≤ TIMEOUT_MAX := by exact_mod_cast h
    have hsmall : (n : ℚ) < 1 := not_le.mp fun hone => hcond ⟨hone, hle⟩
    exact (Int.cast_lt.mp (by exact_mod_cast hsmall)).le

end DanceSync
