import DanceSync.Js.Value
import DanceSync.Numbers.Binary64

/-!
# Dates and the rounding of numbers

A `Date` holds a time value, a whole number of milliseconds, or is an `Invalid Date`: its time value
is `NaN`, and no comparison with it holds. `new Date(ms)` drops the fraction, and is invalid from a
certain distance to the epoch on. The sum that it gets is rounded to a double before.

## Main definitions

* `Date`, with the order of JavaScript; `Instant`: what the clock reads.
* `Numerics`: how an operation rounds, exactly (`Numerics.exact`) or as in the engine
  (`Numerics.double`).
* `Instant.add`: `new Date(now.getTime() + ms)`.

## Main results

* `Date.lt_or_le`: only valid dates are before or after an instant.
* `Numerics.valid_date_double`, `Numerics.date_double_le`: the dates of doubles.
-/

namespace DanceSync

/-! ### Dates -/

/-- A `Date`, by its time value. -/
inductive Date where
  /-- The time value, in milliseconds. -/
  | at (ms : ℤ)
  /-- `Invalid Date`: the time value is `NaN`. -/
  | invalid
  deriving DecidableEq, Repr

/-- `new Date().getTime()`: the clock never reads an `Invalid Date`. -/
abbrev Instant := ℤ

namespace Date

instance : Coe ℤ Date := ⟨.at⟩

instance (n : ℕ) : OfNat Date n := ⟨.at n⟩

/-- `date.getTime()`, `none` for `NaN`. -/
def getTime? : Date → Option ℤ
  | .at ms => some ms
  | .invalid => none

/-- The time value of a valid date. -/
def ms (date : Date) : ℤ := date.getTime?.getD 0

/-- `date.getTime() - now`, `none` for `NaN`. -/
def msFrom (date : Date) (now : Instant) : Option ℤ := date.getTime?.map (· - now)

/-- The date is not an `Invalid Date`. -/
def Valid (date : Date) : Prop := date.getTime?.isSome = true

instance (date : Date) : Decidable date.Valid :=
  inferInstanceAs (Decidable (_ = true))

/-- `a.getTime() <= b.getTime()`. -/
protected def le : Date → Date → Prop
  | .at a, .at b => a ≤ b
  | _, _ => False

/-- `a.getTime() < b.getTime()`. -/
protected def lt : Date → Date → Prop
  | .at a, .at b => a < b
  | _, _ => False

instance : LE Date := ⟨Date.le⟩

instance : LT Date := ⟨Date.lt⟩

instance : DecidableLE Date
  | .at a, .at b => inferInstanceAs (Decidable (a ≤ b))
  | .at _, .invalid | .invalid, _ => inferInstanceAs (Decidable False)

instance : DecidableLT Date
  | .at a, .at b => inferInstanceAs (Decidable (a < b))
  | .at _, .invalid | .invalid, _ => inferInstanceAs (Decidable False)

variable {a b : ℤ} {x y z : Date} {now : Instant}

@[simp] theorem at_le_at : Date.at a ≤ .at b ↔ a ≤ b := Iff.rfl

@[simp] theorem at_lt_at : Date.at a < .at b ↔ a < b := Iff.rfl

@[simp] theorem ms_at : (Date.at a).ms = a := rfl

@[simp] theorem valid_at : (Date.at a).Valid := rfl

@[simp] theorem not_valid_invalid : ¬invalid.Valid := nofun

theorem exists_of_valid (h : x.Valid) : ∃ ms, x = .at ms := by
  cases x with
  | «at» ms => exact ⟨ms, rfl⟩
  | invalid => exact absurd h not_valid_invalid

theorem exists_of_le (h : x ≤ y) : ∃ a b, x = .at a ∧ y = .at b ∧ a ≤ b := by
  cases x <;> cases y <;> first | exact ⟨_, _, rfl, rfl, h⟩ | exact h.elim

theorem exists_of_lt (h : x < y) : ∃ a b, x = .at a ∧ y = .at b ∧ a < b := by
  cases x <;> cases y <;> first | exact ⟨_, _, rfl, rfl, h⟩ | exact h.elim

theorem valid_of_le (h : x ≤ now) : x.Valid := by
  obtain ⟨a, b, rfl, -, -⟩ := exists_of_le h
  exact valid_at

theorem valid_of_lt (h : now < x) : x.Valid := by
  obtain ⟨a, b, -, rfl, -⟩ := exists_of_lt h
  exact valid_at

protected theorem le_trans (hxy : x ≤ y) (hyz : y ≤ z) : x ≤ z := by
  obtain ⟨a, b, rfl, rfl, hab⟩ := exists_of_le hxy
  obtain ⟨b', c, hb, rfl, hbc⟩ := exists_of_le hyz
  obtain rfl := Date.at.inj hb
  exact at_le_at.mpr (hab.trans hbc)

/-- An instant is before a valid date, or not. -/
theorem lt_or_le (h : x.Valid) (now : Instant) : now < x ∨ x ≤ now := by
  obtain ⟨ms, rfl⟩ := exists_of_valid h
  exact lt_or_ge now ms

theorem not_le_of_lt (h : now < x) : ¬x ≤ now := by
  obtain ⟨a, b, ha, rfl, hab⟩ := exists_of_lt h
  obtain rfl := Date.at.inj ha
  exact not_le.mpr hab

theorem not_lt_of_le (h : x ≤ now) : ¬now < x := fun hlt => not_le_of_lt hlt h

theorem lt_of_not_le (hx : x.Valid) (h : ¬x ≤ now) : now < x :=
  (lt_or_le hx now).resolve_right h

theorem le_of_not_lt (hx : x.Valid) (h : ¬now < x) : x ≤ now :=
  (lt_or_le hx now).resolve_left h

end Date

/-! ### Rounding -/

/-- The time value that is farthest from the epoch. -/
def MAX_TIME_VALUE : ℤ := 8640000000000000

/-- How the result of an operation is rounded, and what `new Date` makes of a time value. -/
structure Numerics where
  round : ℚ → ℚ
  date : ℚ → Date

/-- The number without its fraction. -/
def truncate (ms : ℚ) : ℤ := ms.num.tdiv ms.den

/-- Exact arithmetic, without a farthest date. -/
def Numerics.exact : Numerics where
  round := id
  date ms := .at (truncate ms)

/-- The arithmetic of doubles. -/
def Numerics.double : Numerics where
  round := Binary64.round
  date ms := if |ms| ≤ MAX_TIME_VALUE then .at (truncate ms) else .invalid

/-- `new Date(now.getTime() + ms)`. -/
def Instant.add (now : Instant) (ms : ℚ) : Date :=
  Numerics.double.date (Numerics.double.round (now + ms))

/-! ### What truncation and rounding keep -/

@[simp] theorem truncate_intCast (n : ℤ) : truncate n = n := by
  simp [truncate]

theorem truncate_of_nonneg {ms : ℚ} (h : 0 ≤ ms) : truncate ms = ⌊ms⌋ := by
  rw [truncate, Rat.floor_def', Int.tdiv_eq_ediv_of_nonneg (Rat.num_nonneg.mpr h)]

theorem truncate_neg (ms : ℚ) : truncate (-ms) = -truncate ms := by
  simp [truncate]

theorem truncate_of_nonpos {ms : ℚ} (h : ms ≤ 0) : truncate ms = -⌊-ms⌋ := by
  rw [← truncate_of_nonneg (neg_nonneg.mpr h), truncate_neg, neg_neg]

/-- A greater number is not truncated below. -/
theorem truncate_mono : Monotone truncate := by
  intro a b h
  rcases le_total 0 a with ha | ha
  · rw [truncate_of_nonneg ha, truncate_of_nonneg (ha.trans h)]
    exact Int.floor_le_floor h
  · rw [truncate_of_nonpos ha]
    rcases le_total 0 b with hb | hb
    · have hfloor : 0 ≤ ⌊-a⌋ := Int.floor_nonneg.mpr (neg_nonneg.mpr ha)
      rw [truncate_of_nonneg hb]
      exact (neg_nonpos.mpr hfloor).trans (Int.floor_nonneg.mpr hb)
    · rw [truncate_of_nonpos hb]
      exact neg_le_neg (Int.floor_le_floor (neg_le_neg h))

/-! ### Dates that are not too far away -/

namespace Numerics

variable {a b : ℚ}

theorem valid_date_double : (double.date a).Valid ↔ |a| ≤ MAX_TIME_VALUE := by
  simp only [double]
  split_ifs with h <;> simp [h]

theorem date_double (h : |a| ≤ MAX_TIME_VALUE) : double.date a = .at (truncate a) := if_pos h

/-- The time value of a valid date is not too far away. -/
theorem abs_le_of_date {ms : ℤ} (h : double.date a = .at ms) : |ms| ≤ MAX_TIME_VALUE := by
  have hvalid : (double.date a).Valid := h ▸ Date.valid_at
  obtain ⟨hlower, hupper⟩ := abs_le.mp (valid_date_double.mp hvalid)
  rw [date_double (valid_date_double.mp hvalid)] at h
  obtain rfl := Date.at.inj h
  refine abs_le.mpr ⟨?_, ?_⟩
  · calc -MAX_TIME_VALUE = truncate (-MAX_TIME_VALUE : ℤ) := (truncate_intCast _).symm
      _ ≤ truncate a := truncate_mono (by simpa using hlower)
  · calc truncate a ≤ truncate MAX_TIME_VALUE := truncate_mono hupper
      _ = MAX_TIME_VALUE := truncate_intCast _

/-- The date of a greater time value is not before, if both are valid. -/
theorem date_double_le (h : a ≤ b) (ha : (double.date a).Valid) (hb : (double.date b).Valid) :
    double.date a ≤ double.date b := by
  rw [date_double (valid_date_double.mp ha), date_double (valid_date_double.mp hb)]
  exact truncate_mono h

/-- A time value between two valid ones is valid. -/
theorem valid_of_between {start : ℤ} (hstart : |start| ≤ MAX_TIME_VALUE) (ha : start ≤ a)
    (hab : a ≤ b) (hb : (double.date b).Valid) : (double.date a).Valid := by
  rw [valid_date_double] at hb ⊢
  have hstart' : (-MAX_TIME_VALUE : ℚ) ≤ start := by exact_mod_cast (abs_le.mp hstart).1
  exact abs_le.mpr ⟨hstart'.trans ha, hab.trans (abs_le.mp hb).2⟩

theorem at_le_date {n : ℤ} (h : n ≤ a) (ha : (double.date a).Valid) :
    Date.at n ≤ double.date a := by
  rw [date_double (valid_date_double.mp ha), Date.at_le_at]
  exact (truncate_intCast n).symm.trans_le (truncate_mono h)

theorem ms_date_le {n : ℤ} (h : a ≤ n) (ha : (double.date a).Valid) : (double.date a).ms ≤ n := by
  rw [date_double (valid_date_double.mp ha), Date.ms_at]
  exact (truncate_mono h).trans_eq (truncate_intCast n)

end Numerics

end DanceSync
