import Mathlib

/-!
# Points that keep their distance

Points of an ordered field that keep a distance from one another between two bounds. A list of
sorted points with the gaps added back keeps the distance, and the number of points that fit is a
quotient rounded down.

## Main definitions

* `Spaced`: each point is at least a step after the one before it.
* `SpacedFits`: some number of points fits between two bounds.
* `addGaps`: the points moved apart, each by one more step.
* `maxSpaced`: the largest number of points that fits.

## Main results

* `spaced_addGaps`, `mem_addGaps`: sorted points moved apart keep the distance and the bounds.
* `spacedFits_iff`, `isGreatest_maxSpaced`.
-/

namespace DanceSync

variable {α : Type*} [Field α] [LinearOrder α] [IsStrictOrderedRing α]

/-- Each point is at least `step` after the one before it. -/
def Spaced (step : α) (points : List α) : Prop := points.IsChain fun a b => a + step ≤ b

/-- Some `n` points between `first` and `last` keep the distance `step`. -/
def SpacedFits (first last step : α) (n : ℕ) : Prop :=
  ∃ points : List α, points.length = n ∧ Spaced step points ∧ ∀ x ∈ points, first ≤ x ∧ x ≤ last

/-- The points after `first`, each moved on by one step more than the one before. -/
def addGaps (first step : α) (points : List α) : List α :=
  points.mapIdx fun i x => first + x + i * step

/-- The largest number of points between `first` and `last` that keep the distance `step`. -/
def maxSpaced [FloorRing α] (first last step : α) : ℕ :=
  if last < first then 0 else ⌊(last - first) / step⌋₊ + 1

variable {first last step slack x : α} {points : List α} {n : ℕ}

/-! ### Moving points apart -/

omit [LinearOrder α] [IsStrictOrderedRing α] in
@[simp] theorem length_addGaps : (addGaps first step points).length = points.length :=
  List.length_mapIdx

omit [LinearOrder α] [IsStrictOrderedRing α] in
theorem getElem_addGaps {i : ℕ} (hi : i < points.length)
    (h : i < (addGaps first step points).length) :
    (addGaps first step points)[i] = first + points[i] + i * step :=
  List.getElem_mapIdx

/-- Sorted points that are moved apart keep the distance. -/
theorem spaced_addGaps (h : points.SortedLE) : Spaced step (addGaps first step points) := by
  refine List.isChain_iff_getElem.mpr fun i hi => ?_
  have hi' : i + 1 < points.length := by simpa using hi
  have hle : points[i] ≤ points[i + 1] := List.isChain_iff_getElem.mp h.isChain i hi'
  rw [getElem_addGaps (by omega), getElem_addGaps hi']
  push_cast
  linarith

/-- Points up to `slack` that are moved apart stay within the slack and the gaps. -/
theorem mem_addGaps (hstep : 0 ≤ step) (hpoints : ∀ x ∈ points, 0 ≤ x ∧ x ≤ slack)
    (hx : x ∈ addGaps first step points) :
    first ≤ x ∧ x ≤ first + slack + (points.length - 1) * step := by
  obtain ⟨i, hi, rfl⟩ := List.mem_iff_getElem.mp hx
  have hi' : i < points.length := by simpa using hi
  rw [getElem_addGaps hi']
  obtain ⟨hlow, hhigh⟩ := hpoints _ (List.getElem_mem hi')
  have hindex : (i : α) ≤ points.length - 1 := by
    have : (i : α) + 1 ≤ points.length := by exact_mod_cast hi'
    linarith
  have hgaps : (i : α) * step ≤ (points.length - 1) * step :=
    mul_le_mul_of_nonneg_right hindex hstep
  have hnonneg : 0 ≤ (i : α) * step := by positivity
  exact ⟨by linarith, by linarith⟩

/-- Points that keep a distance keep it from all later points. -/
theorem Spaced.pairwise (hstep : 0 ≤ step) (h : Spaced step points) :
    points.Pairwise fun a b => a + step ≤ b := by
  let R : α → α → Prop := fun a b => a + step ≤ b
  have htrans : ∀ {a b c : α}, R a b → R b c → R a c := fun {a b c} hab hbc => by
    have hab' : a + step ≤ b := hab
    have hbc' : b + step ≤ c := hbc
    change a + step ≤ c
    linarith
  have : Trans R R R := ⟨htrans⟩
  exact (List.isChain_iff_pairwise (R := R)).mp h

/-! ### How many points fit -/

/-- The last of some spaced points is all the steps after the first of them. -/
theorem Spaced.add_mul_le (h : Spaced step (x :: points)) (hlast : ∀ y ∈ x :: points, y ≤ last) :
    x + points.length * step ≤ last := by
  induction points generalizing x with
  | nil => simpa using hlast x (List.mem_cons_self ..)
  | cons y points ih =>
    obtain ⟨hxy, hrest⟩ := List.isChain_cons_cons.mp h
    have hle := ih hrest fun z hz => hlast z (List.mem_cons_of_mem _ hz)
    push_cast [List.length_cons]
    linarith

/-- Some points fit when the bounds leave room for the steps between them. -/
theorem spacedFits_iff (hstep : 0 ≤ step) :
    SpacedFits first last step n ↔ n = 0 ∨ first + (n - 1) * step ≤ last := by
  constructor
  · rintro ⟨points, rfl, hspaced, hbounds⟩
    cases points with
    | nil => exact Or.inl rfl
    | cons x points =>
      have hle := hspaced.add_mul_le fun y hy => (hbounds y hy).2
      have hfirst := (hbounds x (List.mem_cons_self ..)).1
      right
      push_cast [List.length_cons]
      linarith
  · rintro (rfl | hroom)
    · exact ⟨[], rfl, List.isChain_nil, by simp⟩
    · have hzeros : (List.replicate n (0 : α)).SortedLE := List.sortedLE_replicate n
      refine ⟨addGaps first step (List.replicate n 0), by simp, spaced_addGaps hzeros, ?_⟩
      intro x hx
      have hpoints : ∀ y ∈ List.replicate n (0 : α), 0 ≤ y ∧ y ≤ 0 := by simp
      have hx' := mem_addGaps hstep hpoints hx
      rw [List.length_replicate] at hx'
      exact ⟨hx'.1, by linarith⟩

/-- Any number of points up to the largest fits. -/
theorem spacedFits_iff_le_maxSpaced [FloorRing α] (hstep : 0 < step) :
    SpacedFits first last step n ↔ n ≤ maxSpaced first last step := by
  rw [spacedFits_iff hstep.le, maxSpaced]
  cases n with
  | zero => simp
  | succ n =>
    push_cast
    split_ifs with hroom
    · have hnonneg : 0 ≤ (n : α) * step := by positivity
      simp only [Nat.succ_ne_zero, false_or, Nat.le_zero]
      exact iff_of_false (by intro h; linarith) id
    · have hspan : 0 ≤ (last - first) / step := div_nonneg (by linarith) hstep.le
      simp only [false_or, Nat.succ_le_succ_iff, Nat.le_floor_iff hspan, le_div_iff₀ hstep]
      constructor <;> intro h <;> linarith

/-- The largest number of points that fit. -/
theorem isGreatest_maxSpaced [FloorRing α] (hstep : 0 < step) :
    IsGreatest {n | SpacedFits first last step n} (maxSpaced first last step) :=
  ⟨(spacedFits_iff_le_maxSpaced hstep).mpr le_rfl,
    fun _ hn => (spacedFits_iff_le_maxSpaced hstep).mp hn⟩

end DanceSync
