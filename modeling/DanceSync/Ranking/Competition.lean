import Mathlib

/-!
# Competition ranking

The ranking 1, 1, 3 of items with scores: the rank of an item is one more than the number of items
with a greater score. Over items sorted from the greatest score on, one pass gives these ranks.

## Main definitions

* `above`: how many items have a greater score.
* `competitionRanks`: the ranks of sorted items, in one pass.

## Main results

* `competitionRanks_eq`: the pass gives the ranks.
* `above_eq_zero_iff`: nothing is above the items with the greatest score.
* `pairwise_insertionSort_of_key`: sorting by a relation that compares keys.
-/

namespace DanceSync

variable {α β : Type*} [LinearOrder β] (score : α → β)

/-- How many of the items have a score above `b`. -/
def above (b : β) (items : List α) : ℕ := items.countP fun x => b < score x

/-- The rank of a score after `index` items, the last of which had the given score and rank: its
rank for the same score, the position otherwise. -/
def rankAfter (index : ℕ) (last : Option (β × ℕ)) (b : β) : ℕ :=
  match last with
  | some (c, rank) => if c = b then rank else index + 1
  | none => index + 1

/-- The ranks of items that follow `index` others. -/
def competitionRanks : (index : ℕ) → (last : Option (β × ℕ)) → List α → List ℕ
  | _, _, [] => []
  | index, last, x :: items =>
    let rank := rankAfter index last (score x)
    rank :: competitionRanks (index + 1) (some (score x, rank)) items

variable {score} {b : β} {items before : List α} {x : α}

theorem above_append (b : β) (before items : List α) :
    above score b (before ++ items) = above score b before + above score b items :=
  List.countP_append

/-- Nothing is above a score that no item exceeds. -/
theorem above_eq_zero_iff : above score b items = 0 ↔ ∀ x ∈ items, score x ≤ b := by
  simp [above, List.countP_eq_zero]

/-- Everything is above a score that all items exceed. -/
theorem above_eq_length (h : ∀ x ∈ items, b < score x) : above score b items = items.length :=
  List.countP_eq_length.mpr fun x hx => decide_eq_true (h x hx)

/-- The order of the items does not count. -/
theorem above_perm {items' : List α} (h : items.Perm items') :
    above score b items = above score b items' :=
  h.countP_eq _

theorem above_map {γ : Type*} (f : γ → α) (items : List γ) :
    above score b (items.map f) = above (score ∘ f) b items :=
  List.countP_map

/-- A relation that compares the keys of the items of a list sorts them by their keys. -/
theorem pairwise_insertionSort_of_key {κ : Type*} [LinearOrder κ] (key : α → κ)
    {r : α → α → Prop} [DecidableRel r] (h : ∀ x ∈ items, ∀ y ∈ items, r x y ↔ key x ≤ key y) :
    (items.insertionSort r).Pairwise fun x y => key x ≤ key y := by
  have hkeys : (items.insertionSort r).map key = (items.map key).insertionSort (· ≤ ·) :=
    List.map_insertionSort r (· ≤ ·) key items h
  exact List.pairwise_map.mp (hkeys ▸ List.pairwise_insertionSort (· ≤ ·) (items.map key))

/-- The last of the items before, as the pass remembers it. -/
inductive LastOf (score : α → β) : List α → Option (β × ℕ) → Prop
  | none : LastOf score [] none
  | some (before : List α) (y : α) :
      LastOf score (before ++ [y])
        (some (score y, 1 + above score (score y) (before ++ [y])))

/-- The rank after sorted items of a score that none of them is below. -/
theorem rankAfter_eq {last : Option (β × ℕ)} (hlast : LastOf score before last)
    (hsorted : before.Pairwise fun x y => score y ≤ score x) (hle : ∀ y ∈ before, b ≤ score y) :
    rankAfter before.length last b = 1 + above score b before := by
  cases hlast with
  | none => rfl
  | some before y =>
    rw [rankAfter]
    split_ifs with heq
    · rw [heq]
    · have hlt : b < score y := lt_of_le_of_ne (hle y (by simp)) (Ne.symm heq)
      have hall : ∀ z ∈ before ++ [y], b < score z := by
        intro z hz
        rcases List.mem_append.mp hz with hz | hz
        · exact hlt.trans_le ((List.pairwise_append.mp hsorted).2.2 z hz y (by simp))
        · rwa [List.mem_singleton.mp hz]
      rw [above_eq_length hall, Nat.add_comm]

/-- Over sorted items, the pass gives each the number of items above it and one. -/
theorem competitionRanks_eq {last : Option (β × ℕ)} (hlast : LastOf score before last)
    (hsorted : (before ++ items).Pairwise fun x y => score y ≤ score x) :
    competitionRanks score before.length last items =
      items.map fun x => 1 + above score (score x) (before ++ items) := by
  induction items generalizing before last with
  | nil => rfl
  | cons x items ih =>
    obtain ⟨hbefore, hitems, hacross⟩ := List.pairwise_append.mp hsorted
    have hrest : ∀ y ∈ x :: items, score y ≤ score x := by
      intro y hy
      rcases List.mem_cons.mp hy with rfl | hy
      · exact le_rfl
      · exact (List.pairwise_cons.mp hitems).1 y hy
    have hrank : rankAfter before.length last (score x) = 1 + above score (score x) before :=
      rankAfter_eq hlast hbefore fun y hy => hacross y hy x (List.mem_cons_self ..)
    have hsplit : above score (score x) (before ++ x :: items) = above score (score x) before := by
      rw [above_append, above_eq_zero_iff.mpr hrest, Nat.add_zero]
    have hself : above score (score x) (before ++ [x]) = above score (score x) before := by
      have hnone : above score (score x) [x] = 0 := above_eq_zero_iff.mpr (by simp)
      rw [above_append, hnone, Nat.add_zero]
    have happend : before ++ x :: items = before ++ [x] ++ items := by simp
    have hnext : LastOf score (before ++ [x]) (some (score x, 1 + above score (score x) before)) :=
      hself ▸ LastOf.some before x
    rw [competitionRanks, hrank, List.map_cons, hsplit, happend]
    have htail := ih hnext (happend ▸ hsorted)
    rw [List.length_append, List.length_singleton] at htail
    rw [htail]

end DanceSync
