import DanceSync.Js.Value

/-!
# Bags

A list read as a bag, its items in any order. Items are converted one by one, and a comparator that
tells them apart puts every order of the bag into the same one.

## Main results

* `Bag.mapM_perm`: the order of the items is the order of what they are converted to.
* `Bag.insertionSort_eq_of_perm`: every order of a bag is sorted into the same one.
-/

namespace DanceSync.Bag

section Convert

variable {ε α β : Type} {f : α → Except ε β} {l l' : List α} {bs : List β}

theorem mapM_eq_ok_iff :
    l.mapM f = .ok bs ↔ List.Forall₂ (fun a b => f a = .ok b) l bs := by
  induction l generalizing bs with
  | nil =>
    rw [List.mapM_nil, List.forall₂_nil_left_iff]
    exact ⟨fun h => (Except.ok.inj h).symm, fun h => congrArg Except.ok h.symm⟩
  | cons a l ih =>
    rw [List.mapM_cons, List.forall₂_cons_left_iff, bind_eq_ok]
    constructor
    · rintro ⟨b, hb, h⟩
      obtain ⟨rest, hrest, heq⟩ := bind_eq_ok.mp h
      obtain rfl := Except.ok.inj heq
      exact ⟨b, rest, hb, ih.mp hrest, rfl⟩
    · rintro ⟨b, rest, hb, hrest, rfl⟩
      exact ⟨b, hb, bind_eq_ok.mpr ⟨rest, ih.mpr hrest, rfl⟩⟩

/-- Items in another order are converted to the same ones in another order. -/
theorem mapM_perm (h : l.mapM f = .ok bs) (hperm : l'.Perm l) :
    ∃ bs' : List β, l'.mapM f = .ok bs' ∧ bs'.Perm bs := by
  obtain ⟨bs', hbs', hperm'⟩ := List.perm_comp_forall₂ hperm (mapM_eq_ok_iff.mp h)
  exact ⟨bs', mapM_eq_ok_iff.mpr hbs', hperm'⟩

end Convert

section Sorted

variable {α β : Type} {cmp : α → α → Ordering} [Std.TransCmp cmp] {l l' : List α}

variable (cmp) in
/-- Items compared by a value of theirs. -/
theorem transCmp_comap (f : β → α) : Std.TransCmp fun a b => cmp (f a) (f b) where
  eq_swap := Std.OrientedCmp.eq_swap
  isLE_trans := Std.TransCmp.isLE_trans

instance total_ne_gt : Std.Total fun a b => cmp a b ≠ .gt where
  total a b := by
    have hswap : cmp b a = (cmp a b).swap := Std.OrientedCmp.eq_swap
    rw [hswap]
    cases cmp a b <;> simp

instance isTrans_ne_gt : IsTrans α fun a b => cmp a b ≠ .gt where
  trans _ _ _ hab hbc := Ordering.ne_gt_iff_isLE.mpr <|
    Std.TransCmp.isLE_trans (Ordering.ne_gt_iff_isLE.mp hab) (Ordering.ne_gt_iff_isLE.mp hbc)

theorem eq_of_perm (hl : l.Pairwise (cmp · · ≠ .gt)) (hl' : l'.Pairwise (cmp · · ≠ .gt))
    (happart : ∀ a ∈ l, ∀ b ∈ l, cmp a b = .eq → a = b) (hperm : l.Perm l') : l = l' :=
  hperm.eq_of_pairwise (fun a b ha hb hab hba =>
    happart a ha b (hperm.mem_iff.mpr hb) <| Std.OrientedCmp.isLE_antisymm
      (Ordering.ne_gt_iff_isLE.mp hab) (Ordering.ne_gt_iff_isLE.mp hba)) hl hl'

theorem insertionSort_eq_of_perm (happart : ∀ a ∈ l, ∀ b ∈ l, cmp a b = .eq → a = b)
    (hperm : l'.Perm l) :
    l'.insertionSort (cmp · · ≠ .gt) = l.insertionSort (cmp · · ≠ .gt) := by
  have hsorted : (l'.insertionSort (cmp · · ≠ .gt)).Perm l :=
    (List.perm_insertionSort _ l').trans hperm
  refine eq_of_perm (List.pairwise_insertionSort _ l') (List.pairwise_insertionSort _ l) ?_
    (hsorted.trans (List.perm_insertionSort _ l).symm)
  exact fun a ha b hb => happart a (hsorted.mem_iff.mp ha) b (hsorted.mem_iff.mp hb)

end Sorted

end DanceSync.Bag
