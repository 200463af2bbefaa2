import Mathlib

/-!
# A ballot box

Voters cast, move and withdraw their vote, and voters and candidates leave. The box is a function
of the history: `reference` replays it, and `reference_eq_some_iff` says what it holds without
replaying. Voters and candidates are of one type, since a candidate may leave like a voter.

## Main definitions

* `Ballot`: an accepted vote, or a departure.
* `Ballot.reference`: the votes after a history.
* `Ballot.Stands`: a ballot that nothing later ends.

## Main results

* `Ballot.reference_eq_some_iff`: a voter's vote is the choice of their last ballot, unless they
  or the chosen candidate left after it.
-/

namespace DanceSync

/-- What changes the votes. -/
inductive Ballot (κ : Type) where
  /-- A voter casts or moves their vote, or withdraws it. -/
  | cast (voter : κ) (choice : Option κ)
  | left (who : κ)

namespace Ballot

variable {κ : Type} [DecidableEq κ]

/-- The votes after one ballot or departure. -/
def apply (votes : κ → Option κ) : Ballot κ → κ → Option κ
  | .cast voter choice => Function.update votes voter choice
  | .left who => fun voter => if voter = who then none else (votes voter).filter (· ≠ who)

/-- The votes after a history, oldest first. -/
def reference (history : List (Ballot κ)) : κ → Option κ := history.foldl apply fun _ => none

/-- Whether a later ballot or departure ends the vote of `voter` for `choice`. -/
def Ends (voter choice : κ) : Ballot κ → Prop
  | .cast v _ => v = voter
  | .left who => who = voter ∨ who = choice

/-- The last ballot of `voter` in a history is for `choice`, and neither of them left after it. -/
def Stands (history : List (Ballot κ)) (voter choice : κ) : Prop :=
  ∃ pre post, history = pre ++ .cast voter (some choice) :: post ∧
    ∀ b ∈ post, ¬Ends voter choice b

@[simp] theorem reference_nil : reference ([] : List (Ballot κ)) = fun _ => none := rfl

theorem reference_concat (history : List (Ballot κ)) (b : Ballot κ) :
    reference (history ++ [b]) = apply (reference history) b := by
  simp [reference]

theorem apply_cast (votes : κ → Option κ) (voter voter' : κ) (choice : Option κ) :
    apply votes (.cast voter choice) voter' = if voter' = voter then choice else votes voter' := by
  simp [apply, Function.update_apply]

/-- A vote after one more ballot: the ballot casts it, or it was there and is not ended. -/
theorem apply_eq_some_iff {votes : κ → Option κ} {b : Ballot κ} {voter choice : κ} :
    apply votes b voter = some choice ↔
      b = .cast voter (some choice) ∨ (votes voter = some choice ∧ ¬Ends voter choice b) := by
  cases b with
  | cast v c =>
    rw [apply_cast]
    by_cases hv : voter = v
    · subst hv
      simp [Ends]
    · simp [hv, Ends, Ne.symm hv]
  | left who =>
    by_cases hv : voter = who
    · simp [apply, hv, Ends]
    · have hfilter : apply votes (.left who) voter = (votes voter).filter (· ≠ who) := if_neg hv
      rw [hfilter, Option.filter_eq_some_iff]
      simp [Ends, Ne.symm hv, ne_comm]

/-- A voter's vote is the choice of their last ballot, unless they or the chosen candidate left
after it. -/
theorem reference_eq_some_iff {history : List (Ballot κ)} {voter choice : κ} :
    reference history voter = some choice ↔ Stands history voter choice := by
  unfold Stands
  induction history using List.reverseRecOn with
  | nil => simp
  | append_singleton history b ih =>
    rw [reference_concat, apply_eq_some_iff, ih]
    constructor
    · rintro (rfl | ⟨⟨pre, post, rfl, hpost⟩, hb⟩)
      · exact ⟨history, [], rfl, by simp⟩
      · refine ⟨pre, post ++ [b], by simp, ?_⟩
        exact List.forall_mem_append.mpr ⟨hpost, by simpa using hb⟩
    · rintro ⟨pre, post, hsplit, hpost⟩
      rcases post.eq_nil_or_concat with rfl | ⟨post, b', rfl⟩
      · obtain ⟨rfl, hb⟩ := List.append_inj' hsplit rfl
        exact Or.inl (List.singleton_injective hb)
      · rw [List.concat_eq_append] at hsplit hpost
        rw [← List.cons_append, ← List.append_assoc] at hsplit
        obtain ⟨hpre, hb⟩ := List.append_inj' hsplit rfl
        obtain rfl := List.singleton_injective hb
        exact Or.inr ⟨⟨pre, post, hpre, fun b hb => hpost b (List.mem_append_left _ hb)⟩,
          hpost b (by simp)⟩

end Ballot

end DanceSync
