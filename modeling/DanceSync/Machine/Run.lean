import Mathlib

/-!
# Runs of a machine

A machine answers every input with a new state and an output; an input it refuses leaves the
state as it was and says so in the output. A run feeds it a finite list of inputs, and its trace
lists the events of the run, each with the states around it. Facts about runs are drawn from facts
about the events of their traces, so that a hypothesis on a run may speak of what its inputs
were answered.

## Main definitions

* `Machine`, `Machine.next`, `Machine.run`, `Machine.trace`.

## Main results

* `Machine.run_invariant`, `Machine.invariant_of_mem_trace`: what every event preserves holds
  after the run and around each of its events.
* `Machine.promise_of_mem_trace`: so does what also speaks of the inputs to come.
* `Machine.countP_trace_le`: what lowers a measure happens only so often.
* `Machine.countP_trace_le_one`: a phase that never comes back ends at most once.
* `Machine.live_run_iff`: a phase is on exactly until the event that ends it.
* `Machine.exists_end_of_phase`: the input that ends a phase.
-/

namespace DanceSync

/-- A deterministic machine with inputs `ι`, states `σ` and outputs `ο`. -/
structure Machine (σ ι ο : Type) where
  step : σ → ι → σ × ο

namespace Machine

variable {σ ι ο : Type}

/-- One input with the states around it. -/
structure Event (σ ι ο : Type) where
  before : σ
  input : ι
  output : ο
  after : σ

variable (M : Machine σ ι ο)

/-- The state after one input. -/
def next (s : σ) (i : ι) : σ := (M.step s i).1

/-- The event of one input. -/
def event (s : σ) (i : ι) : Event σ ι ο := ⟨s, i, (M.step s i).2, M.next s i⟩

/-- The state after a list of inputs. -/
def run (s : σ) (is : List ι) : σ := is.foldl M.next s

/-- The events of a run. -/
def trace (s : σ) : List ι → List (Event σ ι ο)
  | [] => []
  | i :: is => M.event s i :: trace (M.next s i) is

@[simp] theorem run_nil (s : σ) : M.run s [] = s := rfl

@[simp] theorem run_cons (s : σ) (i : ι) (is : List ι) :
    M.run s (i :: is) = M.run (M.next s i) is := rfl

theorem run_append (s : σ) (is ks : List ι) : M.run s (is ++ ks) = M.run (M.run s is) ks :=
  List.foldl_append

@[simp] theorem trace_nil (s : σ) : M.trace s [] = [] := rfl

@[simp] theorem trace_cons (s : σ) (i : ι) (is : List ι) :
    M.trace s (i :: is) = M.event s i :: M.trace (M.next s i) is := rfl

theorem trace_append (s : σ) (is ks : List ι) :
    M.trace s (is ++ ks) = M.trace s is ++ M.trace (M.run s is) ks := by
  induction is generalizing s with
  | nil => rfl
  | cons i is ih => simp [ih]

/-- An event of a run is the answer to one of its inputs. -/
theorem mem_trace_iff {s : σ} {is : List ι} {e : Event σ ι ο} :
    e ∈ M.trace s is ↔ ∃ pre i post, is = pre ++ i :: post ∧ e = M.event (M.run s pre) i := by
  induction is generalizing s with
  | nil => simp
  | cons k is ih =>
    rw [trace_cons, List.mem_cons, ih]
    constructor
    · rintro (rfl | ⟨pre, i, post, rfl, rfl⟩)
      · exact ⟨[], k, is, rfl, rfl⟩
      · exact ⟨k :: pre, i, post, rfl, rfl⟩
    · rintro ⟨pre, i, post, hsplit, rfl⟩
      rcases List.append_eq_cons_iff.mp hsplit.symm with ⟨rfl, hcons⟩ | ⟨pre, rfl, hrest⟩
      · obtain ⟨rfl, rfl⟩ := List.cons.inj hcons
        exact Or.inl rfl
      · exact Or.inr ⟨pre, i, post, hrest, rfl⟩

variable {M}

theorem event_of_mem_trace {s : σ} {is : List ι} {e : Event σ ι ο} (h : e ∈ M.trace s is) :
    e = M.event e.before e.input := by
  obtain ⟨pre, i, post, -, rfl⟩ := (M.mem_trace_iff).mp h
  rfl

theorem input_mem_of_mem_trace {s : σ} {is : List ι} {e : Event σ ι ο} (h : e ∈ M.trace s is) :
    e.input ∈ is := by
  obtain ⟨pre, i, post, rfl, rfl⟩ := (M.mem_trace_iff).mp h
  exact List.mem_append_right _ (List.mem_cons_self ..)

theorem step_of_mem_trace {s : σ} {is : List ι} {e : Event σ ι ο} (h : e ∈ M.trace s is) :
    M.step e.before e.input = (e.after, e.output) := by
  obtain ⟨pre, i, post, -, rfl⟩ := (M.mem_trace_iff).mp h
  rfl

/-! ### Invariants -/

section Invariant

variable {P : σ → Prop} {is : List ι} {s : σ}

/-- What every event of a run preserves, the run preserves. -/
theorem run_invariant (hstep : ∀ e ∈ M.trace s is, P e.before → P e.after) (hs : P s) :
    P (M.run s is) := by
  induction is generalizing s with
  | nil => exact hs
  | cons i is ih =>
    rw [trace_cons, List.forall_mem_cons] at hstep
    exact ih hstep.2 (hstep.1 hs)

/-- What every event of a run preserves holds around each of them. -/
theorem invariant_of_mem_trace (hstep : ∀ e ∈ M.trace s is, P e.before → P e.after) (hs : P s)
    {e : Event σ ι ο} (he : e ∈ M.trace s is) : P e.before ∧ P e.after := by
  induction is generalizing s with
  | nil => simp at he
  | cons i is ih =>
    rw [trace_cons, List.forall_mem_cons] at hstep
    rcases List.mem_cons.mp he with rfl | he
    · exact ⟨hs, hstep.1 hs⟩
    · exact ih hstep.2 (hstep.1 hs) he

/-- An invariant that also speaks of the inputs still to come holds before each event of a run. -/
theorem promise_of_mem_trace {P : List ι → σ → Prop}
    (hstep : ∀ e ∈ M.trace s is, ∀ rest, P (e.input :: rest) e.before → P rest e.after)
    (hs : P is s) {e : Event σ ι ο} (he : e ∈ M.trace s is) :
    ∃ rest, P (e.input :: rest) e.before := by
  induction is generalizing s with
  | nil => simp at he
  | cons i is ih =>
    rw [trace_cons, List.forall_mem_cons] at hstep
    rcases List.mem_cons.mp he with rfl | he
    · exact ⟨is, hs⟩
    · exact ih hstep.2 (hstep.1 is hs) he

end Invariant

/-- Events that each lower a measure that no event raises are at most as many as the measure was. -/
theorem countP_trace_le (weight : σ → ℕ) {flag : Event σ ι ο → Bool} {is : List ι} {s : σ}
    (hflag : ∀ e ∈ M.trace s is, flag e → weight e.after < weight e.before)
    (hle : ∀ e ∈ M.trace s is, weight e.after ≤ weight e.before) :
    (M.trace s is).countP flag ≤ weight s := by
  induction is generalizing s with
  | nil => simp
  | cons i is ih =>
    rw [trace_cons, List.forall_mem_cons] at hflag hle
    have hrest := ih hflag.2 hle.2
    rw [trace_cons, List.countP_cons]
    split_ifs with hf
    · exact (Nat.add_le_add_right hrest 1).trans (hflag.1 hf)
    · exact hrest.trans hle.1

/-! ### Events that end a phase -/

section Phase

variable {live : σ → Prop} {flag : Event σ ι ο → Bool} {is : List ι} {s : σ}

/-- After a phase that never comes back no event is flagged for ending it. -/
theorem countP_trace_eq_zero (hflag : ∀ e ∈ M.trace s is, flag e → live e.before)
    (hoff : ∀ e ∈ M.trace s is, ¬live e.before → ¬live e.after) (hs : ¬live s) :
    (M.trace s is).countP flag = 0 :=
  List.countP_eq_zero.mpr fun e he hf =>
    (invariant_of_mem_trace (P := fun s => ¬live s) hoff hs he).1 (hflag e he hf)

/-- A phase that never comes back is ended by at most one event. -/
theorem countP_trace_le_one (live : σ → Prop)
    (hflag : ∀ e ∈ M.trace s is, flag e → live e.before ∧ ¬live e.after)
    (hoff : ∀ e ∈ M.trace s is, ¬live e.before → ¬live e.after) :
    (M.trace s is).countP flag ≤ 1 := by
  induction is generalizing s with
  | nil => simp
  | cons i is ih =>
    rw [trace_cons, List.forall_mem_cons] at hflag hoff
    rw [trace_cons, List.countP_cons]
    by_cases hf : flag (M.event s i)
    · rw [countP_trace_eq_zero (fun e he h => (hflag.2 e he h).1) hoff.2 (hflag.1 hf).2, if_pos hf]
    · rw [if_neg hf, Nat.add_zero]
      exact ih hflag.2 hoff.2

/-- When a phase that never comes back is still on after a run, it was on before each event. -/
theorem live_before_of_live_run (hoff : ∀ e ∈ M.trace s is, ¬live e.before → ¬live e.after)
    (h : live (M.run s is)) : ∀ e ∈ M.trace s is, live e.before := by
  induction is generalizing s with
  | nil => simp
  | cons i is ih =>
    rw [trace_cons, List.forall_mem_cons] at hoff ⊢
    refine ⟨by_contra fun hs => ?_, ih hoff.2 h⟩
    exact run_invariant (P := fun s => ¬live s) hoff.2 (hoff.1 hs) h

/-- A phase that is over after a run was ended by one of its inputs. -/
theorem exists_end_of_phase (hs : live s) (hend : ¬live (M.run s is)) : ∃ pre i post,
    is = pre ++ i :: post ∧ live (M.run s pre) ∧ ¬live (M.next (M.run s pre) i) := by
  induction is generalizing s with
  | nil => exact absurd hs hend
  | cons k is ih =>
    by_cases hl : live (M.next s k)
    · obtain ⟨pre, i, post, rfl, hpre, hi⟩ := ih hl hend
      exact ⟨k :: pre, i, post, rfl, hpre, hi⟩
    · exact ⟨[], k, is, rfl, hs, hl⟩

/-- A phase that only flagged events end, and that never comes back, is on exactly as long as no
event was flagged. -/
theorem live_run_iff
    (hflag : ∀ e ∈ M.trace s is, live e.before → (live e.after ↔ ¬flag e))
    (hoff : ∀ e ∈ M.trace s is, ¬live e.before → ¬live e.after) (hs : live s) :
    live (M.run s is) ↔ ∀ e ∈ M.trace s is, ¬flag e := by
  induction is generalizing s with
  | nil => simpa using hs
  | cons i is ih =>
    rw [trace_cons, List.forall_mem_cons] at hflag hoff ⊢
    by_cases hl : live (M.next s i)
    · rw [run_cons, ih hflag.2 hoff.2 hl]
      exact (and_iff_right ((hflag.1 hs).mp hl)).symm
    · have hdead : ¬live (M.run (M.next s i) is) :=
        run_invariant (P := fun s => ¬live s) hoff.2 hl
      exact iff_of_false hdead fun h => hl ((hflag.1 hs).mpr h.1)

end Phase

end Machine

end DanceSync
