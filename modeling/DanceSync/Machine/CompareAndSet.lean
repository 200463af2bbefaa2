import DanceSync.Machine.Run

/-!
# Operations on a versioned row

A row is read, an operation decides on the value that was read, and its decision is written only
if the row still has the version that was read; otherwise the operation is tried again on the newer
value, a bounded number of times. Any number of calls share the row, and a schedule says which of
them makes the next request.

When every write raises the version by one, a row that has the version that was read is the value
that was read. So each call takes effect at once, when its last request is answered, and the calls
return what they would have returned one after the other in that order. A call is refused only
when another one took effect since it read the row.

## Main definitions

* `Operation`, `Operation.apply`: a decision on a row, and its effect in one step.
* `Store`, `compareAndSet`: the row with its calls, and the machine of their requests.

## Main results

* `Linearized.run`: the calls take effect one after the other.
* `Linearized.mem_order_of_returned`: as many attempts as there are callers are enough.
* `returned_of_count`: a call returns after a bounded number of its own requests.
-/

namespace DanceSync.CompareAndSet

variable {ι σ α : Type} {version : σ → ℕ}

/-- What an operation comes to on a value. -/
inductive Attempt (σ α : Type) where
  /-- Nothing is to be written. -/
  | answers (answer : α)
  /-- The row is to be replaced, or removed, before the operation is answered. -/
  | writes (next : Option σ) (answer : α)

/-- What is done with the answer. -/
def Attempt.map {β : Type} (f : α → β) : Attempt σ α → Attempt σ β
  | .answers answer => .answers (f answer)
  | .writes next answer => .writes next (f answer)

/-- An operation on a row whose values have a version. -/
structure Operation (version : σ → ℕ) (α : Type) where
  /-- The attempt on a value, after attempts on other values were discarded. -/
  attempt : List σ → σ → Attempt σ α
  /-- The answer when there is no row. -/
  absent : α
  /-- The answer when no attempt is left. -/
  gaveUp : α
  restarts : ∀ discarded v, attempt discarded v = attempt [] v
  version_succ : ∀ {v next answer}, attempt [] v = .writes (some next) answer →
    version next = version v + 1

namespace Operation

/-- The effect of an operation in one step. -/
def apply (o : Operation version α) : Option σ → Option σ × α
  | none => (none, o.absent)
  | some v =>
    match o.attempt [] v with
    | .answers answer => (some v, answer)
    | .writes next answer => (next, answer)

/-- An operation whose answers go on as `f` says. -/
def map {β : Type} (f : α → β) (o : Operation version α) : Operation version β where
  attempt discarded v := (o.attempt discarded v).map f
  absent := f o.absent
  gaveUp := f o.gaveUp
  restarts discarded v := congrArg _ (o.restarts discarded v)
  version_succ := by
    intro v next answer h
    cases hattempt : o.attempt [] v with
    | answers => simp [hattempt, Attempt.map] at h
    | writes written =>
      simp only [hattempt, Attempt.map, Attempt.writes.injEq] at h
      obtain ⟨rfl, -⟩ := h
      exact o.version_succ hattempt

/-- An operation that asks nothing of the row. -/
def constant (answer : α) : Operation version α where
  attempt _ _ := .answers answer
  absent := answer
  gaveUp := answer
  restarts _ _ := rfl
  version_succ h := nomatch h

theorem apply_map {β : Type} (f : α → β) (o : Operation version α) (row : Option σ) :
    (o.map f).apply row = ((o.apply row).1, f (o.apply row).2) := by
  cases row with
  | none => rfl
  | some v =>
    simp only [apply, map]
    cases o.attempt [] v <;> rfl

theorem apply_constant (answer : α) (row : Option σ) :
    (constant answer : Operation version α).apply row = (row, answer) := by
  cases row <;> rfl

end Operation

/-- The row under operations that each take one step. -/
def atomic : Machine (Option σ) (Operation version α) α where
  step row o := o.apply row

/-! ### Calls -/

/-- Where a call is. -/
inductive Phase (σ α : Type) where
  /-- Before it reads the row. -/
  | reading
  /-- Before the version of the row is compared with the one of the value that was read. -/
  | comparing (seen : σ) (next : Option σ) (answer : α)
  | returned (answer : α)

/-- A call with the values whose attempts were discarded. -/
structure Call (version : σ → ℕ) (α : Type) where
  operation : Operation version α
  discarded : List σ := []
  phase : Phase σ α := .reading

/-- The row, its calls, and those that took effect so far, in order. -/
structure Store (ι : Type) (version : σ → ℕ) (α : Type) where
  row : Option σ
  calls : ι → Call version α
  order : List ι := []

namespace Store

variable [DecidableEq ι] (s : Store ι version α) (i : ι)

/-- Call `i` goes on as `c`. -/
def enter (c : Call version α) : Store ι version α :=
  { s with calls := Function.update s.calls i c }

/-- Call `i` leaves the row as `row` and returns. -/
def takeEffect (row : Option σ) (answer : α) : Store ι version α where
  row
  calls := Function.update s.calls i { s.calls i with phase := .returned answer }
  order := s.order ++ [i]

/-- The next request of call `i`. -/
def step (maxAttempts : ℕ) : Store ι version α :=
  match (s.calls i).phase with
  | .reading =>
    if maxAttempts ≤ (s.calls i).discarded.length then
      s.enter i { s.calls i with phase := .returned (s.calls i).operation.gaveUp }
    else
      match s.row with
      | none => s.takeEffect i none (s.calls i).operation.absent
      | some seen =>
        match (s.calls i).operation.attempt (s.calls i).discarded seen with
        | .answers answer => s.takeEffect i (some seen) answer
        | .writes next answer =>
          s.enter i { s.calls i with phase := .comparing seen next answer }
  | .comparing seen next answer =>
    if s.row.map version = some (version seen) then s.takeEffect i next answer
    else
      s.enter i
        { s.calls i with discarded := (s.calls i).discarded ++ [seen], phase := .reading }
  | .returned _ => s

/-- All calls begin with this row. -/
def start (row : Option σ) (ops : ι → Operation version α) : Store ι version α where
  row
  calls i := { operation := ops i }

/-- The call found no attempt left. -/
def GaveUp (maxAttempts : ℕ) : Prop :=
  (s.calls i).phase = .returned (s.calls i).operation.gaveUp ∧
    maxAttempts ≤ (s.calls i).discarded.length

end Store

/-- The machine whose runs are the interleavings of the calls. -/
def compareAndSet [DecidableEq ι] (version : σ → ℕ) (α : Type) (maxAttempts : ℕ) :
    Machine (Store ι version α) ι Unit where
  step s i := (s.step i maxAttempts, ())

/-! ### What a request does -/

section Steps

variable [DecidableEq ι] {maxAttempts : ℕ} {s s' : Store ι version α} {i : ι}

/-- What a request comes to. -/
inductive Stepped (maxAttempts : ℕ) (s : Store ι version α) (i : ι) : Store ι version α → Prop
  | idle {answer : α} (h : (s.calls i).phase = .returned answer) : Stepped maxAttempts s i s
  | gaveUp (h : (s.calls i).phase = .reading)
      (hattempts : maxAttempts ≤ (s.calls i).discarded.length) :
      Stepped maxAttempts s i
        (s.enter i { s.calls i with phase := .returned (s.calls i).operation.gaveUp })
  | read {seen : σ} {next : Option σ} {answer : α} (h : (s.calls i).phase = .reading)
      (hattempts : (s.calls i).discarded.length < maxAttempts) (hrow : s.row = some seen)
      (hattempt : (s.calls i).operation.attempt [] seen = .writes next answer) :
      Stepped maxAttempts s i
        (s.enter i { s.calls i with phase := .comparing seen next answer })
  | refused {seen : σ} {next : Option σ} {answer : α}
      (h : (s.calls i).phase = .comparing seen next answer)
      (hversion : s.row.map version ≠ some (version seen)) :
      Stepped maxAttempts s i (s.enter i
        { s.calls i with discarded := (s.calls i).discarded ++ [seen], phase := .reading })
  /-- It takes effect at once, on the row that it read. -/
  | effective {row : Option σ} {answer : α} (h : ∀ a, (s.calls i).phase ≠ .returned a)
      (happly : (∃ seen next, (s.calls i).phase = .comparing seen next answer ∧
        s.row.map version = some (version seen) ∧ row = next) ∨
          (s.calls i).operation.apply s.row = (row, answer)) :
      Stepped maxAttempts s i (s.takeEffect i row answer)

theorem stepped (maxAttempts : ℕ) (s : Store ι version α) (i : ι) :
    Stepped maxAttempts s i (s.step i maxAttempts) := by
  unfold Store.step
  split
  next hphase =>
    split_ifs with hattempts
    · exact .gaveUp hphase hattempts
    · cases hrow : s.row with
      | none => exact .effective (by simp [hphase]) (Or.inr (by rw [hrow]; rfl))
      | some seen =>
        have hrestarts := (s.calls i).operation.restarts (s.calls i).discarded seen
        simp only
        split
        next answer hattempt =>
          refine .effective (by simp [hphase]) (Or.inr ?_)
          simp only [hrow, Operation.apply, ← hrestarts, hattempt]
        next next answer hattempt =>
          exact .read hphase (not_le.mp hattempts) hrow (hrestarts ▸ hattempt)
  next seen next answer hphase =>
    split_ifs with hversion
    · exact .effective (by simp [hphase]) (Or.inl ⟨seen, next, hphase, hversion, rfl⟩)
    · exact .refused hphase hversion
  next answer hphase => exact .idle hphase

end Steps

/-! ### The order of the calls -/

section Order

variable {maxAttempts : ℕ} {s s' : Store ι version α} {i j : ι}
  {ops : ι → Operation version α} {row₀ : Option σ}

/-- A call that has not taken effect: what it read is the row, unless the row is newer, and it was
refused at most once for each call that took effect. -/
def Store.Pending (maxAttempts : ℕ) (s : Store ι version α) (i : ι) : Prop :=
  (s.calls i).discarded.length ≤ s.order.length ∧
    match (s.calls i).phase with
    | .reading => True
    | .comparing seen next answer =>
      (s.calls i).operation.attempt [] seen = .writes next answer ∧
        (s.calls i).discarded.length < maxAttempts ∧
        (∀ v ∈ s.row, v = seen ∨ version seen < version v) ∧
        (s.row ≠ some seen → (s.calls i).discarded.length < s.order.length)
    | .returned _ => s.GaveUp i maxAttempts

/-- The calls took effect one after the other. -/
structure Linearized (maxAttempts : ℕ) (ops : ι → Operation version α) (row₀ : Option σ)
    (s : Store ι version α) : Prop where
  operation : ∀ i, (s.calls i).operation = ops i
  row : s.row = atomic.run row₀ (s.order.map ops)
  /-- Each returned what it was answered in its turn. -/
  answers : (s.order.map fun i => (s.calls i).phase) =
    (atomic.trace row₀ (s.order.map ops)).map fun e => .returned e.output
  nodup : s.order.Nodup
  pending : ∀ i ∉ s.order, s.Pending maxAttempts i

/-- The value that an operation leaves is the one it found, or a newer one. -/
theorem newer_of_apply {o : Operation version α} {row row' : Option σ} {answer : α}
    (h : o.apply row = (row', answer)) : ∀ next ∈ row', ∃ v ∈ row, next = v ∨
      version v < version next := by
  intro next hnext
  obtain rfl := Option.mem_def.mp hnext
  cases row with
  | none => simp [Operation.apply] at h
  | some v =>
    refine ⟨v, rfl, ?_⟩
    cases hattempt : o.attempt [] v with
    | answers a =>
      simp only [Operation.apply, hattempt, Prod.mk.injEq, Option.some.injEq] at h
      exact Or.inl h.1.symm
    | writes written a =>
      simp only [Operation.apply, hattempt, Prod.mk.injEq] at h
      obtain ⟨rfl, -⟩ := h
      exact Or.inr (by rw [o.version_succ hattempt]; exact Nat.lt_succ_self _)

/-- A call that takes effect does what its operation does in one step. -/
theorem apply_of_effective {row : Option σ} {answer : α} (h : s.Pending maxAttempts i)
    (happly : (∃ seen next, (s.calls i).phase = .comparing seen next answer ∧
      s.row.map version = some (version seen) ∧ row = next) ∨
        (s.calls i).operation.apply s.row = (row, answer)) :
    (s.calls i).operation.apply s.row = (row, answer) := by
  rcases happly with ⟨seen, next, hphase, hversion, rfl⟩ | happly
  · obtain ⟨v, hv, hveq⟩ := Option.map_eq_some_iff.mp hversion
    have hpending := h.2
    simp only [hphase] at hpending
    obtain ⟨hattempt, -, hseen, -⟩ := hpending
    obtain rfl : v = seen := (hseen v hv).resolve_right (by omega)
    simp only [hv, Operation.apply, hattempt]
  · exact happly

variable [DecidableEq ι]

/-- A call that only goes on leaves the others as they were. -/
theorem pending_enter {c : Call version α} (hne : j ≠ i) (h : s.Pending maxAttempts j) :
    (s.enter i c).Pending maxAttempts j := by
  simpa [Store.Pending, Store.enter, Store.GaveUp, Function.update_of_ne hne] using h

/-- A call that takes effect may take what another one read out of date. -/
theorem pending_takeEffect {row : Option σ} {answer : α}
    (happly : (s.calls i).operation.apply s.row = (row, answer)) (hne : j ≠ i)
    (h : s.Pending maxAttempts j) : (s.takeEffect i row answer).Pending maxAttempts j := by
  obtain ⟨hdiscarded, hphase⟩ := h
  have hlength : (s.takeEffect i row answer).order.length = s.order.length + 1 := by
    simp [Store.takeEffect]
  have hcall : (s.takeEffect i row answer).calls j = s.calls j := Function.update_of_ne hne _ _
  unfold Store.Pending
  rw [hcall, hlength]
  refine ⟨by omega, ?_⟩
  split at hphase
  next => trivial
  next seen next answer hcomparing =>
    obtain ⟨hattempt, hleft, hseen, -⟩ := hphase
    refine ⟨hattempt, hleft, fun v hv => ?_, fun _ => by omega⟩
    obtain ⟨w, hw, hvw⟩ := newer_of_apply happly v hv
    rcases hvw with rfl | hvw
    · exact hseen v hw
    · refine Or.inr ?_
      rcases hseen w hw with rfl | hlt
      · exact hvw
      · exact hlt.trans hvw
  next a hreturned =>
    rw [Store.GaveUp, hcall]
    exact hphase

namespace Linearized

omit [DecidableEq ι] in
theorem start (maxAttempts : ℕ) (row₀ : Option σ) (ops : ι → Operation version α) :
    Linearized maxAttempts ops row₀ (.start row₀ ops) where
  operation _ := rfl
  row := rfl
  answers := rfl
  nodup := List.nodup_nil
  pending _ _ := ⟨le_rfl, trivial⟩

omit [DecidableEq ι] in
/-- A call that took effect has returned. -/
theorem returned (h : Linearized maxAttempts ops row₀ s) (hi : i ∈ s.order) :
    ∃ answer, (s.calls i).phase = .returned answer := by
  have hphase : (s.calls i).phase ∈ s.order.map fun i => (s.calls i).phase :=
    List.mem_map_of_mem hi
  rw [h.answers] at hphase
  obtain ⟨e, -, he⟩ := List.mem_map.mp hphase
  exact ⟨e.output, he.symm⟩

/-- A call that only goes on has not taken effect. -/
theorem enter (h : Linearized maxAttempts ops row₀ s) {c : Call version α} (hi : i ∉ s.order)
    (hop : c.operation = ops i) (hpending : (s.enter i c).Pending maxAttempts i) :
    Linearized maxAttempts ops row₀ (s.enter i c) where
  operation j := by
    by_cases hji : j = i
    · subst hji
      simpa [Store.enter] using hop
    · simpa [Store.enter, Function.update_of_ne hji] using h.operation j
  row := h.row
  answers := by
    refine Eq.trans (List.map_congr_left fun k hk => ?_) h.answers
    have hki : k ≠ i := fun heq => hi (heq ▸ hk)
    simp [Store.enter, Function.update_of_ne hki]
  nodup := h.nodup
  pending j hj := by
    by_cases hji : j = i
    · exact hji ▸ hpending
    · exact pending_enter hji (h.pending j hj)

/-- A call that takes effect is the last one so far. -/
theorem takeEffect (h : Linearized maxAttempts ops row₀ s) {row : Option σ} {answer : α}
    (hi : i ∉ s.order) (happly : (s.calls i).operation.apply s.row = (row, answer)) :
    Linearized maxAttempts ops row₀ (s.takeEffect i row answer) where
  operation j := by
    by_cases hji : j = i
    · subst hji
      simpa [Store.takeEffect] using h.operation j
    · simpa [Store.takeEffect, Function.update_of_ne hji] using h.operation j
  row := by
    have hstep : atomic.next s.row (ops i) = row := by
      rw [← h.operation i]
      exact congrArg Prod.fst happly
    simp only [Store.takeEffect, List.map_append, List.map_singleton, Machine.run_append, ← h.row,
      Machine.run_cons, Machine.run_nil, hstep]
  answers := by
    have hstep : (atomic.event s.row (ops i)).output = answer := by
      rw [← h.operation i]
      exact congrArg Prod.snd happly
    have hothers : s.order.map (fun k => ((s.takeEffect i row answer).calls k).phase) =
        s.order.map fun k => (s.calls k).phase := List.map_congr_left fun k hk => by
      have hki : k ≠ i := fun heq => hi (heq ▸ hk)
      simp [Store.takeEffect, Function.update_of_ne hki]
    show (s.order ++ [i]).map _ = (atomic.trace row₀ ((s.order ++ [i]).map ops)).map _
    rw [List.map_append, hothers, h.answers, List.map_append, Machine.trace_append, ← h.row,
      List.map_append]
    simp [Store.takeEffect, hstep]
  nodup := by
    simpa [Store.takeEffect, List.nodup_append] using ⟨h.nodup, fun k hk heq => hi (heq ▸ hk)⟩
  pending j hj := by
    have hmem : j ∉ s.order ∧ j ≠ i := by simpa [Store.takeEffect] using hj
    exact pending_takeEffect happly hmem.2 (h.pending j hmem.1)

/-- A request keeps the calls in order. -/
theorem stepped (h : Linearized maxAttempts ops row₀ s) (hstep : Stepped maxAttempts s i s') :
    Linearized maxAttempts ops row₀ s' := by
  have hnew : (∀ a, (s.calls i).phase ≠ .returned a) → i ∉ s.order := by
    intro hphase hi
    obtain ⟨a, ha⟩ := h.returned hi
    exact hphase a ha
  cases hstep with
  | idle => exact h
  | gaveUp hphase hattempts =>
    have hi := hnew (by simp [hphase])
    refine h.enter hi (h.operation i) ⟨?_, ?_⟩
    · simpa [Store.enter] using (h.pending i hi).1
    · simpa [Store.enter, Store.GaveUp] using hattempts
  | @read seen next answer hphase hattempts hrow hattempt =>
    have hi := hnew (by simp [hphase])
    refine h.enter hi (h.operation i) ⟨?_, ?_⟩
    · simpa [Store.enter] using (h.pending i hi).1
    · simpa [Store.enter, hrow] using ⟨hattempt, hattempts⟩
  | @refused seen next answer hphase hversion =>
    have hi := hnew (by simp [hphase])
    have hpending := (h.pending i hi).2
    simp only [hphase] at hpending
    have hstale : s.row ≠ some seen := fun hrow => hversion (by rw [hrow]; rfl)
    refine h.enter hi (h.operation i) ⟨?_, ?_⟩
    · simpa [Store.enter] using hpending.2.2.2 hstale
    · simp [Store.enter]
  | effective hphase happly =>
    have hi := hnew hphase
    exact h.takeEffect hi (apply_of_effective (h.pending i hi) happly)

/-- The calls take effect one after the other, in every schedule. -/
theorem run (maxAttempts : ℕ) (row₀ : Option σ) (ops : ι → Operation version α)
    (schedule : List ι) :
    Linearized maxAttempts ops row₀
      ((compareAndSet version α maxAttempts).run (.start row₀ ops) schedule) :=
  Machine.run_invariant (fun e he h => by
    rw [Machine.event_of_mem_trace he]
    exact h.stepped (CompareAndSet.stepped maxAttempts e.before e.input)) (start ..)

/-- A call is refused at most once for each call that took effect before it. -/
theorem discarded_lt (h : Linearized maxAttempts ops row₀ s) {callers : Finset ι}
    (hcallers : callers.card ≤ maxAttempts) (horder : ∀ k ∈ s.order, k ∈ callers)
    (hcaller : i ∈ callers) (hi : i ∉ s.order) : (s.calls i).discarded.length < maxAttempts := by
  have hnodup : (i :: s.order).Nodup := List.nodup_cons.mpr ⟨hi, h.nodup⟩
  have hsubset : (i :: s.order).toFinset ⊆ callers := by
    intro k hk
    rcases List.mem_cons.mp (List.mem_toFinset.mp hk) with rfl | hk
    · exact hcaller
    · exact horder k hk
  have hcard := Finset.card_le_card hsubset
  rw [List.toFinset_card_of_nodup hnodup, List.length_cons] at hcard
  have := (h.pending i hi).1
  omega

/-- With an attempt for each caller, no request makes a call return without taking effect. -/
theorem mem_order_stepped (h : Linearized maxAttempts ops row₀ s)
    (hstep : Stepped maxAttempts s i s') {callers : Finset ι}
    (hcallers : callers.card ≤ maxAttempts) (hcaller : i ∈ callers)
    (horder : ∀ k ∈ s.order, k ∈ callers)
    (hreturned : ∀ k answer, (s.calls k).phase = .returned answer → k ∈ s.order) :
    (∀ k ∈ s'.order, k ∈ callers) ∧
      ∀ k answer, (s'.calls k).phase = .returned answer → k ∈ s'.order := by
  -- A call that only goes on has not returned.
  have hothers {c : Call version α} (hc : ∀ answer, c.phase ≠ .returned answer) (k : ι)
      (answer : α) (hk : ((s.enter i c).calls k).phase = .returned answer) : k ∈ s.order := by
    by_cases hki : k = i
    · subst hki
      exact absurd (by simpa [Store.enter] using hk) (hc answer)
    · exact hreturned k answer (by simpa [Store.enter, Function.update_of_ne hki] using hk)
  cases hstep with
  | idle => exact ⟨horder, hreturned⟩
  | gaveUp hphase hattempts =>
    have hi : i ∉ s.order := fun hi => by
      obtain ⟨a, ha⟩ := h.returned hi
      simp [hphase] at ha
    exact absurd (h.discarded_lt hcallers horder hcaller hi) (not_lt.mpr hattempts)
  | read => exact ⟨horder, hothers (by simp)⟩
  | refused => exact ⟨horder, hothers (by simp)⟩
  | effective =>
    refine ⟨fun k hk => ?_, fun k answer hk => ?_⟩
    · rcases List.mem_append.mp hk with hk | hk
      · exact horder k hk
      · exact List.mem_singleton.mp hk ▸ hcaller
    · by_cases hki : k = i
      · exact List.mem_append_right _ (List.mem_singleton.mpr hki)
      · refine List.mem_append_left _ (hreturned k answer ?_)
        simpa [Store.takeEffect, Function.update_of_ne hki] using hk

/-- With an attempt for each caller, every call that returned took effect. -/
theorem mem_order_of_returned {callers : Finset ι} (hcallers : callers.card ≤ maxAttempts)
    {schedule : List ι} (hschedule : ∀ i ∈ schedule, i ∈ callers) {answer : α}
    (hreturned : (((compareAndSet version α maxAttempts).run (.start row₀ ops) schedule).calls
      i).phase = .returned answer) :
    i ∈ ((compareAndSet version α maxAttempts).run (.start row₀ ops) schedule).order := by
  have hrun := @Machine.run_invariant _ _ _ (compareAndSet version α maxAttempts)
    (fun s => Linearized maxAttempts ops row₀ s ∧ (∀ k ∈ s.order, k ∈ callers) ∧
      ∀ k answer, (s.calls k).phase = .returned answer → k ∈ s.order) schedule (.start row₀ ops) ?_
    ⟨start .., by simp [Store.start], by simp [Store.start]⟩
  · exact hrun.2.2 i answer hreturned
  · rintro e he ⟨h, horder, hreturned⟩
    have hcaller := hschedule _ (Machine.input_mem_of_mem_trace he)
    rw [Machine.event_of_mem_trace he]
    have hstep := CompareAndSet.stepped maxAttempts e.before e.input
    exact ⟨h.stepped hstep, h.mem_order_stepped hstep hcallers hcaller horder hreturned⟩

/-- A request leaves the calls that took effect in order, or adds its own behind them. -/
theorem order_stepped (h : Stepped maxAttempts s i s') :
    s'.order = s.order ∨ s'.order = s.order ++ [i] := by
  cases h with
  | effective => exact Or.inr rfl
  | _ => exact Or.inl rfl

/-- The calls that took effect stay in order, and later ones come behind them. -/
theorem order_prefix (s : Store ι version α) (schedule : List ι) :
    s.order <+: ((compareAndSet version α maxAttempts).run s schedule).order := by
  refine Machine.run_invariant (M := compareAndSet version α maxAttempts)
    (P := fun s' => s.order <+: s'.order) (fun e he hbefore => hbefore.trans ?_)
    (List.prefix_refl _)
  rw [Machine.event_of_mem_trace he]
  rcases order_stepped (CompareAndSet.stepped maxAttempts e.before e.input) with h | h
  · exact h.symm ▸ List.prefix_refl e.before.order
  · exact h.symm ▸ List.prefix_append e.before.order [e.input]

/-- Only a call that made a request takes effect. -/
theorem mem_schedule_of_mem_order {schedule : List ι}
    (hi : i ∈ ((compareAndSet version α maxAttempts).run (.start row₀ ops) schedule).order) :
    i ∈ schedule := by
  refine Machine.run_invariant (M := compareAndSet version α maxAttempts)
    (s := .start row₀ ops) (P := fun s => ∀ k ∈ s.order, k ∈ schedule)
    (fun e he hbefore k hk => ?_) (by simp [Store.start]) i hi
  rw [Machine.event_of_mem_trace he] at hk
  rcases order_stepped (CompareAndSet.stepped maxAttempts e.before e.input) with h | h
  · exact hbefore k (h ▸ hk)
  · rcases List.mem_append.mp (h ▸ hk) with hk | hk
    · exact hbefore k hk
    · exact List.mem_singleton.mp hk ▸ Machine.input_mem_of_mem_trace he

end Linearized

/-! ### How long a call takes -/

/-- The requests that a call has left. -/
def Call.budget (maxAttempts : ℕ) (c : Call version α) : ℕ :=
  match c.phase with
  | .reading => 2 * (maxAttempts - c.discarded.length) + 1
  | .comparing .. => 2 * (maxAttempts - c.discarded.length)
  | .returned _ => 0

/-- A request of a call lowers its budget, and leaves those of the others. -/
theorem budget_stepped (h : Linearized maxAttempts ops row₀ s)
    (hstep : Stepped maxAttempts s i s') (hj : ∀ answer, (s.calls j).phase ≠ .returned answer) :
    (s'.calls j).budget maxAttempts + (if i = j then 1 else 0) ≤
      (s.calls j).budget maxAttempts := by
  by_cases hij : i = j
  · subst hij
    rw [if_pos rfl]
    cases hstep with
    | idle hphase => exact absurd hphase (hj _)
    | gaveUp hphase => simp [Store.enter, Call.budget, hphase]
    | read hphase => simp [Store.enter, Call.budget, hphase]
    | refused hphase =>
      have hi : i ∉ s.order := fun hi => (h.returned hi).elim hj
      have hpending := (h.pending i hi).2
      simp only [hphase] at hpending
      have hleft := hpending.2.1
      simp only [Store.enter, Function.update_self, Call.budget, hphase, List.length_append,
        List.length_singleton]
      omega
    | effective hphase =>
      have hi : i ∉ s.order := fun hi => (h.returned hi).elim hj
      have hpending := (h.pending i hi).2
      cases hcall : (s.calls i).phase with
      | returned => exact absurd hcall (hphase _)
      | reading => simp [Store.takeEffect, Call.budget, hcall]
      | comparing =>
        simp only [hcall] at hpending
        have hleft := hpending.2.1
        simp only [Store.takeEffect, Function.update_self, Call.budget, hcall]
        omega
  · rw [if_neg hij, Nat.add_zero]
    have hji : j ≠ i := fun heq => hij heq.symm
    cases hstep <;> simp [Store.enter, Store.takeEffect, Function.update_of_ne hji]

omit [DecidableEq ι] in
/-- A call that has not returned has requests left. -/
theorem budget_pos (h : Linearized maxAttempts ops row₀ s)
    (hi : ∀ answer, (s.calls i).phase ≠ .returned answer) :
    0 < (s.calls i).budget maxAttempts := by
  have hpending := (h.pending i fun hmem => (h.returned hmem).elim hi).2
  cases hphase : (s.calls i).phase with
  | returned answer => exact absurd hphase (hi answer)
  | reading => simp [Call.budget, hphase]
  | comparing =>
    simp only [hphase] at hpending
    have hleft := hpending.2.1
    simp only [Call.budget, hphase]
    omega

/-- A call that has returned makes no more requests. -/
theorem returned_run {answer : α} (h : (s.calls i).phase = .returned answer) (schedule : List ι) :
    (((compareAndSet version α maxAttempts).run s schedule).calls i).phase = .returned answer := by
  refine Machine.run_invariant (M := compareAndSet version α maxAttempts)
    (P := fun s => (s.calls i).phase = .returned answer) (fun e he hbefore => ?_) h
  rw [Machine.event_of_mem_trace he]
  show ((e.before.step e.input maxAttempts).calls i).phase = .returned answer
  by_cases hne : i = e.input
  · subst hne
    simp only [Store.step, hbefore]
  · unfold Store.step
    (repeat' split) <;>
      simpa [Store.enter, Store.takeEffect, Function.update_of_ne hne] using hbefore

/-- A call returns with as many requests of its own as it takes to read and to compare once for
each attempt, and one more. -/
theorem returned_of_count {schedule : List ι} (h : 2 * maxAttempts + 1 ≤ schedule.count i) :
    ∃ answer, (((compareAndSet version α maxAttempts).run (.start row₀ ops) schedule).calls
      i).phase = .returned answer := by
  by_contra hnone
  have hpending : ∀ answer, (((compareAndSet version α maxAttempts).run (.start row₀ ops)
      schedule).calls i).phase ≠ .returned answer := fun answer h => hnone ⟨answer, h⟩
  have hrun {s : Store ι version α} (hs : Linearized maxAttempts ops row₀ s) {schedule : List ι}
      (hpending : ∀ answer, (((compareAndSet version α maxAttempts).run s schedule).calls i).phase ≠
        .returned answer) :
      (((compareAndSet version α maxAttempts).run s schedule).calls i).budget maxAttempts +
        schedule.count i ≤ (s.calls i).budget maxAttempts := by
    induction schedule generalizing s with
    | nil => simp
    | cons k schedule ih =>
      have hstep := CompareAndSet.stepped maxAttempts s k
      have hbudget := budget_stepped hs hstep fun answer hanswer =>
        hpending answer (returned_run hanswer (k :: schedule))
      have hrest : (((compareAndSet version α maxAttempts).run s (k :: schedule)).calls i).budget
          maxAttempts + schedule.count i ≤
            ((s.step k maxAttempts).calls i).budget maxAttempts := ih (hs.stepped hstep) hpending
      rw [List.count_cons]
      simp only [beq_iff_eq]
      omega
  have hbudget := hrun (Linearized.start maxAttempts row₀ ops) hpending
  have hstart : ((Store.start row₀ ops).calls i).budget maxAttempts = 2 * maxAttempts + 1 := rfl
  have hpos := budget_pos (Linearized.run maxAttempts row₀ ops schedule) hpending
  omega

end Order

end DanceSync.CompareAndSet
