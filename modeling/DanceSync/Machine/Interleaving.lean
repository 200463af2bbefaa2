import DanceSync.Machine.Run

/-!
# Interleaved tasks

Tasks share a state and run one piece at a time: a task that is resumed changes the shared state,
emits something and goes on as further tasks, or ends. Between two pieces any other task may be
resumed and new tasks may start, so a schedule is a list of turns, and a statement about every
schedule is one about every interleaving.

The world keeps what was emitted so far, so that an invariant may speak of the past.

## Main definitions

* `Resumed`, `World`, `Turn`: one piece, the state of all tasks, one turn of the scheduler.
* `interleaving`: the machine of all schedules.
* `World.Holds`: an invariant of the shared state with an assertion for each task.

## Main results

* `Turned.holds`: an invariant is kept by each piece, and assertions are kept by the pieces of other
  tasks.
* `Turned.balanced`: a debt carried by tasks stays below a credit.
* `log_run`: the log holds what the turns emitted, in their order.
-/

namespace DanceSync

/-- What one piece of a task does. -/
structure Resumed (σ τ ω : Type) where
  shared : σ
  /-- What the task goes on with. -/
  tasks : List τ := []
  emitted : List ω := []

/-- The shared state, the suspended tasks and what was emitted so far. -/
structure World (σ τ ω : Type) where
  shared : σ
  tasks : List τ
  log : List ω

/-- A turn of the scheduler; `κ` is what a piece reads from outside, such as a clock. -/
inductive Turn (κ τ : Type) where
  | spawn (task : τ)
  | resume (index : ℕ) (env : κ)

variable {σ τ ω κ : Type}

/-- The world after one piece of the task at `index`. -/
def World.resume (piece : κ → τ → σ → Resumed σ τ ω) (w : World σ τ ω) (index : ℕ) (env : κ) :
    World σ τ ω × List ω :=
  match w.tasks[index]? with
  | none => (w, [])
  | some t =>
    let r := piece env t w.shared
    ({ shared := r.shared
       tasks := w.tasks.eraseIdx index ++ r.tasks
       log := w.log ++ r.emitted }, r.emitted)

/-- The task that a turn starts. -/
def Turn.spawned? : Turn κ τ → Option τ
  | .spawn t => some t
  | .resume .. => none

/-- The task that a turn resumes. -/
def Turn.task? (w : World σ τ ω) : Turn κ τ → Option τ
  | .spawn _ => none
  | .resume index _ => w.tasks[index]?

/-- The machine whose runs are the interleavings of tasks. -/
def interleaving (piece : κ → τ → σ → Resumed σ τ ω) :
    Machine (World σ τ ω) (Turn κ τ) (List ω) where
  step w
    | .spawn t => ({ w with tasks := w.tasks ++ [t] }, [])
    | .resume index env => w.resume piece index env

/-- What a turn does: it starts a task, resumes one of the tasks or finds none to resume. -/
inductive Turned (piece : κ → τ → σ → Resumed σ τ ω) (w : World σ τ ω) :
    Turn κ τ → World σ τ ω → List ω → Prop
  | idle {index : ℕ} {env : κ} : Turned piece w (.resume index env) w []
  | spawned (t : τ) : Turned piece w (.spawn t) { w with tasks := w.tasks ++ [t] } []
  | resumed {index : ℕ} {env : κ} (t : τ) (rest : List τ) (htask : w.tasks[index]? = some t)
      (htasks : w.tasks.Perm (t :: rest)) :
      Turned piece w (.resume index env)
        { shared := (piece env t w.shared).shared
          tasks := rest ++ (piece env t w.shared).tasks
          log := w.log ++ (piece env t w.shared).emitted }
        (piece env t w.shared).emitted

/-- An invariant of the shared state and the past, with an assertion for each suspended task. -/
structure World.Holds (P : σ → List ω → Prop) (A : τ → σ → List ω → Prop) (w : World σ τ ω) :
    Prop where
  shared : P w.shared w.log
  tasks : ∀ t ∈ w.tasks, A t w.shared w.log

variable {piece : κ → τ → σ → Resumed σ τ ω} {w w' : World σ τ ω} {turn : Turn κ τ}
  {emitted : List ω}

theorem turned (piece : κ → τ → σ → Resumed σ τ ω) (w : World σ τ ω) (turn : Turn κ τ) :
    Turned piece w turn ((interleaving piece).next w turn)
      ((interleaving piece).step w turn).2 := by
  cases turn with
  | spawn t => exact .spawned t
  | resume index env =>
    show Turned piece w (.resume index env) (w.resume piece index env).1
      (w.resume piece index env).2
    unfold World.resume
    split
    next => exact .idle
    next t htask =>
      obtain ⟨hindex, rfl⟩ := List.getElem?_eq_some_iff.mp htask
      exact .resumed _ _ htask (List.getElem_cons_eraseIdx_perm hindex).symm

theorem turned_of_mem_trace {turns : List (Turn κ τ)}
    {e : Machine.Event (World σ τ ω) (Turn κ τ) (List ω)}
    (he : e ∈ (interleaving piece).trace w turns) :
    Turned piece e.before e.input e.after e.output := by
  rw [Machine.event_of_mem_trace he]
  exact turned piece e.before e.input

namespace Turned

/-- An invariant with assertions is kept by a turn, when a new task meets its assertion, and a
piece keeps the invariant, leaves the task with its assertion and keeps those of the others. -/
theorem holds {P : σ → List ω → Prop} {A : τ → σ → List ω → Prop}
    (h : Turned piece w turn w' emitted) (hw : w.Holds P A)
    (hspawn : ∀ t, turn = .spawn t → A t w.shared w.log)
    (hpiece : ∀ index env t rest, turn = .resume index env → w.tasks[index]? = some t →
      w.tasks.Perm (t :: rest) → A t w.shared w.log →
      P (piece env t w.shared).shared (w.log ++ (piece env t w.shared).emitted) ∧
      (∀ u ∈ rest, A u w.shared w.log →
        A u (piece env t w.shared).shared (w.log ++ (piece env t w.shared).emitted)) ∧
      ∀ u ∈ (piece env t w.shared).tasks,
        A u (piece env t w.shared).shared (w.log ++ (piece env t w.shared).emitted)) :
    w'.Holds P A := by
  cases h with
  | idle => exact hw
  | spawned t =>
    refine ⟨hw.shared, fun u hu => ?_⟩
    rcases List.mem_append.mp hu with hu | hu
    · exact hw.tasks u hu
    · obtain rfl := List.mem_singleton.mp hu
      exact hspawn u rfl
  | @resumed index env t rest htask htasks =>
    have hmem : ∀ u ∈ t :: rest, A u w.shared w.log := fun u hu =>
      hw.tasks u (htasks.mem_iff.mpr hu)
    obtain ⟨hshared, hrest, hnew⟩ :=
      hpiece index env t rest rfl htask htasks (hmem t (List.mem_cons_self ..))
    refine ⟨hshared, fun u hu => ?_⟩
    rcases List.mem_append.mp hu with hu | hu
    · exact hrest u hu (hmem u (List.mem_cons_of_mem _ hu))
    · exact hnew u hu

/-- A debt, with the shares that the tasks carry, stays below a credit when each piece pays for
what it adds. -/
theorem balanced (debt credit : σ → List ω → ℕ) (weight : τ → ℕ)
    (h : Turned piece w turn w' emitted)
    (hw : debt w.shared w.log + (w.tasks.map weight).sum ≤ credit w.shared w.log)
    (hspawn : ∀ t, turn = .spawn t → weight t = 0)
    (hpiece : ∀ index env t, turn = .resume index env → w.tasks[index]? = some t →
      debt (piece env t w.shared).shared (w.log ++ (piece env t w.shared).emitted) +
          ((piece env t w.shared).tasks.map weight).sum + credit w.shared w.log ≤
        debt w.shared w.log + weight t +
          credit (piece env t w.shared).shared (w.log ++ (piece env t w.shared).emitted)) :
    debt w'.shared w'.log + (w'.tasks.map weight).sum ≤ credit w'.shared w'.log := by
  cases h with
  | idle => exact hw
  | spawned t => simpa [hspawn t rfl] using hw
  | @resumed index env t rest htask htasks =>
    have hsum : (w.tasks.map weight).sum = weight t + (rest.map weight).sum := by
      rw [(htasks.map weight).sum_eq, List.map_cons, List.sum_cons]
    have hpaid := hpiece index env t rfl htask
    simp only [List.map_append, List.sum_append]
    omega

/-- An amount, with the shares that the tasks carry, is the same when each piece passes on what it
takes. -/
theorem conserved (amount : σ → List ω → ℕ) (weight : τ → ℕ) (h : Turned piece w turn w' emitted)
    (hspawn : ∀ t, turn = .spawn t → weight t = 0)
    (hpiece : ∀ index env t, turn = .resume index env → w.tasks[index]? = some t →
      amount (piece env t w.shared).shared (w.log ++ (piece env t w.shared).emitted) +
          ((piece env t w.shared).tasks.map weight).sum =
        amount w.shared w.log + weight t) :
    amount w'.shared w'.log + (w'.tasks.map weight).sum =
      amount w.shared w.log + (w.tasks.map weight).sum := by
  cases h with
  | idle => rfl
  | spawned t => simp [hspawn t rfl]
  | @resumed index env t rest htask htasks =>
    have hsum : (w.tasks.map weight).sum = weight t + (rest.map weight).sum := by
      rw [(htasks.map weight).sum_eq, List.map_cons, List.sum_cons]
    have hpassed := hpiece index env t rfl htask
    simp only [List.map_append, List.sum_append]
    omega

theorem log_eq (h : Turned piece w turn w' emitted) : w'.log = w.log ++ emitted := by
  cases h <;> simp

end Turned

/-- What was emitted is kept in the order of the turns. -/
theorem log_run (piece : κ → τ → σ → Resumed σ τ ω) (w : World σ τ ω) (turns : List (Turn κ τ)) :
    ((interleaving piece).run w turns).log =
      w.log ++ ((interleaving piece).trace w turns).flatMap (·.output) := by
  induction turns generalizing w with
  | nil => simp
  | cons turn turns ih =>
    rw [Machine.run_cons, ih, (turned piece w turn).log_eq, Machine.trace_cons, List.flatMap_cons,
      List.append_assoc]
    rfl

end DanceSync
