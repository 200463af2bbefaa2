import DanceSync.Machine.Program

/-!
# Programs that refuse or go through

A program looks at its surroundings first, and may throw while it does. From the first request that
may change something, or the first message, it goes through: it does not throw any more. So an error
says that nothing happened, whatever others did between the requests of the program.

## Main definitions

* `Program.Completes`: every run returns a value.
* `Program.AllOrNothing`: every run throws before anything happened, or returns a value.

## Main results

* `Program.Completes.bind`, `Program.Completes.attempt`, `Program.AllOrNothing.bind`: the rules.
* `Program.AllOrNothing.run`: what a run that throws did.
* `Program.exists_run_attempt`: the run of a program whose errors are reported.
-/

namespace DanceSync

namespace Program

variable {ρ σ ω ε β γ : Type} {α : ρ → Type}

/-- A value that meets `Q`, or an error that meets `E`. -/
def Ends (Q : β → Prop) (E : ε → Prop) : Except ε β → Prop
  | .ok value => Q value
  | .error error => E error

/-- Every run meets `P` and returns a value that meets `Q`. -/
def Completes (answer : (r : ρ) → σ → α r) (P : Entry ρ σ ω → Prop) (Q : β → Prop)
    (p : Program ρ α ω ε β) : Prop :=
  p.Meets answer P (Ends Q fun _ => False)

/-- Every run meets `P`. It returns a value that meets `Q`, or throws an error that meets `E` after
requests that are all inert. -/
def AllOrNothing (answer : (r : ρ) → σ → α r) (Inert P : Entry ρ σ ω → Prop) (Q : β → Prop)
    (E : ε → Prop) : Program ρ α ω ε β → Prop
  | done result => Ends Q E result
  | request r next => ∀ s,
    (Inert (.asked r s) ∧ AllOrNothing answer Inert P Q E (next (answer r s))) ∨
      (P (.asked r s) ∧ Completes answer P Q (next (answer r s)))
  | emit message next => P (.sent message) ∧ Completes answer P Q next

variable {answer : (r : ρ) → σ → α r} {Inert P : Entry ρ σ ω → Prop} {Q : β → Prop} {R : γ → Prop}
  {E : ε → Prop} {p : Program ρ α ω ε β} {next : β → Program ρ α ω ε γ}

namespace Completes

theorem bind (h : Completes answer P Q p)
    (hnext : ∀ value, Q value → Completes answer P R (next value)) :
    Completes answer P R (p >>= next) :=
  Meets.andThen h fun
    | .ok value, hvalue => hnext value hvalue
    | .error _, herror => herror.elim

/-- A program whose value does not matter, before another. -/
theorem seq (h : Completes answer P (fun _ => True) p)
    (hnext : ∀ value, Completes answer P R (next value)) : Completes answer P R (p >>= next) :=
  h.bind fun value _ => hnext value

/-- A program whose errors are caught. -/
theorem attempt {handle : ε → Program ρ α ω ε β} (h : p.Meets answer P (Returns Q))
    (hhandle : ∀ error, Completes answer P Q (handle error)) :
    Completes answer P Q (p.attempt handle) :=
  Meets.andThen h fun
    | .ok _, hvalue => hvalue
    | .error error, _ => hhandle error

theorem pure {value : β} (h : Q value) :
    Completes answer P Q (Pure.pure value : Program ρ α ω ε β) := h

theorem ask {r : ρ} {Q : α r → Prop} (h : ∀ s, P (.asked r s) ∧ Q (answer r s)) :
    Completes answer P Q (Program.ask r : Program ρ α ω ε (α r)) := h

theorem send {message : ω} (h : P (.sent message)) :
    Completes answer P (fun _ => True) (Program.send message : Program ρ α ω ε Unit) :=
  ⟨h, trivial⟩

theorem forEach {body : γ → Program ρ α ω ε Unit} {items : List γ}
    (h : ∀ item ∈ items, Completes answer P (fun _ => True) (body item)) :
    Completes answer P (fun _ => True) (Program.forEach body items) := by
  induction items with
  | nil => exact trivial
  | cons item items ih =>
    rw [List.forall_mem_cons] at h
    exact h.1.seq fun _ => ih h.2

end Completes

namespace AllOrNothing

theorem of_completes (h : Completes answer P Q p) : AllOrNothing answer Inert P Q E p := by
  cases p with
  | done result =>
    cases result with
    | ok value => exact h
    | error error => exact h.elim
  | request r next => exact fun s => Or.inr (h s)
  | emit message next => exact h

theorem pure {value : β} (h : Q value) :
    AllOrNothing answer Inert P Q E (Pure.pure value : Program ρ α ω ε β) := h

theorem throw {error : ε} (h : E error) :
    AllOrNothing answer Inert P Q E (Program.throw error : Program ρ α ω ε β) := h

/-- A computation without requests, before another program. -/
theorem ofExcept {result : Except ε β} (herror : ∀ error, result = .error error → E error)
    (hnext : ∀ value, result = .ok value → AllOrNothing answer Inert P R E (next value)) :
    AllOrNothing answer Inert P R E (Program.ofExcept result >>= next) := by
  cases result with
  | ok value => exact hnext value rfl
  | error error => exact herror error rfl

/-- A request, before another program: what follows may still throw, or goes through. -/
theorem ask {r : ρ} {next : α r → Program ρ α ω ε γ}
    (h : ∀ s, (Inert (.asked r s) ∧ AllOrNothing answer Inert P R E (next (answer r s))) ∨
      (P (.asked r s) ∧ Completes answer P R (next (answer r s)))) :
    AllOrNothing answer Inert P R E (Program.ask r >>= next) := h

/-- An inert request, before another program. -/
theorem look {r : ρ} {next : α r → Program ρ α ω ε γ} (hinert : ∀ s, Inert (.asked r s))
    (hnext : ∀ value, AllOrNothing answer Inert P R E (next value)) :
    AllOrNothing answer Inert P R E (Program.ask r >>= next) :=
  ask fun s => Or.inl ⟨hinert s, hnext (answer r s)⟩

/-- What follows a program that refuses or goes through has to go through. -/
theorem bind (h : AllOrNothing answer Inert P Q E p)
    (hnext : ∀ value, Q value → Completes answer P R (next value)) :
    AllOrNothing answer Inert P R E (p >>= next) := by
  induction p with
  | done result =>
    cases result with
    | ok value => exact of_completes (hnext value h)
    | error error => exact h
  | request r rest ih =>
    intro s
    rcases h s with ⟨hinert, hrest⟩ | ⟨hasked, hrest⟩
    · exact Or.inl ⟨hinert, ih _ hrest⟩
    · exact Or.inr ⟨hasked, hrest.bind hnext⟩
  | emit message rest => exact ⟨h.1, Completes.bind h.2 hnext⟩

/-- A run that throws did nothing but inert requests. -/
theorem run (hinert : ∀ entry, Inert entry → P entry) (h : AllOrNothing answer Inert P Q E p)
    (states : ℕ → σ) : (∀ entry ∈ (p.run answer states).1, P entry) ∧
      Ends Q (fun error => E error ∧ ∀ entry ∈ (p.run answer states).1, Inert entry)
        (p.run answer states).2 := by
  have hcompletes {r : List (Entry ρ σ ω) × Except ε β} (head : Entry ρ σ ω) (hhead : P head)
      (h : (∀ entry ∈ r.1, P entry) ∧ Ends Q (fun _ => False) r.2) :
      (∀ entry ∈ head :: r.1, P entry) ∧
        Ends Q (fun error => E error ∧ ∀ entry ∈ head :: r.1, Inert entry) r.2 := by
    obtain ⟨log, value | value⟩ := r
    · exact h.2.elim
    · exact ⟨List.forall_mem_cons.mpr ⟨hhead, h.1⟩, h.2⟩
  induction p generalizing states with
  | done result =>
    cases result with
    | ok value => exact ⟨by simp [Program.run], h⟩
    | error error => exact ⟨by simp [Program.run], h, by simp [Program.run]⟩
  | request r next ih =>
    rcases h (states 0) with ⟨hasked, hnext⟩ | ⟨hasked, hnext⟩
    · obtain ⟨hlog, hresult⟩ := ih _ hnext fun k => states (k + 1)
      refine ⟨List.forall_mem_cons.mpr ⟨hinert _ hasked, hlog⟩, ?_⟩
      simp only [Program.run]
      generalize ((next (answer r (states 0))).run answer fun k => states (k + 1)) = rest
        at hresult ⊢
      obtain ⟨log, value | value⟩ := rest
      · exact ⟨hresult.1, List.forall_mem_cons.mpr ⟨hasked, hresult.2⟩⟩
      · exact hresult
    · exact hcompletes _ hasked (Meets.run hnext _)
  | emit message next => exact hcompletes _ h.1 (Meets.run h.2 states)

end AllOrNothing

/-- The run of a program that goes on with the value of another one, and reports its errors. -/
theorem exists_run_attempt (answer : (r : ρ) → σ → α r) (p : Program ρ α ω ε β)
    (next : β → Program ρ α ω ε γ) (report : ε → Program ρ α ω ε γ) (states : ℕ → σ) :
    ∃ later : ℕ → σ,
      let rest := match (p.run answer states).2 with
        | .ok value => ((next value).attempt report).run answer later
        | .error error => (report error).run answer later
      ((p >>= next).attempt report).run answer states =
        ((p.run answer states).1 ++ rest.1, rest.2) := by
  induction p generalizing states with
  | done result =>
    refine ⟨states, ?_⟩
    cases result with
    | ok value => rfl
    | error error => rfl
  | request r rest ih =>
    obtain ⟨later, hrun⟩ := ih (answer r (states 0)) fun k => states (k + 1)
    exact ⟨later, congrArg (fun run => (.asked r (states 0) :: run.1, run.2)) hrun⟩
  | emit message rest ih =>
    obtain ⟨later, hrun⟩ := ih states
    exact ⟨later, congrArg (fun run => (.sent message :: run.1, run.2)) hrun⟩

end Program

end DanceSync
