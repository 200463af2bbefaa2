import Mathlib

/-!
# Programs with requests

A program asks its surroundings, sends messages, and returns a value or throws. A request is
answered from the state that the surroundings are in at that moment. Between two requests others may
act, so that each request of a run is answered in a state of its own.

What a program does is stated with a condition on each request and message and one on the result.
The condition is computed from the program, one rule for each way to build programs.

## Main definitions

* `Program`: its monad, `Program.throw`, `Program.attempt`, `Program.forEach`.
* `Program.run`: what happens and what is returned.
* `Program.Meets`: every request and message of every run meets a condition, and so does the result.

## Main results

* `Program.Meets.bind`, `Program.Meets.attempt`, `Program.Meets.forEach`: the rules.
* `Program.Meets.run`: a run does what the rules say.
-/

namespace DanceSync

/-- A program with requests `ρ` that are answered in `α`, messages `ω`, errors `ε` and results
`β`. -/
inductive Program (ρ : Type) (α : ρ → Type) (ω ε β : Type)
  | done (result : Except ε β)
  | request (r : ρ) (next : α r → Program ρ α ω ε β)
  | emit (message : ω) (next : Program ρ α ω ε β)

namespace Program

/-- What happens in a run: a request is made in some state, or a message is sent. -/
inductive Entry (ρ σ ω : Type)
  | asked (r : ρ) (s : σ)
  | sent (message : ω)

variable {ρ σ ω ε β γ : Type} {α : ρ → Type}

/-- Goes on after a program that returned or threw. -/
def andThen (next : Except ε β → Program ρ α ω ε γ) : Program ρ α ω ε β → Program ρ α ω ε γ
  | done result => next result
  | request r rest => request r fun answer => andThen next (rest answer)
  | emit message rest => emit message (andThen next rest)

def throw (error : ε) : Program ρ α ω ε β := done (.error error)

/-- The value of a computation without requests. -/
def ofExcept (result : Except ε β) : Program ρ α ω ε β := done result

def bind (p : Program ρ α ω ε β) (next : β → Program ρ α ω ε γ) : Program ρ α ω ε γ :=
  p.andThen fun
    | .ok value => next value
    | .error error => throw error

instance : Monad (Program ρ α ω ε) where
  pure value := done (.ok value)
  bind := bind

/-- `try { … } catch (error) { … }`. -/
def attempt (p : Program ρ α ω ε β) (handle : ε → Program ρ α ω ε β) : Program ρ α ω ε β :=
  p.andThen fun
    | .ok value => pure value
    | .error error => handle error

/-- Makes a request and returns its answer. -/
def ask (r : ρ) : Program ρ α ω ε (α r) := request r pure

def send (message : ω) : Program ρ α ω ε Unit := emit message (pure ())

/-- `for (const item of items) …`. -/
def forEach (body : γ → Program ρ α ω ε Unit) : List γ → Program ρ α ω ε Unit
  | [] => pure ()
  | item :: items => do
    body item
    forEach body items

/-- A run whose `k`-th request is answered in `states k`. -/
def run (answer : (r : ρ) → σ → α r) :
    Program ρ α ω ε β → (ℕ → σ) → List (Entry ρ σ ω) × Except ε β
  | done result, _ => ([], result)
  | request r next, states =>
    let rest := run answer (next (answer r (states 0))) fun k => states (k + 1)
    (.asked r (states 0) :: rest.1, rest.2)
  | emit message next, states =>
    let rest := run answer next states
    (.sent message :: rest.1, rest.2)

/-- Every request and message of the program meets `P`, whatever states it runs in, and its result
meets `Q`. -/
def Meets (answer : (r : ρ) → σ → α r) (P : Entry ρ σ ω → Prop) (Q : Except ε β → Prop) :
    Program ρ α ω ε β → Prop
  | done result => Q result
  | request r next => ∀ s, P (.asked r s) ∧ Meets answer P Q (next (answer r s))
  | emit message next => P (.sent message) ∧ Meets answer P Q next

/-- The result that `Q` describes, where a value was returned. -/
def Returns (Q : β → Prop) : Except ε β → Prop
  | .ok value => Q value
  | .error _ => True

variable {answer : (r : ρ) → σ → α r} {P : Entry ρ σ ω → Prop} {Q : Except ε β → Prop}
  {R : Except ε γ → Prop} {p : Program ρ α ω ε β}

namespace Meets

/-- A run does what the rules say. -/
theorem run (h : Meets answer P Q p) (states : ℕ → σ) :
    (∀ entry ∈ (p.run answer states).1, P entry) ∧ Q (p.run answer states).2 := by
  induction p generalizing states with
  | done result => exact ⟨by simp [Program.run], h⟩
  | request r next ih =>
    obtain ⟨hasked, hnext⟩ := h (states 0)
    obtain ⟨hrest, hresult⟩ := ih _ hnext fun k => states (k + 1)
    exact ⟨List.forall_mem_cons.mpr ⟨hasked, hrest⟩, hresult⟩
  | emit message next ih =>
    obtain ⟨hrest, hresult⟩ := ih h.2 states
    exact ⟨List.forall_mem_cons.mpr ⟨h.1, hrest⟩, hresult⟩

theorem andThen {next : Except ε β → Program ρ α ω ε γ} (h : Meets answer P Q p)
    (hnext : ∀ result, Q result → Meets answer P R (next result)) :
    Meets answer P R (p.andThen next) := by
  induction p with
  | done result => exact hnext result h
  | request r rest ih => exact fun s => ⟨(h s).1, ih _ (h s).2⟩
  | emit message rest ih => exact ⟨h.1, ih h.2⟩

/-- One program after another; nothing is asked of an error. -/
theorem bind {Q : β → Prop} {R : γ → Prop} {next : β → Program ρ α ω ε γ}
    (h : Meets answer P (Returns Q) p)
    (hnext : ∀ value, Q value → Meets answer P (Returns R) (next value)) :
    Meets answer P (Returns R) (p >>= next) :=
  h.andThen fun
    | .ok value, hvalue => hnext value hvalue
    | .error _, _ => trivial

/-- A program whose value does not matter, before another. -/
theorem seq {R : γ → Prop} {next : β → Program ρ α ω ε γ}
    (h : Meets answer P (Returns fun _ => True) p)
    (hnext : ∀ value, Meets answer P (Returns R) (next value)) :
    Meets answer P (Returns R) (p >>= next) :=
  h.bind fun value _ => hnext value

theorem attempt {Q : β → Prop} {handle : ε → Program ρ α ω ε β}
    (h : Meets answer P (Returns Q) p)
    (hhandle : ∀ error, Meets answer P (Returns Q) (handle error)) :
    Meets answer P (Returns Q) (p.attempt handle) :=
  h.andThen fun
    | .ok _, hvalue => hvalue
    | .error error, _ => hhandle error

theorem pure {Q : β → Prop} {value : β} (h : Q value) :
    Meets answer P (Returns Q) (Pure.pure value : Program ρ α ω ε β) := h

theorem throw {Q : β → Prop} (error : ε) :
    Meets answer P (Returns Q) (Program.throw error : Program ρ α ω ε β) := trivial

theorem ofExcept {Q : β → Prop} {result : Except ε β} (h : ∀ value, result = .ok value → Q value) :
    Meets answer P (Returns Q) (Program.ofExcept result : Program ρ α ω ε β) := by
  cases result with
  | ok value => exact h value rfl
  | error error => trivial

theorem ask {r : ρ} {Q : α r → Prop} (h : ∀ s, P (.asked r s) ∧ Q (answer r s)) :
    Meets answer P (Returns Q) (Program.ask r : Program ρ α ω ε (α r)) := h

theorem send {message : ω} (h : P (.sent message)) :
    Meets answer P (Returns fun _ => True) (Program.send message : Program ρ α ω ε Unit) :=
  ⟨h, trivial⟩

/-- A loop whose body keeps to the condition. -/
theorem forEach {body : γ → Program ρ α ω ε Unit} {items : List γ}
    (h : ∀ item ∈ items, Meets answer P (Returns fun _ => True) (body item)) :
    Meets answer P (Returns fun _ => True) (Program.forEach body items) := by
  induction items with
  | nil => exact trivial
  | cons item items ih =>
    rw [List.forall_mem_cons] at h
    exact h.1.seq fun _ => ih h.2

end Meets

end Program

end DanceSync
