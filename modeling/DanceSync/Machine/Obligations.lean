import DanceSync.Machine.Interleaving
import DanceSync.Machine.Program

/-!
# Programs that owe

Several programs run at once on a shared state. A piece of a program sends one message, or makes one
request and gets its answer; any other program may go on in between. A request may leave further
programs running, for which its own program does not wait.

An answer may oblige its program to something: messages that it has to send, requests that it has to
make. An account says what an answer obliges to and what a message or a request pays, in any
commutative monoid. What a program owes is computed from the program, one rule for each way to build
programs, as it is with `Program.Meets`; only answers that the state can give are considered, and an
error may be thrown by a program that owes nothing.

In every interleaving of programs that owe nothing when they start, what the answers obliged to is
what was paid and what the programs under way still owe.

## Main definitions

* `Program.piece`, `concurrent`: programs as interleaved tasks.
* `Account`, `Program.Settles`: what a program owes.
* `Account.Balanced`.

## Main results

* `Program.Settles.bind`, `Program.Settles.attempt`, `Program.Settles.forEach`: the rules.
* `Account.balanced_run`: the account of a run is balanced.
* `Account.Balanced.of_idle`: nothing is owed when no program is under way.
-/

namespace DanceSync

/-- What happens in a run of several programs: a request is answered, or a message is sent. -/
inductive Happened (ρ : Type) (α : ρ → Type) (ω : Type)
  | asked (r : ρ) (answer : α r)
  | sent (message : ω)

variable {ρ σ ω ε β γ κ M : Type} {α : ρ → Type}

/-- One piece of a program. A request is answered from the shared state, which it may change, and
from what the piece reads from outside; then the program goes on beside the ones that the request
forks. -/
def Program.piece (perform : κ → (r : ρ) → σ → α r × σ) (forks : ρ → List (Program ρ α ω ε β))
    (env : κ) : Program ρ α ω ε β → σ → Resumed σ (Program ρ α ω ε β) (Happened ρ α ω)
  | .done _, s => { shared := s }
  | .request r next, s =>
    { shared := (perform env r s).2
      tasks := next (perform env r s).1 :: forks r
      emitted := [.asked r (perform env r s).1] }
  | .emit message next, s => { shared := s, tasks := [next], emitted := [.sent message] }

/-- The state of several programs. -/
abbrev Programs (σ ρ : Type) (α : ρ → Type) (ω ε β : Type) :=
  World σ (Program ρ α ω ε β) (Happened ρ α ω)

/-- All interleavings of programs. -/
def concurrent (perform : κ → (r : ρ) → σ → α r × σ) (forks : ρ → List (Program ρ α ω ε β)) :
    Machine (Programs σ ρ α ω ε β) (Turn κ (Program ρ α ω ε β)) (List (Happened ρ α ω)) :=
  interleaving (Program.piece perform forks)

/-- What answers oblige to, and what requests and messages pay. -/
structure Account (ρ : Type) (α : ρ → Type) (ω M : Type) where
  /-- The answers that are given. -/
  possible : (r : ρ) → α r → Prop
  due : (r : ρ) → α r → M
  asked : ρ → M
  sent : ω → M

namespace Account

variable [AddCommMonoid M] (A : Account ρ α ω M)

def dueFor : Happened ρ α ω → M
  | .asked r answer => A.due r answer
  | .sent _ => 0

def paidBy : Happened ρ α ω → M
  | .asked r _ => A.asked r
  | .sent message => A.sent message

/-- What the answers of a run oblige to. -/
def dues (log : List (Happened ρ α ω)) : M := (log.map A.dueFor).sum

/-- What the requests and messages of a run pay. -/
def payments (log : List (Happened ρ α ω)) : M := (log.map A.paidBy).sum

theorem dues_append (log log' : List (Happened ρ α ω)) :
    A.dues (log ++ log') = A.dues log + A.dues log' := by
  rw [dues, List.map_append, List.sum_append]
  rfl

theorem payments_append (log log' : List (Happened ρ α ω)) :
    A.payments (log ++ log') = A.payments log + A.payments log' := by
  rw [payments, List.map_append, List.sum_append]
  rfl

end Account

namespace Program

variable [AddCommMonoid M]

/-- A program that owes an amount pays it, with all that its answers add, until it owes `rest` of
the value that it returns. -/
def Settles (A : Account ρ α ω M) (rest : β → M) : Program ρ α ω ε β → M → Prop
  | done (.ok value), owed => owed = rest value
  | done (.error _), owed => owed = 0
  | request r next, owed => ∃ left, owed = A.asked r + left ∧
    ∀ answer, A.possible r answer → Settles A rest (next answer) (left + A.due r answer)
  | emit message next, owed => ∃ left, owed = A.sent message + left ∧ Settles A rest next left

namespace Settles

variable {A : Account ρ α ω M} {rest : β → M} {rest' : γ → M} {owed : M}
  {p : Program ρ α ω ε β}

theorem andThen {next : Except ε β → Program ρ α ω ε γ} (h : p.Settles A rest owed)
    (hvalue : ∀ value, (next (.ok value)).Settles A rest' (rest value))
    (herror : ∀ error, (next (.error error)).Settles A rest' 0) :
    (p.andThen next).Settles A rest' owed := by
  induction p generalizing owed with
  | done result =>
    cases result with
    | ok value => exact h ▸ hvalue value
    | error error => exact h ▸ herror error
  | request r more ih =>
    obtain ⟨left, howed, hanswer⟩ := h
    exact ⟨left, howed, fun answer hpossible => ih answer (hanswer answer hpossible)⟩
  | emit message more ih =>
    obtain ⟨left, howed, hmore⟩ := h
    exact ⟨left, howed, ih hmore⟩

/-- One program after another. -/
theorem bind {next : β → Program ρ α ω ε γ} (h : p.Settles A rest owed)
    (hnext : ∀ value, (next value).Settles A rest' (rest value)) :
    (p >>= next).Settles A rest' owed :=
  h.andThen hnext fun _ => rfl

theorem attempt {handle : ε → Program ρ α ω ε β} (h : p.Settles A rest owed)
    (hhandle : ∀ error, (handle error).Settles A rest 0) : (p.attempt handle).Settles A rest owed :=
  h.andThen (fun _ => rfl) hhandle

theorem pure {value : β} (h : owed = rest value) :
    (Pure.pure value : Program ρ α ω ε β).Settles A rest owed := h

theorem throw {error : ε} : (Program.throw error : Program ρ α ω ε β).Settles A rest 0 := rfl

/-- A request whose answers may oblige to something, before another program. -/
theorem askThen {r : ρ} {next : α r → Program ρ α ω ε γ} (hasked : A.asked r = 0)
    (h : ∀ answer, A.possible r answer → (next answer).Settles A rest' (owed + A.due r answer)) :
    (Program.ask r >>= next).Settles A rest' owed :=
  ⟨owed, by rw [hasked, zero_add], h⟩

/-- A computation without requests, before another program. -/
theorem ofExceptThen {result : Except ε β} {next : β → Program ρ α ω ε γ}
    (h : ∀ value, result = .ok value → (next value).Settles A rest' 0) :
    (Program.ofExcept result >>= next).Settles A rest' 0 := by
  cases result with
  | ok value => exact h value rfl
  | error error => rfl

/-- A request that pays. -/
theorem pay {r : ρ} {left : M} (howed : owed = A.asked r + left)
    (h : ∀ answer, A.possible r answer → A.due r answer = 0) :
    (Program.ask r : Program ρ α ω ε (α r)).Settles A (fun _ => left) owed :=
  ⟨left, howed, fun answer hanswer => by
    rw [h answer hanswer, add_zero]
    rfl⟩

/-- A request that neither pays nor obliges. -/
theorem look {r : ρ} (hasked : A.asked r = 0)
    (h : ∀ answer, A.possible r answer → A.due r answer = 0) :
    (Program.ask r : Program ρ α ω ε (α r)).Settles A (fun _ => owed) owed :=
  pay (by rw [hasked, zero_add]) h

/-- A message that pays. -/
theorem send {message : ω} {left : M} (howed : owed = A.sent message + left) :
    (Program.send message : Program ρ α ω ε Unit).Settles A (fun _ => left) owed :=
  ⟨left, howed, rfl⟩

/-- A message that pays nothing. -/
theorem tell {message : ω} (h : A.sent message = 0) :
    (Program.send message : Program ρ α ω ε Unit).Settles A (fun _ => owed) owed :=
  send (by rw [h, zero_add])

/-- A loop whose body leaves what is owed. -/
theorem forEach {body : γ → Program ρ α ω ε Unit} {items : List γ}
    (h : ∀ item ∈ items, (body item).Settles A (fun _ => owed) owed) :
    (Program.forEach body items).Settles A (fun _ => owed) owed := by
  induction items with
  | nil => exact pure rfl
  | cons item items ih =>
    rw [List.forall_mem_cons] at h
    exact h.1.bind fun _ => ih h.2

end Settles

end Program

namespace Account

variable [AddCommMonoid M] {A : Account ρ α ω M} {perform : κ → (r : ρ) → σ → α r × σ}
  {forks : ρ → List (Program ρ α ω ε β)} {w w' : Programs σ ρ α ω ε β}
  {turn : Turn κ (Program ρ α ω ε β)} {emitted : List (Happened ρ α ω)}

/-- What the answers of the past obliged to is what was paid and what the programs under way owe. -/
def Balanced (A : Account ρ α ω M) (w : Programs σ ρ α ω ε β) : Prop :=
  ∃ owed : List M, List.Forall₂ (fun amount p => Program.Settles A 0 p amount) owed w.tasks ∧
    A.dues w.log = A.payments w.log + owed.sum

/-- Programs that owe nothing. -/
theorem forall₂_settles_zero {programs : List (Program ρ α ω ε β)}
    (h : ∀ p ∈ programs, p.Settles A 0 0) :
    List.Forall₂ (fun amount p => Program.Settles A 0 p amount) (programs.map fun _ => 0)
      programs := by
  rw [List.forall₂_map_left_iff, List.forall₂_same]
  exact h

/-- A program goes on: what its piece obliges to and what it pays changes what it owes. -/
theorem settles_piece (hpossible : ∀ env r s, A.possible r (perform env r s).1)
    (hforks : ∀ r, ∀ p ∈ forks r, p.Settles A 0 0) {p : Program ρ α ω ε β} {amount : M}
    (h : p.Settles A 0 amount) (env : κ) (s : σ) :
    ∃ owed : List M, List.Forall₂ (fun amount p => Program.Settles A 0 p amount) owed
        (p.piece perform forks env s).tasks ∧
      amount + A.dues (p.piece perform forks env s).emitted =
        A.payments (p.piece perform forks env s).emitted + owed.sum := by
  cases p with
  | done result =>
    have hzero : amount = 0 := by
      cases result <;> exact h
    exact ⟨[], .nil, by simp [hzero, Program.piece, dues, payments]⟩
  | request r next =>
    obtain ⟨left, rfl, hanswer⟩ := h
    refine ⟨(left + A.due r (perform env r s).1) :: (forks r).map fun _ => 0,
      .cons (hanswer _ (hpossible env r s)) (forall₂_settles_zero (hforks r)), ?_⟩
    simp only [Program.piece, dues, payments, List.map_cons, List.map_nil, List.sum_cons,
      List.sum_nil, dueFor, paidBy, List.sum_map_zero, add_zero]
    exact add_assoc _ _ _
  | emit message next =>
    obtain ⟨left, rfl, hnext⟩ := h
    exact ⟨[left], .cons hnext .nil, by simp [Program.piece, dues, payments, dueFor, paidBy]⟩

/-- A turn keeps the account balanced, when a program owes nothing as it starts. -/
theorem Balanced.turned (hpossible : ∀ env r s, A.possible r (perform env r s).1)
    (hforks : ∀ r, ∀ p ∈ forks r, p.Settles A 0 0)
    (h : Turned (Program.piece perform forks) w turn w' emitted)
    (hspawn : ∀ p ∈ turn.spawned?, p.Settles A 0 0) (hw : A.Balanced w) : A.Balanced w' := by
  cases h with
  | idle => exact hw
  | spawned p =>
    obtain ⟨owed, howed, hbalance⟩ := hw
    refine ⟨owed ++ [0], List.rel_append howed (.cons (hspawn p rfl) .nil), ?_⟩
    rw [hbalance, List.sum_append, List.sum_singleton, add_zero]
  | @resumed index env p others htask htasks =>
    obtain ⟨owed, howed, hbalance⟩ := hw
    -- The amounts in the order in which the program that goes on comes first.
    obtain ⟨owed', hperm, howed'⟩ :
        ∃ owed', owed.Perm owed' ∧
          List.Forall₂ (fun amount p => Program.Settles A 0 p amount) owed' (p :: others) := by
      have hcomp := List.forall₂_comp_perm_eq_perm_comp_forall₂
        (r := fun amount (p : Program ρ α ω ε β) => p.Settles A 0 amount)
      exact (congrFun (congrFun hcomp owed) (p :: others)).mp ⟨w.tasks, howed, htasks⟩
    obtain ⟨amount, rest, hp, hothers, rfl⟩ := List.forall₂_cons_right_iff.mp howed'
    obtain ⟨more, hmore, hpiece⟩ := settles_piece hpossible hforks hp env w.shared
    refine ⟨rest ++ more, List.rel_append hothers hmore, ?_⟩
    rw [dues_append, payments_append, hbalance, hperm.sum_eq, List.sum_cons, List.sum_append]
    calc
      A.payments w.log + (amount + rest.sum) + A.dues (p.piece perform forks env w.shared).emitted =
          A.payments w.log + (amount + A.dues (p.piece perform forks env w.shared).emitted) +
            rest.sum := by abel
      _ = A.payments w.log + A.payments (p.piece perform forks env w.shared).emitted +
            (rest.sum + more.sum) := by
          rw [hpiece]
          abel

/-- The account is balanced in every interleaving of programs that owe nothing as they start. -/
theorem balanced_run (hpossible : ∀ env r s, A.possible r (perform env r s).1)
    (hforks : ∀ r, ∀ p ∈ forks r, p.Settles A 0 0) {turns : List (Turn κ (Program ρ α ω ε β))}
    (hspawn : ∀ turn ∈ turns, ∀ p ∈ turn.spawned?, p.Settles A 0 0) (hw : A.Balanced w) :
    A.Balanced ((concurrent perform forks).run w turns) :=
  Machine.run_invariant (M := concurrent perform forks) (P := A.Balanced) (fun e he h =>
    h.turned hpossible hforks (turned_of_mem_trace he)
      (hspawn e.input (Machine.input_mem_of_mem_trace he))) hw

/-- Before anything happened, nothing is owed. -/
theorem balanced_start (A : Account ρ α ω M) (s : σ) :
    A.Balanced (⟨s, [], []⟩ : Programs σ ρ α ω ε β) :=
  ⟨[], .nil, by simp [dues, payments]⟩

/-- When no program is under way, everything is paid. -/
theorem Balanced.of_idle (h : A.Balanced w) (hidle : w.tasks = []) :
    A.dues w.log = A.payments w.log := by
  obtain ⟨owed, howed, hbalance⟩ := h
  rw [hidle, List.forall₂_nil_right_iff] at howed
  rw [hbalance, howed, List.sum_nil, add_zero]

end Account

end DanceSync
