import DanceSync.Machine.Obligations

/-!
# Programs over a larger interface

A program whose surroundings understand more requests and messages than it uses. There it owes what
it owes on its own.

## Main definitions

* `Program.lift`: the program over the larger interface.
* `Account.extend`: an account in which nothing else pays or obliges.

## Main results

* `Program.Settles.lift`: a program owes as much over the larger interface.
-/

namespace DanceSync

variable {ρ ρ' ω ω' ε β M : Type} {α : ρ → Type} {α' : ρ' → Type}

namespace Program

/-- The program, where other programs make other requests and send other messages. -/
def lift : Program ρ α ω ε β → Program (ρ ⊕ ρ') (Sum.elim α α') (ω ⊕ ω') ε β
  | done result => done result
  | request r next => request (.inl r) fun answer => lift (next answer)
  | emit message next => emit (.inl message) (lift next)

end Program

/-- The account, where other requests and messages neither pay nor oblige. -/
def Account.extend [AddCommMonoid M] (A : Account ρ α ω M) :
    Account (ρ ⊕ ρ') (Sum.elim α α') (ω ⊕ ω') M where
  possible
    | .inl r => A.possible r
    | .inr _ => fun _ => True
  due
    | .inl r => A.due r
    | .inr _ => fun _ => 0
  asked := Sum.elim A.asked 0
  sent := Sum.elim A.sent 0

/-- A program owes as much over the larger interface. -/
theorem Program.Settles.lift [AddCommMonoid M] {A : Account ρ α ω M} {rest : β → M} {owed : M}
    {p : Program ρ α ω ε β} (h : p.Settles A rest owed) :
    (p.lift : Program (ρ ⊕ ρ') (Sum.elim α α') (ω ⊕ ω') ε β).Settles A.extend rest owed := by
  induction p generalizing owed with
  | done result =>
    cases result with
    | ok value => exact h
    | error error => exact h
  | request r next ih =>
    obtain ⟨left, howed, hanswer⟩ := h
    exact ⟨left, howed, fun answer hpossible => ih answer (hanswer answer hpossible)⟩
  | emit message next ih =>
    obtain ⟨left, howed, hnext⟩ := h
    exact ⟨left, howed, ih hnext⟩

end DanceSync
