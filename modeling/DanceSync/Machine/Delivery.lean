import DanceSync.Machine.Run

/-!
# Requests that are tried again

Clients each have one request for a server. A client sends it and waits; when the response does not
come in time, or says that the failure may pass, the client sends the request once more after a
pause, up to a number of attempts, and then gives up. The network may lose requests and responses
and may delay them as it likes: a request may be served long after its client has stopped waiting
for it, or has returned. A schedule says which request is served, which response arrives and which
attempt fails; a request that is never served is lost, and so is a response that never arrives.

The requests that were served are distinct attempts of the clients, and the server has handled them
in the order of its responses.

## Main definitions

* `Backend`, `Policy`: the server with what clients make of its responses, and how often they try.
* `Network`, `delivery`: the clients, the server and what is on the way, and the machine of moves.

## Main results

* `Tracked.run`: the attempts, the pauses and the grounds of every result.
* `Tracked.length_served_le`: a request is served at most once for each attempt.
* `vouched_run`: what the responses promise of the server when they are made, and what serving
  keeps, holds of it after every run.
* `countP_goesOn_le`, `goesOn_of_not_returned`: a client goes on only so often, and always can.
-/

namespace DanceSync.Delivery

variable {ι σ ρ β : Type}

/-- What a client makes of a response. -/
inductive Verdict where
  | delivered
  /-- The failure may pass on a retry. -/
  | passing
  | refused
  deriving DecidableEq

/-- A server with the verdicts on its responses. -/
structure Backend (σ ρ β : Type) where
  serve : σ → ρ → σ × β
  verdict : β → Verdict

/-- The number of attempts, and the pause before the second one, which is doubled before each
further one. -/
structure Policy where
  attempts : ℕ
  baseDelay : ℕ

/-- The pauses before the attempts that follow the first one. -/
def Policy.pauses (policy : Policy) (k : ℕ) : List ℕ :=
  (List.range k).map fun k => policy.baseDelay * 2 ^ k

/-! ### Clients -/

/-- Where a client is. -/
inductive Phase where
  /-- Before its next attempt. -/
  | sending
  | awaiting
  | returned (delivered : Bool)
  deriving DecidableEq

/-- A client with the attempts and the pauses it has made. -/
structure Client where
  sent : ℕ := 0
  paused : List ℕ := []
  phase : Phase := .sending
  deriving DecidableEq

namespace Client

variable (policy : Policy) (c : Client)

def send : Client := { c with sent := c.sent + 1, phase := .awaiting }

/-- An attempt has failed, and another one may help. -/
def retry : Client :=
  if c.sent < policy.attempts then
    { c with paused := c.paused ++ [policy.baseDelay * 2 ^ (c.sent - 1)], phase := .sending }
  else { c with phase := .returned false }

def receive : Verdict → Client
  | .delivered => { c with phase := .returned true }
  | .passing => c.retry policy
  | .refused => { c with phase := .returned false }

end Client

/-! ### The network -/

/-- The server and the clients, with the attempts that may still be served and the responses to
those that were. An attempt is named by its client and its number. -/
structure Network (ι σ β : Type) where
  server : σ
  clients : ι → Client := fun _ => {}
  requests : List (ι × ℕ) := []
  responses : List ((ι × ℕ) × β) := []

/-- What happens next. -/
inductive Move (ι : Type) where
  /-- A client makes its next attempt. -/
  | send (i : ι)
  /-- A request reaches the server. -/
  | serve (attempt : ι × ℕ)
  /-- The response to the last attempt reaches its client. -/
  | receive (i : ι)
  /-- The last attempt of a client fails without a response. -/
  | fail (i : ι)

namespace Network

variable [DecidableEq ι] (backend : Backend σ ρ β) (policy : Policy) (request : ι → ρ)
  (n : Network ι σ β)

/-- The attempts that the server has handled, in order. -/
def served : List (ι × ℕ) := n.responses.map (·.1)

/-- The response to the last attempt of a client. -/
def response (i : ι) : Option β :=
  (n.responses.find? fun r => r.1 = (i, (n.clients i).sent)).map (·.2)

/-- Client `i` goes on as `c`. -/
def enter (i : ι) (c : Client) : Network ι σ β :=
  { n with clients := Function.update n.clients i c }

def send (i : ι) : Network ι σ β :=
  { n.enter i (n.clients i).send with requests := n.requests ++ [(i, (n.clients i).sent + 1)] }

def serve (attempt : ι × ℕ) : Network ι σ β :=
  { n with
    server := (backend.serve n.server (request attempt.1)).1
    requests := n.requests.erase attempt
    responses := n.responses ++ [(attempt, (backend.serve n.server (request attempt.1)).2)] }

def step : Move ι → Network ι σ β
  | .send i => if (n.clients i).phase = .sending then n.send i else n
  | .serve attempt => if attempt ∈ n.requests then n.serve backend request attempt else n
  | .receive i =>
    match (n.clients i).phase, n.response i with
    | .awaiting, some b => n.enter i ((n.clients i).receive policy (backend.verdict b))
    | _, _ => n
  | .fail i =>
    if (n.clients i).phase = .awaiting then n.enter i ((n.clients i).retry policy) else n

end Network

/-- The machine of the moves of a network. -/
def delivery [DecidableEq ι] (backend : Backend σ ρ β) (policy : Policy) (request : ι → ρ) :
    Machine (Network ι σ β) (Move ι) Unit where
  step n move := (n.step backend policy request move, ())

section Delivery

variable [DecidableEq ι] {backend : Backend σ ρ β} {policy : Policy} {request : ι → ρ}
  {n n' : Network ι σ β} {move : Move ι} {moves : List (Move ι)} {i : ι}

theorem next_delivery : (delivery backend policy request).next n move =
    n.step backend policy request move := rfl

/-! ### What a move does -/

/-- What a move comes to. -/
inductive Stepped (backend : Backend σ ρ β) (policy : Policy) (request : ι → ρ)
    (n : Network ι σ β) : Network ι σ β → Prop
  | idle : Stepped backend policy request n n
  | sends {i : ι} (hphase : (n.clients i).phase = .sending) :
      Stepped backend policy request n (n.send i)
  | serves {attempt : ι × ℕ} (hmem : attempt ∈ n.requests) :
      Stepped backend policy request n (n.serve backend request attempt)
  | receives {i : ι} {b : β} (hphase : (n.clients i).phase = .awaiting)
      (hmem : ((i, (n.clients i).sent), b) ∈ n.responses) :
      Stepped backend policy request n
        (n.enter i ((n.clients i).receive policy (backend.verdict b)))
  | fails {i : ι} (hphase : (n.clients i).phase = .awaiting) :
      Stepped backend policy request n (n.enter i ((n.clients i).retry policy))

theorem mem_responses_of_response {b : β} (h : n.response i = some b) :
    ((i, (n.clients i).sent), b) ∈ n.responses := by
  obtain ⟨⟨attempt, b⟩, hfind, rfl⟩ := Option.map_eq_some_iff.mp h
  have hattempt := List.find?_some hfind
  obtain rfl : attempt = (i, (n.clients i).sent) := of_decide_eq_true hattempt
  exact List.mem_of_find?_eq_some hfind

theorem stepped (move : Move ι) :
    Stepped backend policy request n (n.step backend policy request move) := by
  cases move with
  | send i =>
    rw [Network.step]
    split_ifs with hphase
    · exact .sends hphase
    · exact .idle
  | serve attempt =>
    rw [Network.step]
    split_ifs with hmem
    · exact .serves hmem
    · exact .idle
  | receive i =>
    simp only [Network.step]
    split
    next b hphase hresponse => exact .receives hphase (mem_responses_of_response hresponse)
    next => exact .idle
  | fail i =>
    rw [Network.step]
    split_ifs with hphase
    · exact .fails hphase
    · exact .idle

/-! ### Attempts, pauses and results -/

/-- What a result rests on: the server has accepted the request; or it has refused it, or no
attempt is left. -/
def Grounds (backend : Backend σ ρ β) (policy : Policy) (n : Network ι σ β) (i : ι) : Bool → Prop
  | true => ∃ k b, ((i, k), b) ∈ n.responses ∧ backend.verdict b = .delivered
  | false => (n.clients i).sent = policy.attempts ∨
      ∃ k b, ((i, k), b) ∈ n.responses ∧ backend.verdict b = .refused

/-- The attempts of a client are within their number, and there was a pause before each of them
but the first. -/
def Client.Keeps (policy : Policy) (c : Client) : Prop :=
  match c.phase with
  | .sending => c.sent < policy.attempts ∧ c.paused = policy.pauses c.sent
  | _ => 0 < c.sent ∧ c.sent ≤ policy.attempts ∧ c.paused = policy.pauses (c.sent - 1)

theorem Client.Keeps.sent_le {c : Client} (h : c.Keeps policy) : c.sent ≤ policy.attempts := by
  rw [Client.Keeps] at h
  split at h
  · exact h.1.le
  · exact h.2.1

theorem Client.Keeps.exists_pauses {c : Client} (h : c.Keeps policy) :
    ∃ k < policy.attempts, c.paused = policy.pauses k := by
  rw [Client.Keeps] at h
  split at h
  · exact ⟨_, h.1, h.2⟩
  · exact ⟨c.sent - 1, by omega, h.2.2⟩

theorem Client.Keeps.of_awaiting {c : Client} (h : c.Keeps policy) (hphase : c.phase = .awaiting) :
    0 < c.sent ∧ c.sent ≤ policy.attempts ∧ c.paused = policy.pauses (c.sent - 1) := by
  simpa only [Client.Keeps, hphase] using h

theorem Client.Keeps.send {c : Client} (h : c.Keeps policy) (hphase : c.phase = .sending) :
    c.send.Keeps policy := by
  simp only [Client.Keeps, hphase] at h
  exact ⟨Nat.succ_pos _, h.1, h.2⟩

theorem Client.Keeps.retry {c : Client} (h : c.Keeps policy) (hphase : c.phase = .awaiting) :
    (c.retry policy).Keeps policy := by
  obtain ⟨hpos, hle, hpaused⟩ := h.of_awaiting hphase
  rw [Client.retry]
  split_ifs with hlt
  · refine ⟨hlt, ?_⟩
    obtain ⟨k, hk⟩ := Nat.exists_eq_add_of_lt hpos
    simp only [hpaused, hk, Policy.pauses]
    simp [List.range_succ]
  · exact ⟨hpos, hle, hpaused⟩

theorem Client.Keeps.receive {c : Client} (h : c.Keeps policy) (hphase : c.phase = .awaiting)
    (verdict : Verdict) : (c.receive policy verdict).Keeps policy := by
  cases verdict with
  | passing => exact h.retry hphase
  | delivered | refused => exact h.of_awaiting hphase

@[simp] theorem Client.sent_retry (c : Client) : (c.retry policy).sent = c.sent := by
  rw [Client.retry]
  split_ifs <;> rfl

@[simp] theorem Client.sent_receive (c : Client) (verdict : Verdict) :
    (c.receive policy verdict).sent = c.sent := by
  cases verdict with
  | passing => exact c.sent_retry
  | delivered | refused => rfl

/-- What holds in every state of a network. -/
structure Tracked (backend : Backend σ ρ β) (policy : Policy) (n : Network ι σ β) : Prop where
  clients : ∀ i, (n.clients i).Keeps policy
  grounds : ∀ i result, (n.clients i).phase = .returned result → Grounds backend policy n i result
  nodup : (n.requests ++ n.served).Nodup
  attempts : ∀ a ∈ n.requests ++ n.served, 0 < a.2 ∧ a.2 ≤ (n.clients a.1).sent

omit [DecidableEq ι] in
/-- A result keeps its grounds when the client stays as it is. -/
theorem Grounds.mono {result : Bool} (h : Grounds backend policy n i result)
    (hsent : (n'.clients i).sent = (n.clients i).sent)
    (hresponses : ∀ r ∈ n.responses, r ∈ n'.responses) : Grounds backend policy n' i result := by
  cases result with
  | true =>
    obtain ⟨k, b, hmem, hverdict⟩ := h
    exact ⟨k, b, hresponses _ hmem, hverdict⟩
  | false =>
    rcases h with h | ⟨k, b, hmem, hverdict⟩
    · exact Or.inl (hsent.trans h)
    · exact Or.inr ⟨k, b, hresponses _ hmem, hverdict⟩

/-- A client that goes on without an attempt. -/
theorem Tracked.enter {c : Client} (h : Tracked backend policy n) (hc : c.Keeps policy)
    (hsent : c.sent = (n.clients i).sent)
    (hgrounds : ∀ result, c.phase = .returned result →
      Grounds backend policy (n.enter i c) i result) :
    Tracked backend policy (n.enter i c) where
  clients k := by
    by_cases hk : k = i
    · subst hk
      simpa [Network.enter] using hc
    · simpa [Network.enter, hk] using h.clients k
  grounds k result hphase := by
    by_cases hk : k = i
    · subst hk
      exact hgrounds result (by simpa [Network.enter] using hphase)
    · simp only [Network.enter, Function.update_of_ne hk] at hphase
      exact (h.grounds k result hphase).mono (by simp [Network.enter, hk]) fun r hr => hr
  nodup := h.nodup
  attempts a ha := by
    have hle := h.attempts a ha
    by_cases hk : a.1 = i
    · subst hk
      simpa [Network.enter, hsent] using hle
    · simpa [Network.enter, hk] using hle

theorem Tracked.send (h : Tracked backend policy n) (hphase : (n.clients i).phase = .sending) :
    Tracked backend policy (n.send i) where
  clients k := by
    by_cases hk : k = i
    · subst hk
      simpa [Network.send, Network.enter] using (h.clients k).send hphase
    · simpa [Network.send, Network.enter, hk] using h.clients k
  grounds k result hreturned := by
    by_cases hk : k = i
    · subst hk
      simp [Network.send, Network.enter, Client.send] at hreturned
    · simp only [Network.send, Network.enter, Function.update_of_ne hk] at hreturned
      exact (h.grounds k result hreturned).mono (by simp [Network.send, Network.enter, hk])
        fun r hr => hr
  nodup := by
    have hnew : (i, (n.clients i).sent + 1) ∉ n.requests ++ n.served := fun hmem =>
      absurd (h.attempts _ hmem).2 (Nat.not_succ_le_self _)
    have hperm : ((n.send i).requests ++ (n.send i).served).Perm
        ((i, (n.clients i).sent + 1) :: (n.requests ++ n.served)) := by
      simp [Network.send, Network.served, Network.enter, List.perm_middle]
    exact hperm.nodup_iff.mpr (List.nodup_cons.mpr ⟨hnew, h.nodup⟩)
  attempts a ha := by
    have hcases : a ∈ n.requests ++ n.served ∨ a = (i, (n.clients i).sent + 1) := by
      simp only [Network.send, Network.served, Network.enter, List.mem_append,
        List.mem_singleton] at ha ⊢
      tauto
    rcases hcases with ha | rfl
    · obtain ⟨hpos, hle⟩ := h.attempts a ha
      refine ⟨hpos, ?_⟩
      by_cases hk : a.1 = i
      · subst hk
        simpa [Network.send, Network.enter, Client.send] using hle.trans (Nat.le_succ _)
      · simpa [Network.send, Network.enter, hk] using hle
    · simp [Network.send, Network.enter, Client.send]

theorem Tracked.serve {attempt : ι × ℕ} (h : Tracked backend policy n)
    (hmem : attempt ∈ n.requests) : Tracked backend policy (n.serve backend request attempt) := by
  have hperm : ((n.serve backend request attempt).requests ++
      (n.serve backend request attempt).served).Perm (n.requests ++ n.served) := by
    have hserved : (n.serve backend request attempt).served = n.served ++ [attempt] := by
      simp [Network.serve, Network.served]
    rw [hserved, ← List.append_assoc]
    refine (List.perm_append_singleton ..).trans ?_
    exact ((List.perm_cons_erase hmem).append_right n.served).symm
  exact {
    clients := h.clients
    grounds := fun k result hphase =>
      (h.grounds k result hphase).mono rfl fun r hr => List.mem_append_left _ hr
    nodup := hperm.nodup_iff.mpr h.nodup
    attempts := fun a ha => h.attempts a (hperm.mem_iff.mp ha) }

theorem Tracked.retry (h : Tracked backend policy n) (hphase : (n.clients i).phase = .awaiting) :
    Tracked backend policy (n.enter i ((n.clients i).retry policy)) := by
  refine h.enter ((h.clients i).retry hphase) (Client.sent_retry _) fun result hreturned => ?_
  rw [Client.retry] at hreturned
  split_ifs at hreturned with hlt
  obtain rfl : false = result := Phase.returned.inj hreturned
  left
  have hle := ((h.clients i).of_awaiting hphase).2.1
  simpa [Network.enter] using le_antisymm hle (not_lt.mp hlt)

theorem Tracked.step (h : Tracked backend policy n) (hstep : Stepped backend policy request n n') :
    Tracked backend policy n' := by
  cases hstep with
  | idle => exact h
  | sends hphase => exact h.send hphase
  | serves hmem => exact h.serve hmem
  | fails hphase => exact h.retry hphase
  | @receives i b hphase hmem =>
    cases hverdict : backend.verdict b with
    | passing => exact h.retry hphase
    | delivered =>
      refine h.enter ((h.clients i).receive hphase _) (Client.sent_receive ..) fun result hr => ?_
      obtain rfl : true = result := Phase.returned.inj hr
      exact ⟨_, b, hmem, hverdict⟩
    | refused =>
      refine h.enter ((h.clients i).receive hphase _) (Client.sent_receive ..) fun result hr => ?_
      obtain rfl : false = result := Phase.returned.inj hr
      exact Or.inr ⟨_, b, hmem, hverdict⟩

omit [DecidableEq ι] in
theorem tracked_start (hpos : 0 < policy.attempts) (server : σ) :
    Tracked backend policy ({ server } : Network ι σ β) where
  clients _ := ⟨hpos, rfl⟩
  grounds _ _ hphase := nomatch hphase
  nodup := List.nodup_nil
  attempts _ ha := nomatch ha

/-- Every state of a network that starts with a server is tracked. -/
theorem Tracked.run (hpos : 0 < policy.attempts) (server : σ) :
    Tracked backend policy ((delivery backend policy request).run { server } moves) :=
  Machine.run_invariant (fun e he h => by
    rw [Machine.event_of_mem_trace he]
    exact h.step (stepped e.input)) (tracked_start hpos server)

/-- A request is served at most once for each attempt that was made. -/
theorem Tracked.length_served_le (h : Tracked backend policy n) (i : ι) :
    (n.served.filter fun a => a.1 = i).length ≤ (n.clients i).sent := by
  have hnodup : ((n.served.filter fun a => a.1 = i).map (·.2)).Nodup := by
    refine ((List.nodup_append.mp h.nodup).2.1.filter _).map_on fun a ha b hb hab => ?_
    have ha := of_decide_eq_true (List.mem_filter.mp ha).2
    have hb := of_decide_eq_true (List.mem_filter.mp hb).2
    exact Prod.ext (ha.trans hb.symm) hab
  have hsubset : (n.served.filter fun a => a.1 = i).map (·.2) ⊆
      List.range' 1 (n.clients i).sent := by
    intro k hk
    obtain ⟨a, ha, rfl⟩ := List.mem_map.mp hk
    obtain ⟨hmem, hi⟩ := List.mem_filter.mp ha
    obtain ⟨hpos, hle⟩ := h.attempts a (List.mem_append_right _ hmem)
    rw [of_decide_eq_true hi] at hle
    rw [List.mem_range'_1]
    omega
  simpa using (hnodup.subperm hsubset).length_le

/-! ### The server -/

section Server

variable {P : σ → Prop} {Q : ι → β → σ → Prop}

/-- The server has a property, and the responses that were made speak of it. -/
structure Vouched (P : σ → Prop) (Q : ι → β → σ → Prop) (n : Network ι σ β) : Prop where
  server : P n.server
  responses : ∀ r ∈ n.responses, Q r.1.1 r.2 n.server

variable (hserve : ∀ i s, P s → P (backend.serve s (request i)).1)
  (hmakes : ∀ i s, P s → Q i (backend.serve s (request i)).2 (backend.serve s (request i)).1)
  (hkeeps : ∀ i k b s, P s → Q i b s → Q i b (backend.serve s (request k)).1)

include hserve hmakes hkeeps

theorem Vouched.step (h : Vouched P Q n) (hstep : Stepped backend policy request n n') :
    Vouched P Q n' := by
  cases hstep with
  | idle => exact h
  | sends | receives | fails => exact ⟨h.server, h.responses⟩
  | @serves attempt hmem =>
    refine ⟨hserve _ _ h.server, fun r hr => ?_⟩
    rcases List.mem_append.mp hr with hr | hr
    · exact hkeeps _ _ _ _ h.server (h.responses r hr)
    · obtain rfl := List.mem_singleton.mp hr
      exact hmakes _ _ h.server

/-- What a response promises when it is made, and what serving keeps, holds after every run. -/
theorem vouched_run {n : Network ι σ β} (h : Vouched P Q n) (moves : List (Move ι)) :
    Vouched P Q ((delivery backend policy request).run n moves) :=
  Machine.run_invariant (fun e he h => by
    rw [Machine.event_of_mem_trace he]
    exact h.step hserve hmakes hkeeps (stepped e.input)) h

end Server

/-! ### Clients return -/

/-- What a client may still do. -/
def Client.remaining (policy : Policy) (c : Client) : ℕ :=
  match c.phase with
  | .sending => 2 * (policy.attempts - c.sent)
  | .awaiting => 2 * (policy.attempts - c.sent) + 1
  | .returned _ => 0

/-- The event changes a client. -/
def GoesOn (i : ι) (e : Machine.Event (Network ι σ β) (Move ι) Unit) : Bool :=
  e.before.clients i ≠ e.after.clients i

theorem Client.remaining_retry {c : Client} (hphase : c.phase = .awaiting) :
    (c.retry policy).remaining policy < c.remaining policy := by
  rw [Client.retry]
  split_ifs <;> simp only [Client.remaining, hphase] <;> omega

theorem Client.remaining_receive {c : Client} (hphase : c.phase = .awaiting) (verdict : Verdict) :
    (c.receive policy verdict).remaining policy < c.remaining policy := by
  cases verdict with
  | passing => exact remaining_retry hphase
  | delivered | refused => simp [receive, Client.remaining, hphase]

theorem Client.Keeps.remaining_send {c : Client} (h : c.Keeps policy)
    (hphase : c.phase = .sending) : c.send.remaining policy < c.remaining policy := by
  simp only [Client.Keeps, hphase] at h
  simp only [Client.remaining, Client.send, hphase]
  omega

/-- Another client goes on, or this one does and has less left to do. -/
theorem Stepped.remaining (hstep : Stepped backend policy request n n')
    (h : Tracked backend policy n) (i : ι) : n'.clients i = n.clients i ∨
      (n'.clients i).remaining policy < (n.clients i).remaining policy := by
  cases hstep with
  | idle | serves => exact Or.inl rfl
  | @sends k hphase =>
    by_cases hk : i = k
    · subst hk
      exact Or.inr (by simpa [Network.send, Network.enter] using
        (h.clients i).remaining_send hphase)
    · exact Or.inl (by simp [Network.send, Network.enter, hk])
  | @receives k b hphase =>
    by_cases hk : i = k
    · subst hk
      exact Or.inr (by simpa [Network.enter] using Client.remaining_receive hphase _)
    · exact Or.inl (by simp [Network.enter, hk])
  | @fails k hphase =>
    by_cases hk : i = k
    · subst hk
      exact Or.inr (by simpa [Network.enter] using Client.remaining_retry hphase)
    · exact Or.inl (by simp [Network.enter, hk])

/-- A client goes on at most twice for each attempt. -/
theorem countP_goesOn_le (hpos : 0 < policy.attempts) (server : σ) (i : ι) :
    ((delivery backend policy request).trace { server } moves).countP (GoesOn i) ≤
      2 * policy.attempts := by
  have hremaining : ∀ e ∈ (delivery backend policy request).trace { server } moves,
      e.after.clients i = e.before.clients i ∨
        (e.after.clients i).remaining policy < (e.before.clients i).remaining policy := by
    intro e he
    obtain ⟨pre, move, post, -, rfl⟩ := (Machine.mem_trace_iff _).mp he
    have htracked : Tracked backend policy
        ((delivery backend policy request).run { server } pre) := Tracked.run hpos server
    have hstep : Stepped backend policy request
        ((delivery backend policy request).run { server } pre) _ := stepped move
    exact hstep.remaining htracked i
  refine Machine.countP_trace_le (fun n : Network ι σ β => (n.clients i).remaining policy)
    (fun e he hgoes => ?_) fun e he => ?_
  · have hne : e.before.clients i ≠ e.after.clients i := of_decide_eq_true hgoes
    exact (hremaining e he).resolve_left fun h => hne h.symm
  · rcases hremaining e he with h | h
    · rw [h]
    · exact h.le

/-- A client that has not returned goes on when it sends or when its attempt fails. -/
theorem goesOn_of_not_returned (backend : Backend σ ρ β) (policy : Policy) (request : ι → ρ)
    (n : Network ι σ β) (i : ι) (h : ∀ result, (n.clients i).phase ≠ .returned result) :
    ((delivery backend policy request).next n (.send i)).clients i ≠ n.clients i ∨
      ((delivery backend policy request).next n (.fail i)).clients i ≠ n.clients i := by
  cases hphase : (n.clients i).phase with
  | returned result => exact absurd hphase (h result)
  | sending =>
    left
    intro heq
    have hsent := congrArg Client.sent heq
    simp [next_delivery, Network.step, hphase, Network.send, Network.enter, Client.send] at hsent
  | awaiting =>
    right
    intro heq
    have hlt : ((n.clients i).retry policy).remaining policy < (n.clients i).remaining policy :=
      Client.remaining_retry hphase
    simp only [next_delivery, Network.step, hphase, if_true, Network.enter,
      Function.update_self] at heq
    rw [heq] at hlt
    exact lt_irrefl _ hlt

end Delivery

end DanceSync.Delivery
