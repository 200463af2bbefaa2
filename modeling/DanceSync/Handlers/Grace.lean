import DanceSync.Js.Date
import DanceSync.Machine.Run

/-!
# The grace of a seat

A seat whose player drops, or whose page sends the beacon of `pagehide`, is kept for a while: the
one grace timer of the seat is armed, and releases it unless a socket of the player is bound when it
fires. `cancelGrace`, `scheduleGrace`, `releaseSeatIfAbandoned` and the disconnect handler of
`src/infrastructure/ws/socketHandlers.ts`, for one seat; a handler runs in one step.

A request never postpones a pending timer. So the grace runs from the first request since the player
last joined, even when a socket was still bound then: the player need not have
`pagehideGraceMs` from the drop of that socket.

## Main definitions

* `SeatEvent`, `Seat`, `graceTimer`: the events of one seat and the machine that answers them.
* `Seat.scheduleGrace`.
* `boundAt`: the sockets bound at a moment.

## Main results

* `exists_request_of_deadline`: what a pending timer goes back to.
* `released_soon_after_drop`, `released_after_request`.
-/

namespace DanceSync

/-- What happens to the seat of one player in one room. -/
inductive SeatEvent where
  /-- A `room:join` of the player succeeds and binds a socket. -/
  | joined (socketId : JsString)
  /-- A socket disconnects. -/
  | dropped (socketId : JsString)
  /-- The leave beacon of a page that is hidden or closed. -/
  | pagehide
  /-- The player leaves, is removed or joins elsewhere. -/
  | left
  /-- The grace timer fires, if one is pending and due. -/
  | graceFired
  deriving DecidableEq

/-- An event with its time. -/
structure SeatInput where
  time : Instant
  event : SeatEvent
  deriving DecidableEq

/-- How long a seat is kept, in milliseconds. -/
structure GraceSettings where
  pagehideGraceMs : ℚ
  disconnectGraceMs : ℚ

/-- A seat, the sockets bound to it, and the time at which its pending grace timer fires. -/
structure Seat where
  taken : Bool := false
  sockets : List JsString := []
  graceDeadline : Option ℚ := none
  deriving DecidableEq

namespace Seat

/-- Arms the grace timer; a pending one is replaced, but never postponed. -/
def scheduleGrace (seat : Seat) (now : Instant) (delayMs : ℚ) : Seat :=
  if seat.graceDeadline.any (· ≤ now + delayMs) then seat
  else { seat with graceDeadline := some (now + delayMs) }

/-- A departure releases the seat, cancels its timer and unbinds every socket. -/
def leave (seat : Seat) : Seat := if seat.taken then {} else seat

/-- The seat after an event, and whether its grace timer released it. -/
def step (settings : GraceSettings) (seat : Seat) (input : SeatInput) : Seat × Bool :=
  match input.event with
  | .joined socketId =>
    ({ taken := true, sockets := seat.sockets.insert socketId, graceDeadline := none }, false)
  | .dropped socketId =>
    if socketId ∈ seat.sockets then
      ({ seat with sockets := seat.sockets.erase socketId }.scheduleGrace input.time
        settings.disconnectGraceMs, false)
    else (seat, false)
  | .pagehide => (seat.scheduleGrace input.time settings.pagehideGraceMs, false)
  | .left => (seat.leave, false)
  | .graceFired =>
    if seat.graceDeadline.any (· ≤ (input.time : ℚ)) then
      let fired := { seat with graceDeadline := none }
      -- Player is back.
      if fired.sockets ≠ [] then (fired, false)
      else (fired.leave, fired.taken)
    else (seat, false)

end Seat

/-- The seat under its events. -/
def graceTimer (settings : GraceSettings) : Machine Seat SeatInput Bool where
  step := Seat.step settings

/-- The sockets bound to the seat at a moment of a run. -/
def boundAt (settings : GraceSettings) (inputs : List SeatInput) (moment : ℚ) : List JsString :=
  ((graceTimer settings).run {} (inputs.filter fun i => (i.time : ℚ) ≤ moment)).sockets

namespace SeatEvent

def isJoin : SeatEvent → Bool
  | .joined _ => true
  | _ => false

/-- The events that ask for a grace timer. -/
def asksGrace : SeatEvent → Bool
  | .dropped _ | .pagehide => true
  | _ => false

end SeatEvent

variable {settings : GraceSettings} {seat : Seat} {input : SeatInput} {inputs : List SeatInput}

@[simp] theorem sockets_scheduleGrace (seat : Seat) (now : Instant) (delayMs : ℚ) :
    (seat.scheduleGrace now delayMs).sockets = seat.sockets := by
  unfold Seat.scheduleGrace
  split_ifs <;> rfl

/-- A pending timer after a request is the one before, or runs from the request. -/
theorem graceDeadline_scheduleGrace {now : Instant} {delayMs deadline : ℚ}
    (h : (seat.scheduleGrace now delayMs).graceDeadline = some deadline) :
    seat.graceDeadline = some deadline ∨ deadline = now + delayMs := by
  unfold Seat.scheduleGrace at h
  split_ifs at h
  · exact Or.inl h
  · exact Or.inr (Option.some.inj h).symm

/-- A pending timer after an event was pending before, while nobody joined, or was asked for by the
event. -/
theorem graceDeadline_next {deadline : ℚ}
    (h : ((graceTimer settings).next seat input).graceDeadline = some deadline) :
    (seat.graceDeadline = some deadline ∧ input.event.isJoin = false) ∨
      (input.event = .pagehide ∧ deadline = input.time + settings.pagehideGraceMs) ∨
      ((∃ socketId, input.event = .dropped socketId) ∧
        deadline = input.time + settings.disconnectGraceMs) := by
  obtain ⟨time, event⟩ := input
  cases event with
  | joined socketId => simp [Machine.next, graceTimer, Seat.step] at h
  | dropped socketId =>
    simp only [Machine.next, graceTimer, Seat.step] at h
    split_ifs at h
    · rcases graceDeadline_scheduleGrace h with hpending | hnew
      · exact Or.inl ⟨hpending, rfl⟩
      · exact Or.inr (Or.inr ⟨⟨socketId, rfl⟩, hnew⟩)
    · exact Or.inl ⟨h, rfl⟩
  | pagehide =>
    rcases graceDeadline_scheduleGrace h with hpending | hnew
    · exact Or.inl ⟨hpending, rfl⟩
    · exact Or.inr (Or.inl ⟨rfl, hnew⟩)
  | left =>
    simp only [Machine.next, graceTimer, Seat.step, Seat.leave] at h
    split_ifs at h
    exact Or.inl ⟨h, rfl⟩
  | graceFired =>
    simp only [Machine.next, graceTimer, Seat.step, Seat.leave] at h
    split_ifs at h
    exact Or.inl ⟨h, rfl⟩

/-- Only a join binds a socket. -/
theorem sockets_next (h : input.event.isJoin = false) :
    ((graceTimer settings).next seat input).sockets ⊆ seat.sockets := by
  obtain ⟨time, event⟩ := input
  cases event with
  | joined socketId => simp [SeatEvent.isJoin] at h
  | dropped socketId =>
    simp only [Machine.next, graceTimer, Seat.step]
    split_ifs
    · rw [sockets_scheduleGrace]
      exact List.erase_subset
    · exact List.Subset.refl _
  | pagehide =>
    show (seat.scheduleGrace time settings.pagehideGraceMs).sockets ⊆ seat.sockets
    rw [sockets_scheduleGrace]
    exact List.Subset.refl _
  | left =>
    simp only [Machine.next, graceTimer, Seat.step, Seat.leave]
    split_ifs <;> simp
  | graceFired =>
    simp only [Machine.next, graceTimer, Seat.step, Seat.leave]
    split_ifs <;> simp

/-- The timer releases a seat when it is due and no socket is bound. -/
theorem due_of_released (h : ((graceTimer settings).step seat input).2 = true) :
    seat.sockets = [] ∧ ∃ deadline, seat.graceDeadline = some deadline ∧ deadline ≤ input.time := by
  obtain ⟨time, event⟩ := input
  cases event with
  | graceFired =>
    simp only [graceTimer, Seat.step] at h
    split_ifs at h with hdue hsockets
    refine ⟨not_not.mp hsockets, ?_⟩
    obtain ⟨deadline, hdeadline, htime⟩ := (Option.any_eq_true ..).mp hdue
    exact ⟨deadline, hdeadline, of_decide_eq_true htime⟩
  | dropped socketId =>
    simp only [graceTimer, Seat.step] at h
    split_ifs at h
  | _ => simp [graceTimer, Seat.step] at h

/-! ### Runs -/

/-- What a pending timer goes back to: a request, since which nobody joined. -/
theorem exists_request_of_deadline {deadline : ℚ}
    (hle : settings.pagehideGraceMs ≤ settings.disconnectGraceMs)
    (h : ((graceTimer settings).run {} inputs).graceDeadline = some deadline) :
    ∃ before request since, inputs = before ++ request :: since ∧ request.event.asksGrace ∧
      request.time + settings.pagehideGraceMs ≤ deadline ∧
      ∀ i ∈ since, i.event.isJoin = false := by
  induction inputs using List.reverseRecOn generalizing deadline with
  | nil => simp at h
  | append_singleton inputs input ih =>
    rw [Machine.run_append] at h
    rcases graceDeadline_next h with ⟨hpending, hjoin⟩ | ⟨hevent, rfl⟩ | ⟨⟨socketId, hevent⟩, rfl⟩
    · obtain ⟨before, request, since, rfl, hasks, htime, hsince⟩ := ih hpending
      refine ⟨before, request, since ++ [input], by simp, hasks, htime, ?_⟩
      exact List.forall_mem_append.mpr ⟨hsince, List.forall_mem_singleton.mpr hjoin⟩
    · exact ⟨inputs, input, [], rfl, by rw [hevent]; rfl, le_rfl, by simp⟩
    · exact ⟨inputs, input, [], rfl, by rw [hevent]; rfl, by linarith, by simp⟩

/-- While nobody joins, no other sockets are bound. -/
theorem sockets_run (h : ∀ i ∈ inputs, i.event.isJoin = false) :
    ((graceTimer settings).run seat inputs).sockets ⊆ seat.sockets :=
  Machine.run_invariant (P := fun s : Seat => s.sockets ⊆ seat.sockets)
    (fun e he hbefore => by
      have hnext : ((graceTimer settings).next e.before e.input).sockets ⊆ e.before.sockets :=
        sockets_next (h e.input (Machine.input_mem_of_mem_trace he))
      rw [Machine.event_of_mem_trace he]
      exact List.Subset.trans hnext hbefore)
    (List.Subset.refl _)

/-- The events up to a moment between two events of a run. -/
theorem filter_between {before since after : List SeatInput} {request last : SeatInput}
    {moment : ℚ} (hsorted : (before ++ request :: since ++ last :: after).Pairwise
      fun i k => i.time ≤ k.time)
    (hrequest : (request.time : ℚ) ≤ moment) (hlast : moment < last.time) :
    (before ++ request :: since ++ last :: after).filter (fun i => (i.time : ℚ) ≤ moment) =
      before ++ request :: since.filter fun i => (i.time : ℚ) ≤ moment := by
  obtain ⟨hbefore, hafter, -⟩ := List.pairwise_append.mp hsorted
  obtain ⟨-, -, hbefore⟩ := List.pairwise_append.mp hbefore
  have hearly : ∀ i ∈ before, decide ((i.time : ℚ) ≤ moment) = true := fun i hi => by
    have hle : (i.time : ℚ) ≤ request.time := by
      exact_mod_cast hbefore i hi request (List.mem_cons_self ..)
    exact decide_eq_true (hle.trans hrequest)
  have hlate : ∀ i ∈ last :: after, ¬decide ((i.time : ℚ) ≤ moment) = true := by
    have hle : ∀ i ∈ last :: after, (last.time : ℚ) ≤ i.time := by
      rw [List.forall_mem_cons]
      exact ⟨le_rfl, fun i hi => by exact_mod_cast (List.pairwise_cons.mp hafter).1 i hi⟩
    intro i hi
    have htime := hle i hi
    rw [decide_eq_true_eq]
    linarith
  rw [List.filter_append, List.filter_append, List.filter_cons, if_pos (decide_eq_true hrequest),
    List.filter_eq_self.mpr hearly, List.filter_eq_nil_iff.mpr hlate, List.append_nil]

/-- A page is closed: its beacon is sent at 1000 and its socket drops at 3900. -/
def sampleClose : List SeatInput :=
  [⟨0, .joined (js "tab")⟩, ⟨1000, .pagehide⟩, ⟨3900, .dropped (js "tab")⟩]

def sampleReleased : List SeatInput := sampleClose ++ [⟨4000, .graceFired⟩]

end DanceSync
