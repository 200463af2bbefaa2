import DanceSync.Handlers.Grace

/-!
# Seats that nobody uses

What releases a seat without a socket, of `src/infrastructure/ws/socketHandlers.ts`: the grace
timer, the timer of a room created over HTTP whose host has not connected (`watchNewRoom`), and
the `sweep` behind both, which remembers since when a seat has had no socket and releases it after
the grace of a disconnect. Each tries `releaseSeatIfAbandoned`, whose departure may fail and leave
the seat as it was. All for one seat; a handler runs in one step.

No timer is left after a departure that failed, and only the sweep tries again. A sweep leaves a
seat alone while one of its timers is pending, so a beacon that arms one puts the sweep off, but
never for longer than the grace it asks for.

## Main definitions

* `WatchEvent`, `WatchedSeat`, `seatWatch`: the events of one seat and the machine that answers
  them.
* `NotEarly`: no timer of a run fires before its deadline.
* `Punctual`: no timer of a run is late by more than a given time.

## Main results

* `released_without_sockets`: no seat is released soon after its player joined.
* `abandoned_seat_released`: every seat without a socket is released in a bounded time.
-/

namespace DanceSync

/-- What happens to the seat of one player in one room. A departure that is tried may fail. -/
inductive WatchEvent where
  /-- The player creates the room over HTTP. -/
  | created
  /-- A `room:join` of the player succeeds and binds a socket. -/
  | joined (socketId : JsString)
  /-- A socket disconnects. -/
  | dropped (socketId : JsString)
  /-- The leave beacon of a page that is hidden or closed. -/
  | pagehide
  /-- The player leaves, is removed or joins elsewhere. -/
  | left
  /-- The grace timer fires, if one is pending. -/
  | graceFired (fails : Bool)
  /-- The timer of a new room fires, if it is pending. -/
  | newRoomFired (fails : Bool)
  | sweep (fails : Bool)
  deriving DecidableEq

/-- An event with its time. -/
structure WatchInput where
  time : Instant
  event : WatchEvent
  deriving DecidableEq

structure WatchSettings extends GraceSettings where
  createdRoomGraceMs : ℚ

/-- A seat with the time at which its timer for a new room fires, and since when it has been seen
without a socket. -/
structure WatchedSeat extends Seat where
  newRoomDeadline : Option ℚ := none
  unboundSince : Option Instant := none
  deriving DecidableEq

namespace WatchedSeat

variable (seat : WatchedSeat)

def scheduleGrace (now : Instant) (delayMs : ℚ) : WatchedSeat :=
  if seat.graceDeadline.any (· ≤ now + delayMs) then seat
  else { seat with
    graceDeadline := some (now + delayMs)
    unboundSince := some (seat.unboundSince.getD now) }

def leave : WatchedSeat := { seat with toSeat := seat.toSeat.leave }

/-- The seat after the attempt, and whether it was released. -/
def releaseSeatIfAbandoned (fails : Bool) : WatchedSeat × Bool :=
  -- Player is back, or the departure throws.
  if seat.sockets ≠ [] ∨ fails then (seat, false) else (seat.leave, seat.taken)

def watchNewRoom (now : Instant) (createdRoomGraceMs : ℚ) : WatchedSeat :=
  { seat with unboundSince := some now, newRoomDeadline := some (now + createdRoomGraceMs) }

/-- The pass of a sweep over the seat. -/
def sweep (disconnectGraceMs : ℚ) (now : Instant) (fails : Bool) : WatchedSeat × Bool :=
  -- A seat that is gone is forgotten.
  if !seat.taken then ({ seat with unboundSince := none }, false)
  else if seat.sockets ≠ [] then ({ seat with unboundSince := none }, false)
  -- A pending timer will decide this seat on its own.
  else if seat.graceDeadline.isSome || seat.newRoomDeadline.isSome then (seat, false)
  else
    match seat.unboundSince with
    | none => ({ seat with unboundSince := some now }, false)
    | some since =>
      if disconnectGraceMs ≤ (now - since : ℚ) then
        { seat with unboundSince := none }.releaseSeatIfAbandoned fails
      else (seat, false)

/-- The seat after an event, and whether it was released. -/
def step (settings : WatchSettings) (input : WatchInput) : WatchedSeat × Bool :=
  match input.event with
  | .created =>
    ({ seat with taken := true }.watchNewRoom input.time settings.createdRoomGraceMs, false)
  | .joined socketId =>
    ({ seat with
      taken := true
      sockets := seat.sockets.insert socketId
      graceDeadline := none
      unboundSince := none }, false)
  | .dropped socketId =>
    if socketId ∈ seat.sockets then
      ({ seat with sockets := seat.sockets.erase socketId }.scheduleGrace input.time
        settings.disconnectGraceMs, false)
    else (seat, false)
  | .pagehide => (seat.scheduleGrace input.time settings.pagehideGraceMs, false)
  | .left => (seat.leave, false)
  | .graceFired fails =>
    -- The callbacks read no clock: a timer that fires too early counts all the same.
    if seat.graceDeadline.isSome then
      { seat with graceDeadline := none }.releaseSeatIfAbandoned fails
    else (seat, false)
  | .newRoomFired fails =>
    if seat.newRoomDeadline.isSome then
      -- A pending disconnect grace means the host did connect: that timer decides.
      if seat.graceDeadline.isSome then ({ seat with newRoomDeadline := none }, false)
      else { seat with newRoomDeadline := none }.releaseSeatIfAbandoned fails
    else (seat, false)
  | .sweep fails => seat.sweep settings.disconnectGraceMs input.time fails

end WatchedSeat

/-- The watches of a seat under its events. -/
def seatWatch (settings : WatchSettings) : Machine WatchedSeat WatchInput Bool where
  step seat input := seat.step settings input

namespace WatchSettings

variable (settings : WatchSettings)

/-- The shortest time for which a seat is kept. -/
def shortest : ℚ :=
  min settings.pagehideGraceMs (min settings.disconnectGraceMs settings.createdRoomGraceMs)

/-- The longest time for which a timer is armed. -/
def longest : ℚ :=
  max settings.pagehideGraceMs (max settings.disconnectGraceMs settings.createdRoomGraceMs)

theorem shortest_le : settings.shortest ≤ settings.pagehideGraceMs ∧
    settings.shortest ≤ settings.disconnectGraceMs ∧
    settings.shortest ≤ settings.createdRoomGraceMs := by
  simp [shortest]

theorem le_longest : settings.pagehideGraceMs ≤ settings.longest ∧
    settings.disconnectGraceMs ≤ settings.longest ∧
    settings.createdRoomGraceMs ≤ settings.longest := by
  simp [longest]

end WatchSettings

namespace WatchEvent

def isJoin : WatchEvent → Bool
  | .joined _ => true
  | _ => false

def isSweep : WatchEvent → Bool
  | .sweep _ => true
  | _ => false

/-- Nobody takes the seat, and a departure that is tried goes through. -/
def isQuiet : WatchEvent → Bool
  | .created | .joined _ => false
  | .graceFired fails | .newRoomFired fails | .sweep fails => !fails
  | _ => true

end WatchEvent

variable {settings : WatchSettings} {seat : WatchedSeat} {input : WatchInput}

/-! ### What an event does -/

namespace WatchedSeat

/-- A request for a grace leaves a timer pending, the one before or a new one. -/
theorem exists_scheduleGrace (seat : WatchedSeat) (now : Instant) (delayMs : ℚ) : ∃ deadline since,
    seat.scheduleGrace now delayMs =
      { seat with graceDeadline := some deadline, unboundSince := since } ∧
    deadline ≤ now + delayMs ∧
    (seat.graceDeadline = some deadline ∧ since = seat.unboundSince ∨
      deadline = now + delayMs ∧ since = some (seat.unboundSince.getD now) ∧
        ∀ g ∈ seat.graceDeadline, now + delayMs < g) := by
  rw [scheduleGrace]
  split_ifs with hpending
  · obtain ⟨deadline, hdeadline, hle⟩ := (Option.any_eq_true ..).mp hpending
    refine ⟨deadline, seat.unboundSince, ?_, of_decide_eq_true hle, Or.inl ⟨hdeadline, rfl⟩⟩
    obtain ⟨⟨taken, sockets, _⟩, _, _⟩ := seat
    simp only at hdeadline
    rw [hdeadline]
  · refine ⟨_, _, rfl, le_rfl, Or.inr ⟨rfl, rfl, fun g hg => ?_⟩⟩
    by_contra hle
    exact hpending ((Option.any_eq_true ..).mpr ⟨g, hg, decide_eq_true (not_lt.mp hle)⟩)

/-- An attempt does nothing, or the seat has no socket and its player leaves. -/
theorem releaseSeatIfAbandoned_cases (seat : WatchedSeat) (fails : Bool) :
    seat.releaseSeatIfAbandoned fails = (seat, false) ∧ (seat.sockets ≠ [] ∨ fails = true) ∨
      seat.releaseSeatIfAbandoned fails = (seat.leave, seat.taken) ∧ seat.sockets = [] := by
  rw [releaseSeatIfAbandoned]
  split_ifs with h
  · exact Or.inl ⟨rfl, h⟩
  · exact Or.inr ⟨rfl, not_not.mp (not_or.mp h).1⟩

theorem leave_cases (seat : WatchedSeat) : seat.taken = false ∧ seat.leave = seat ∨
    seat.taken = true ∧ seat.leave =
      { seat with taken := false, sockets := [], graceDeadline := none } := by
  rw [leave, Seat.leave]
  cases h : seat.taken with
  | false => exact Or.inl ⟨rfl, rfl⟩
  | true => exact Or.inr ⟨rfl, rfl⟩

end WatchedSeat

/-! ### Not too early -/

/-- A timer that fires has reached its deadline. -/
def WatchedSeat.Due (seat : WatchedSeat) (input : WatchInput) : Prop :=
  match input.event with
  | .graceFired _ => ∀ g ∈ seat.graceDeadline, g ≤ input.time
  | .newRoomFired _ => ∀ n ∈ seat.newRoomDeadline, n ≤ input.time
  | _ => True

instance (seat : WatchedSeat) (input : WatchInput) : Decidable (seat.Due input) := by
  unfold WatchedSeat.Due
  split <;> infer_instance

/-- No timer of a run fires before its deadline. -/
def NotEarly (settings : WatchSettings) (inputs : List WatchInput) : Prop :=
  ∀ e ∈ (seatWatch settings).trace {} inputs, e.before.Due e.input

instance (settings : WatchSettings) (inputs : List WatchInput) :
    Decidable (NotEarly settings inputs) :=
  inferInstanceAs (Decidable (∀ e ∈ _, _))

/-- Nor does one of a beginning of the run. -/
theorem NotEarly.of_append {inputs later : List WatchInput}
    (h : NotEarly settings (inputs ++ later)) : NotEarly settings inputs := fun e he =>
  h e (by rw [Machine.trace_append]; exact List.mem_append_left _ he)

theorem NotEarly.due {before after : List WatchInput}
    (h : NotEarly settings (before ++ input :: after)) :
    ((seatWatch settings).run {} before).Due input :=
  h ((seatWatch settings).event _ input)
    ((Machine.mem_trace_iff _).mpr ⟨before, input, after, rfl, rfl⟩)

/-- What a join at some moment still means for the seat. -/
structure JoinedAt (settings : WatchSettings) (moment now : ℚ) (seat : WatchedSeat) : Prop where
  grace : ∀ g ∈ seat.graceDeadline, moment + settings.shortest ≤ g
  since : ∀ u ∈ seat.unboundSince, moment ≤ u
  /-- A seat without sockets and without a timer lost its timer when it fired. -/
  bare : seat.taken = true → seat.sockets = [] → seat.graceDeadline = none →
    moment + settings.shortest ≤ now ∨ ∃ n ∈ seat.newRoomDeadline, moment + settings.shortest ≤ n

namespace JoinedAt

variable {moment now : ℚ}

theorem mono (h : JoinedAt settings moment now seat) {later : ℚ} (hle : now ≤ later) :
    JoinedAt settings moment later seat where
  grace := h.grace
  since := h.since
  bare htaken hsockets hgrace := (h.bare htaken hsockets hgrace).imp_left fun h => h.trans hle

theorem scheduleGrace {time : Instant} {delayMs : ℚ} {sockets : List JsString}
    (h : JoinedAt settings moment now seat) (hmoment : moment ≤ time)
    (hdelay : settings.shortest ≤ delayMs) : JoinedAt settings moment time
      ({ seat with sockets }.scheduleGrace time delayMs) := by
  obtain ⟨deadline, since, heq, -, hcases⟩ :=
    WatchedSeat.exists_scheduleGrace { seat with sockets } time delayMs
  rw [heq]
  refine ⟨?_, ?_, by simp⟩
  · rintro g ⟨⟩
    rcases hcases with ⟨hdeadline, -⟩ | ⟨rfl, -⟩
    · exact h.grace _ hdeadline
    · linarith
  · intro u hu
    rcases hcases with ⟨-, rfl⟩ | ⟨-, rfl, -⟩
    · exact h.since u hu
    · obtain rfl := Option.some.inj hu
      cases hsince : seat.unboundSince with
      | none => simpa [hsince] using hmoment
      | some u => simpa [hsince] using h.since u hsince

theorem leave (h : JoinedAt settings moment now seat) :
    JoinedAt settings moment now seat.leave := by
  rcases seat.leave_cases with ⟨-, heq⟩ | ⟨-, heq⟩
  · rwa [heq]
  · rw [heq]
    exact ⟨by simp, h.since, by simp⟩

theorem releaseSeatIfAbandoned (h : JoinedAt settings moment now seat) (fails : Bool) :
    JoinedAt settings moment now (seat.releaseSeatIfAbandoned fails).1 := by
  rcases seat.releaseSeatIfAbandoned_cases fails with ⟨heq, -⟩ | ⟨heq, -⟩
  · rwa [heq]
  · rw [heq]
    exact h.leave

/-- A grace timer that has fired. -/
theorem graceFired {time : Instant} (h : JoinedAt settings moment now seat)
    (hpending : seat.graceDeadline.isSome) (hdue : ∀ g ∈ seat.graceDeadline, g ≤ time) :
    JoinedAt settings moment time { seat with graceDeadline := none } := by
  obtain ⟨g, hg⟩ := Option.isSome_iff_exists.mp hpending
  exact ⟨by simp, h.since, fun _ _ _ => Or.inl ((h.grace g hg).trans (hdue g hg))⟩

/-- A timer of a new room that has fired. -/
theorem newRoomFired {time : Instant} (h : JoinedAt settings moment now seat) (hnow : now ≤ time)
    (hpending : seat.newRoomDeadline.isSome) (hdue : ∀ n ∈ seat.newRoomDeadline, n ≤ time) :
    JoinedAt settings moment time { seat with newRoomDeadline := none } := by
  obtain ⟨n, hn⟩ := Option.isSome_iff_exists.mp hpending
  refine ⟨h.grace, h.since, fun htaken hsockets hgrace => Or.inl ?_⟩
  rcases h.bare htaken hsockets hgrace with hpast | ⟨n', hn', hpast⟩
  · exact hpast.trans hnow
  · obtain rfl := Option.some.inj (hn.symm.trans hn')
    exact hpast.trans (hdue n hn)

theorem sweep {time : Instant} (h : JoinedAt settings moment now seat) (hmoment : moment ≤ time)
    (fails : Bool) : JoinedAt settings moment now
      (seat.sweep settings.disconnectGraceMs time fails).1 := by
  have hforgotten : JoinedAt settings moment now { seat with unboundSince := none } :=
    ⟨h.grace, by simp, h.bare⟩
  rw [WatchedSeat.sweep]
  split_ifs with htaken hsockets htimers
  · exact hforgotten
  · exact hforgotten
  · exact h
  · split
    · exact ⟨h.grace, by simpa using hmoment, h.bare⟩
    · split_ifs
      · exact hforgotten.releaseSeatIfAbandoned fails
      · exact h

theorem next (h : JoinedAt settings moment now seat) (hmoment : moment ≤ now)
    (hnow : now ≤ input.time) (hdue : seat.Due input) :
    JoinedAt settings moment input.time ((seatWatch settings).next seat input) := by
  obtain ⟨hpagehide, hdisconnect, hcreated⟩ := settings.shortest_le
  have hmoment' := hmoment.trans hnow
  obtain ⟨time, event⟩ := input
  cases event with
  | created =>
    refine ⟨h.grace, ?_, fun _ _ _ => Or.inr ⟨_, rfl, ?_⟩⟩
    · rintro u ⟨⟩
      exact hmoment'
    · show moment + settings.shortest ≤ time + settings.createdRoomGraceMs
      linarith
  | joined socketId =>
    refine ⟨by simp [seatWatch, Machine.next, WatchedSeat.step],
      by simp [seatWatch, Machine.next, WatchedSeat.step], fun _ hsockets => ?_⟩
    exact absurd hsockets (List.ne_nil_of_mem List.mem_insert_self)
  | dropped socketId =>
    simp only [Machine.next, seatWatch, WatchedSeat.step]
    split_ifs
    · exact h.scheduleGrace hmoment' hdisconnect
    · exact h.mono hnow
  | pagehide => exact h.scheduleGrace hmoment' hpagehide
  | left => exact (h.mono hnow).leave
  | graceFired fails =>
    simp only [Machine.next, seatWatch, WatchedSeat.step]
    split_ifs with hpending
    · exact (h.graceFired hpending hdue).releaseSeatIfAbandoned fails
    · exact h.mono hnow
  | newRoomFired fails =>
    simp only [Machine.next, seatWatch, WatchedSeat.step]
    split_ifs with hpending
    · exact h.newRoomFired hnow hpending hdue
    · exact (h.newRoomFired hnow hpending hdue).releaseSeatIfAbandoned fails
    · exact h.mono hnow
  | sweep fails => exact (h.mono hnow).sweep hmoment' fails

end JoinedAt

/-- What a seat is when it is released. -/
theorem sockets_of_released (h : ((seatWatch settings).step seat input).2 = true)
    (hdue : seat.Due input) :
    seat.taken = true ∧ seat.sockets = [] ∧
      ((∃ g ∈ seat.graceDeadline, g ≤ input.time) ∨ seat.graceDeadline = none ∧
        ((∃ n ∈ seat.newRoomDeadline, n ≤ input.time) ∨ seat.newRoomDeadline = none)) ∧
      (input.event.isSweep → ∃ u ∈ seat.unboundSince,
        u + settings.disconnectGraceMs ≤ input.time) := by
  have hreleased : ∀ {s : WatchedSeat} {fails : Bool},
      (s.releaseSeatIfAbandoned fails).2 = true → s.taken = true ∧ s.sockets = [] := by
    intro s fails h
    rcases s.releaseSeatIfAbandoned_cases fails with ⟨heq, -⟩ | ⟨heq, hsockets⟩
    · simp [heq] at h
    · exact ⟨by simpa [heq] using h, hsockets⟩
  obtain ⟨time, event⟩ := input
  cases event with
  | graceFired fails =>
    simp only [seatWatch, WatchedSeat.step] at h
    split_ifs at h with hpending
    obtain ⟨g, hg⟩ := Option.isSome_iff_exists.mp hpending
    obtain ⟨htaken, hsockets⟩ := hreleased h
    exact ⟨htaken, hsockets, Or.inl ⟨g, hg, hdue g hg⟩, by simp [WatchEvent.isSweep]⟩
  | newRoomFired fails =>
    simp only [seatWatch, WatchedSeat.step] at h
    split_ifs at h with hpending hgrace
    obtain ⟨n, hn⟩ := Option.isSome_iff_exists.mp hpending
    obtain ⟨htaken, hsockets⟩ := hreleased h
    exact ⟨htaken, hsockets, Or.inr ⟨by simpa using hgrace, Or.inl ⟨n, hn, hdue n hn⟩⟩,
      by simp [WatchEvent.isSweep]⟩
  | sweep fails =>
    simp only [seatWatch, WatchedSeat.step, WatchedSeat.sweep] at h
    split_ifs at h with htaken hsockets htimers
    simp only [Bool.or_eq_true, Option.isSome_iff_ne_none, ne_eq, not_or, not_not] at htimers
    split at h
    · simp at h
    next u hu =>
      split_ifs at h with hdue
      refine ⟨by simpa using htaken, not_not.mp hsockets,
        Or.inr ⟨htimers.1, Or.inr htimers.2⟩, fun _ => ⟨u, hu, ?_⟩⟩
      show (u : ℚ) + settings.disconnectGraceMs ≤ time
      linarith
  | dropped socketId =>
    simp only [seatWatch, WatchedSeat.step] at h
    split_ifs at h
  | _ => simp [seatWatch, WatchedSeat.step] at h

/-- What a join means later in a run, at the time of the last event. -/
theorem joinedAt_run {pre mid : List WatchInput} {join : WatchInput}
    (hsorted : (pre ++ join :: mid).Pairwise fun i k => i.time ≤ k.time)
    (hearly : NotEarly settings (pre ++ join :: mid)) (hjoin : join.event.isJoin) :
    ∃ now : Instant, join.time ≤ now ∧
      (∃ i ∈ pre ++ join :: mid, i.time = now) ∧
      JoinedAt settings join.time now ((seatWatch settings).run {} (pre ++ join :: mid)) := by
  induction mid using List.reverseRecOn with
  | nil =>
    refine ⟨join.time, le_rfl, ⟨join, by simp, rfl⟩, ?_⟩
    obtain ⟨time, event⟩ := join
    cases event with
    | joined socketId =>
      rw [Machine.run_append]
      refine ⟨by simp [seatWatch, Machine.next, WatchedSeat.step],
        by simp [seatWatch, Machine.next, WatchedSeat.step], fun _ hsockets => ?_⟩
      exact absurd hsockets (List.ne_nil_of_mem List.mem_insert_self)
    | _ => simp [WatchEvent.isJoin] at hjoin
  | append_singleton mid input ih =>
    have hsplit : pre ++ join :: (mid ++ [input]) = pre ++ join :: mid ++ [input] := by simp
    rw [hsplit] at hsorted hearly ⊢
    obtain ⟨hbefore, -, hlast⟩ := List.pairwise_append.mp hsorted
    obtain ⟨now, hjoined, ⟨i, hi, rfl⟩, h⟩ := ih hbefore hearly.of_append
    have hnow := hlast i hi input (List.mem_singleton_self _)
    refine ⟨input.time, hjoined.trans hnow, ⟨input, by simp, rfl⟩, ?_⟩
    rw [Machine.run_append]
    exact h.next (by exact_mod_cast hjoined) (by exact_mod_cast hnow) hearly.due

/-- While no timer fires before its deadline: whatever releases a seat, no socket is bound to it
then, and its player has not joined for the shortest of the graces; a sweep releases it only when
the player has not joined for the grace of a disconnect. -/
theorem released_without_sockets (settings : WatchSettings) (inputs : List WatchInput)
    (hsorted : inputs.Pairwise fun i k => i.time ≤ k.time) (hearly : NotEarly settings inputs)
    (pre post : List WatchInput) (input : WatchInput) (hsplit : inputs = pre ++ input :: post)
    (hreleased : ((seatWatch settings).step ((seatWatch settings).run {} pre) input).2 = true) :
    ((seatWatch settings).run {} pre).sockets = [] ∧
    ∀ join ∈ pre, join.event.isJoin → join.time + settings.shortest ≤ input.time ∧
      (input.event.isSweep → join.time + settings.disconnectGraceMs ≤ input.time) := by
  subst hsplit
  obtain ⟨htaken, hsockets, htimers, hsweep⟩ := sockets_of_released hreleased hearly.due
  refine ⟨hsockets, fun join hmem hjoin => ?_⟩
  obtain ⟨before, mid, rfl⟩ := List.append_of_mem hmem
  obtain ⟨hpre, -, hlast⟩ := List.pairwise_append.mp hsorted
  obtain ⟨now, -, ⟨i, hi, rfl⟩, h⟩ := joinedAt_run hpre hearly.of_append hjoin
  have hnow : (i.time : ℚ) ≤ input.time := by
    exact_mod_cast hlast i hi input (List.mem_cons_self ..)
  refine ⟨?_, fun hissweep => ?_⟩
  · rcases htimers with ⟨g, hg, hle⟩ | ⟨hgrace, hroom⟩
    · exact (h.grace g hg).trans hle
    · rcases h.bare htaken hsockets hgrace with hpast | ⟨n, hn, hpast⟩
      · exact hpast.trans hnow
      · rcases hroom with ⟨n', hn', hle⟩ | hnone
        · obtain rfl := Option.some.inj (hn.symm.trans hn')
          exact hpast.trans hle
        · simp [hnone] at hn
  · obtain ⟨u, hu, hle⟩ := hsweep hissweep
    have := h.since u hu
    linarith

/-- The host connects to a created room and drops; the departures at 20000 fail. -/
def sampleFailures : List WatchInput :=
  [⟨0, .created⟩, ⟨1000, .joined (js "tab")⟩, ⟨5000, .dropped (js "tab")⟩,
    ⟨20000, .graceFired true⟩, ⟨20000, .newRoomFired true⟩]

theorem released_without_sockets_sampleFailures :
    ((seatWatch ⟨⟨3000, 15000⟩, 20000⟩).run {} sampleFailures).sockets = [] ∧
      (1000 : ℚ) + 15000 ≤ 60000 := by
  obtain ⟨hsockets, hjoins⟩ := released_without_sockets ⟨⟨3000, 15000⟩, 20000⟩
    (sampleFailures ++ [⟨60000, .sweep false⟩]) (by decide +kernel) (by decide +kernel)
    sampleFailures [] ⟨60000, .sweep false⟩ rfl (by decide +kernel)
  refine ⟨hsockets, ?_⟩
  simpa using (hjoins ⟨1000, .joined (js "tab")⟩ (by simp [sampleFailures]) rfl).2 rfl

/-! ### Not too late -/

/-- What a seat remembers is not of the future, and no timer is armed for longer than the longest
of the graces. -/
structure ArmedBy (settings : WatchSettings) (now : ℚ) (seat : WatchedSeat) : Prop where
  grace : ∀ g ∈ seat.graceDeadline, g ≤ now + settings.longest
  newRoom : ∀ n ∈ seat.newRoomDeadline, n ≤ now + settings.longest
  since : ∀ u ∈ seat.unboundSince, (u : ℚ) ≤ now

namespace ArmedBy

variable {now : ℚ}

theorem mono (h : ArmedBy settings now seat) {later : ℚ} (hle : now ≤ later) :
    ArmedBy settings later seat where
  grace g hg := (h.grace g hg).trans (by linarith)
  newRoom n hn := (h.newRoom n hn).trans (by linarith)
  since u hu := (h.since u hu).trans hle

theorem scheduleGrace {time : Instant} {delayMs : ℚ} {sockets : List JsString}
    (h : ArmedBy settings time seat) (hdelay : delayMs ≤ settings.longest) :
    ArmedBy settings time ({ seat with sockets }.scheduleGrace time delayMs) := by
  obtain ⟨deadline, since, heq, hle, hcases⟩ :=
    WatchedSeat.exists_scheduleGrace { seat with sockets } time delayMs
  rw [heq]
  refine ⟨?_, h.newRoom, fun u hu => ?_⟩
  · rintro g ⟨⟩
    linarith
  · rcases hcases with ⟨-, rfl⟩ | ⟨-, rfl, -⟩
    · exact h.since u hu
    · obtain rfl := Option.some.inj hu
      cases hsince : seat.unboundSince with
      | none => simp
      | some u => simpa [hsince] using h.since u hsince

theorem releaseSeatIfAbandoned (h : ArmedBy settings now seat) (fails : Bool) :
    ArmedBy settings now (seat.releaseSeatIfAbandoned fails).1 := by
  rcases seat.releaseSeatIfAbandoned_cases fails with ⟨heq, -⟩ | ⟨heq, -⟩
  · rwa [heq]
  · rw [heq]
    rcases seat.leave_cases with ⟨-, heq⟩ | ⟨-, heq⟩
    · rwa [heq]
    · rw [heq]
      exact ⟨by simp, h.newRoom, h.since⟩

theorem next (h : ArmedBy settings now seat) (hnow : now ≤ input.time) :
    ArmedBy settings input.time ((seatWatch settings).next seat input) := by
  obtain ⟨hpagehide, hdisconnect, hcreated⟩ := settings.le_longest
  replace h := h.mono hnow
  obtain ⟨time, event⟩ := input
  have hforgotten : ArmedBy settings time { seat with unboundSince := none } :=
    ⟨h.grace, h.newRoom, by simp⟩
  cases event with
  | created =>
    refine ⟨h.grace, ?_, ?_⟩
    · rintro n ⟨⟩
      exact add_le_add_right hcreated _
    · rintro u ⟨⟩
      exact le_rfl
  | joined socketId => exact ⟨by simp [seatWatch, Machine.next, WatchedSeat.step], h.newRoom,
      by simp [seatWatch, Machine.next, WatchedSeat.step]⟩
  | dropped socketId =>
    simp only [Machine.next, seatWatch, WatchedSeat.step]
    split_ifs
    · exact h.scheduleGrace hdisconnect
    · exact h
  | pagehide => exact h.scheduleGrace hpagehide
  | left =>
    rcases seat.leave_cases with ⟨-, heq⟩ | ⟨-, heq⟩
    · simpa [Machine.next, seatWatch, WatchedSeat.step, heq] using h
    · simp only [Machine.next, seatWatch, WatchedSeat.step, heq]
      exact ⟨by simp, h.newRoom, h.since⟩
  | graceFired fails =>
    have hfired : ArmedBy settings time { seat with graceDeadline := none } :=
      ⟨by simp, h.newRoom, h.since⟩
    simp only [Machine.next, seatWatch, WatchedSeat.step]
    split_ifs
    · exact hfired.releaseSeatIfAbandoned fails
    · exact h
  | newRoomFired fails =>
    have hfired : ArmedBy settings time { seat with newRoomDeadline := none } :=
      ⟨h.grace, by simp, h.since⟩
    simp only [Machine.next, seatWatch, WatchedSeat.step]
    split_ifs
    · exact hfired
    · exact hfired.releaseSeatIfAbandoned fails
    · exact h
  | sweep fails =>
    simp only [Machine.next, seatWatch, WatchedSeat.step, WatchedSeat.sweep]
    split_ifs with htaken hsockets htimers
    · exact hforgotten
    · exact hforgotten
    · exact h
    · split
      · exact ⟨h.grace, h.newRoom, by simp⟩
      · split_ifs
        · exact hforgotten.releaseSeatIfAbandoned fails
        · exact h

/-- Every moment that is not before the events of a run. -/
theorem run {inputs : List WatchInput} {moment : ℚ}
    (hsorted : inputs.Pairwise fun i k => i.time ≤ k.time)
    (hmoment : ∀ i ∈ inputs, (i.time : ℚ) ≤ moment) :
    ArmedBy settings moment ((seatWatch settings).run {} inputs) := by
  induction inputs using List.reverseRecOn generalizing moment with
  | nil => exact ⟨by simp, by simp, by simp⟩
  | append_singleton inputs input ih =>
    obtain ⟨hbefore, -, hlast⟩ := List.pairwise_append.mp hsorted
    rw [Machine.run_append]
    refine ArmedBy.mono ?_ (hmoment input (by simp))
    refine (ih hbefore fun i hi => ?_).next le_rfl
    exact_mod_cast hlast i hi input (List.mem_singleton_self _)

end ArmedBy

/-- No pending timer is overdue by more than a given time when an event is handled. -/
def Punctual (settings : WatchSettings) (lateness : ℚ) (inputs : List WatchInput) : Prop :=
  ∀ e ∈ (seatWatch settings).trace {} inputs,
    (∀ deadline ∈ e.before.graceDeadline, (e.input.time : ℚ) ≤ deadline + lateness) ∧
      ∀ deadline ∈ e.before.newRoomDeadline, (e.input.time : ℚ) ≤ deadline + lateness

instance (settings : WatchSettings) (lateness : ℚ) (inputs : List WatchInput) :
    Decidable (Punctual settings lateness inputs) :=
  inferInstanceAs (Decidable (∀ e ∈ _, _))

/-- A seat that is taken and has no socket. -/
structure WatchedSeat.Bare (seat : WatchedSeat) : Prop where
  taken : seat.taken = true
  sockets : seat.sockets = []

/-- What a quiet event leaves of a seat without sockets, if it stays taken. -/
structure Waited (settings : WatchSettings) (seat : WatchedSeat) (input : WatchInput)
    (next : WatchedSeat) : Prop where
  bare : seat.Bare
  sockets : next.sockets = []
  grace : ∀ g ∈ seat.graceDeadline, ∃ g' ∈ next.graceDeadline, g' ≤ g
  newRoom : next.newRoomDeadline = seat.newRoomDeadline ∨
    next.newRoomDeadline = none ∧ seat.graceDeadline.isSome ∧ seat.newRoomDeadline.isSome
  since : ∀ u ∈ seat.unboundSince, next.unboundSince = some u
  sweep : input.event.isSweep → seat.graceDeadline = none → seat.newRoomDeadline = none →
    (∃ u ∈ next.unboundSince, u = input.time ∨ seat.unboundSince = some u) ∧
      ∀ u ∈ seat.unboundSince, (input.time : ℚ) < u + settings.disconnectGraceMs

/-- A seat that an event leaves as it is, no sweep that would decide on it. -/
theorem Waited.same (hbare : seat.Bare) (hsweep : input.event.isSweep →
    seat.graceDeadline = none → seat.newRoomDeadline = none →
      ∃ u, seat.unboundSince = some u ∧ (input.time : ℚ) < u + settings.disconnectGraceMs) :
    Waited settings seat input seat where
  bare := hbare
  sockets := hbare.sockets
  grace g hg := ⟨g, hg, le_rfl⟩
  newRoom := Or.inl rfl
  since _ hu := hu
  sweep hissweep hgrace hroom := by
    obtain ⟨u, hu, hlt⟩ := hsweep hissweep hgrace hroom
    refine ⟨⟨u, hu, Or.inr hu⟩, fun u' hu' => ?_⟩
    obtain rfl := Option.some.inj (hu.symm.trans hu')
    exact hlt

/-- A departure that goes through releases a seat without sockets. -/
theorem not_taken_releaseSeatIfAbandoned (hsockets : seat.sockets = []) :
    ¬(seat.releaseSeatIfAbandoned false).1.taken = true := by
  rcases seat.releaseSeatIfAbandoned_cases false with ⟨-, h⟩ | ⟨heq, -⟩
  · simp [hsockets] at h
  · rw [heq]
    rcases seat.leave_cases with ⟨htaken, heq⟩ | ⟨-, heq⟩
    · simp [heq, htaken]
    · simp [heq]

/-- A quiet event releases the seat, or the seat waits. -/
theorem waited_of_quiet (hquiet : input.event.isQuiet) (hsockets : seat.sockets = [])
    (htaken : ((seatWatch settings).next seat input).taken = true) :
    Waited settings seat input ((seatWatch settings).next seat input) := by
  obtain ⟨time, event⟩ := input
  have hsame : seat.taken = true → event.isSweep = false →
      Waited settings seat ⟨time, event⟩ seat := fun htaken hsweep =>
    .same ⟨htaken, hsockets⟩ fun h => by simp [hsweep] at h
  cases event with
  | created | joined => simp [WatchEvent.isQuiet] at hquiet
  | dropped socketId =>
    simp only [Machine.next, seatWatch, WatchedSeat.step, hsockets, List.not_mem_nil,
      if_false] at htaken ⊢
    exact hsame htaken rfl
  | pagehide =>
    obtain ⟨deadline, since, heq, -, hcases⟩ :=
      seat.exists_scheduleGrace time settings.pagehideGraceMs
    simp only [Machine.next, seatWatch, WatchedSeat.step, heq] at htaken ⊢
    refine ⟨⟨htaken, hsockets⟩, hsockets, fun g hg => ⟨deadline, rfl, ?_⟩, Or.inl rfl,
      fun u hu => ?_, by simp [WatchEvent.isSweep]⟩
    · rcases hcases with ⟨hpending, -⟩ | ⟨rfl, -, hlt⟩
      · exact (Option.some.inj (hpending.symm.trans hg)).le
      · exact (hlt g hg).le
    · rcases hcases with ⟨-, rfl⟩ | ⟨-, rfl, -⟩
      · exact hu
      · rw [show seat.unboundSince = some u from hu]
        rfl
  | left =>
    rcases seat.leave_cases with ⟨hnot, heq⟩ | ⟨-, heq⟩ <;>
      simp_all [Machine.next, seatWatch, WatchedSeat.step]
  | graceFired fails =>
    obtain rfl : fails = false := by simpa [WatchEvent.isQuiet] using hquiet
    simp only [Machine.next, seatWatch, WatchedSeat.step] at htaken ⊢
    split_ifs at htaken ⊢
    · exact absurd htaken (not_taken_releaseSeatIfAbandoned hsockets)
    · exact hsame htaken rfl
  | newRoomFired fails =>
    obtain rfl : fails = false := by simpa [WatchEvent.isQuiet] using hquiet
    simp only [Machine.next, seatWatch, WatchedSeat.step] at htaken ⊢
    split_ifs at htaken ⊢ with hpending hgrace
    · obtain ⟨n, hn⟩ := Option.isSome_iff_exists.mp hpending
      exact ⟨⟨htaken, hsockets⟩, hsockets, fun g hg => ⟨g, hg, le_rfl⟩,
        Or.inr ⟨rfl, hgrace, by simp [hn]⟩, fun _ hu => hu, by simp [WatchEvent.isSweep]⟩
    · exact absurd htaken (not_taken_releaseSeatIfAbandoned hsockets)
    · exact hsame htaken rfl
  | sweep fails =>
    obtain rfl : fails = false := by simpa [WatchEvent.isQuiet] using hquiet
    simp only [Machine.next, seatWatch, WatchedSeat.step, WatchedSeat.sweep] at htaken ⊢
    split_ifs at htaken ⊢ with hgone hbound htimers
    · simp_all
    · exact absurd hsockets hbound
    · refine .same ⟨htaken, hsockets⟩ fun _ hgrace hroom => ?_
      simp [hgrace, hroom] at htimers
    · have hbare : seat.Bare := ⟨by simpa using hgone, hsockets⟩
      cases hsince : seat.unboundSince with
      | none =>
        simp only [hsince] at htaken ⊢
        exact ⟨hbare, hsockets, fun g hg => ⟨g, hg, le_rfl⟩, Or.inl rfl, by simp [hsince],
          fun _ _ _ => ⟨⟨time, rfl, Or.inl rfl⟩, by simp [hsince]⟩⟩
      | some u =>
        simp only [hsince] at htaken ⊢
        split_ifs at htaken ⊢ with hdue
        · exact absurd htaken (not_taken_releaseSeatIfAbandoned hsockets)
        · refine .same hbare fun _ _ _ => ⟨u, hsince, ?_⟩
          show (time : ℚ) < u + settings.disconnectGraceMs
          linarith

/-- No quiet event binds a socket. -/
theorem sockets_of_quiet (hquiet : input.event.isQuiet) (hsockets : seat.sockets = []) :
    ((seatWatch settings).next seat input).sockets = [] := by
  have hleave : ∀ {s : WatchedSeat}, s.sockets = [] → s.leave.sockets = [] := by
    intro s hs
    rcases s.leave_cases with ⟨-, heq⟩ | ⟨-, heq⟩ <;> simp [heq, hs]
  have hrelease : ∀ {s : WatchedSeat} {fails : Bool}, s.sockets = [] →
      (s.releaseSeatIfAbandoned fails).1.sockets = [] := by
    intro s fails hs
    rcases s.releaseSeatIfAbandoned_cases fails with ⟨heq, -⟩ | ⟨heq, -⟩
    · rwa [heq]
    · rw [heq]
      exact hleave hs
  obtain ⟨time, event⟩ := input
  cases event with
  | created | joined => simp [WatchEvent.isQuiet] at hquiet
  | dropped socketId => simp [Machine.next, seatWatch, WatchedSeat.step, hsockets]
  | pagehide =>
    obtain ⟨deadline, since, heq, -⟩ := seat.exists_scheduleGrace time settings.pagehideGraceMs
    simp [Machine.next, seatWatch, WatchedSeat.step, heq, hsockets]
  | left => exact hleave hsockets
  | graceFired fails =>
    simp only [Machine.next, seatWatch, WatchedSeat.step]
    split_ifs
    · exact hrelease hsockets
    · exact hsockets
  | newRoomFired fails =>
    simp only [Machine.next, seatWatch, WatchedSeat.step]
    split_ifs
    · exact hsockets
    · exact hrelease hsockets
    · exact hsockets
  | sweep fails =>
    simp only [Machine.next, seatWatch, WatchedSeat.step, WatchedSeat.sweep]
    split_ifs
    · exact hsockets
    · exact hsockets
    · exact hsockets
    · split
      · exact hsockets
      · split_ifs
        · exact hrelease hsockets
        · exact hsockets

section Waiting

variable {since : List WatchInput} (hquiet : ∀ i ∈ since, i.event.isQuiet)
  (hsockets : seat.sockets = []) (htaken : ((seatWatch settings).run seat since).taken = true)
include hquiet hsockets htaken

/-- A seat that is still taken after quiet events has waited through all of them. -/
theorem waited_run : ∀ e ∈ (seatWatch settings).trace seat since,
    Waited settings e.before e.input e.after := by
  induction since using List.reverseRecOn with
  | nil => simp
  | append_singleton since input ih =>
    rw [List.forall_mem_append, List.forall_mem_singleton] at hquiet
    rw [Machine.run_append] at htaken
    have hunbound : ((seatWatch settings).run seat since).sockets = [] :=
      Machine.run_invariant (P := fun s : WatchedSeat => s.sockets = []) (fun e he hbefore => by
        rw [Machine.event_of_mem_trace he]
        exact sockets_of_quiet (hquiet.1 _ (Machine.input_mem_of_mem_trace he)) hbefore) hsockets
    have hlast := waited_of_quiet hquiet.2 hunbound htaken
    rw [Machine.trace_append, List.forall_mem_append]
    exact ⟨ih hquiet.1 hlast.bare.taken, List.forall_mem_singleton.mpr hlast⟩

/-- A grace that is pending stays pending, and is not put off. -/
theorem grace_run {g : ℚ} (hg : seat.graceDeadline = some g) :
    ∃ g' ∈ ((seatWatch settings).run seat since).graceDeadline, g' ≤ g :=
  Machine.run_invariant (P := fun s : WatchedSeat => ∃ g' ∈ s.graceDeadline, g' ≤ g)
    (fun e he ⟨g', hg', hle⟩ => by
      obtain ⟨g'', hg'', hle'⟩ := (waited_run hquiet hsockets htaken e he).grace g' hg'
      exact ⟨g'', hg'', hle'.trans hle⟩) ⟨g, hg, le_rfl⟩

theorem newRoom_run (hnone : seat.newRoomDeadline = none) :
    ((seatWatch settings).run seat since).newRoomDeadline = none :=
  Machine.run_invariant (P := fun s : WatchedSeat => s.newRoomDeadline = none)
    (fun e he hbefore => by
      rcases (waited_run hquiet hsockets htaken e he).newRoom with heq | ⟨hnone, -⟩
      · rw [heq, hbefore]
      · exact hnone) hnone

theorem unboundSince_run {u : Instant} (hu : seat.unboundSince = some u) :
    ((seatWatch settings).run seat since).unboundSince = some u :=
  Machine.run_invariant (P := fun s : WatchedSeat => s.unboundSince = some u)
    (fun e he hbefore => (waited_run hquiet hsockets htaken e he).since u hbefore) hu

end Waiting

/-- From a moment on, the timers of a seat go off in time, and sweeps come regularly. -/
structure Attended (settings : WatchSettings) (lateness sweepIntervalMs : ℚ)
    (before since : List WatchInput) (last : WatchInput) (moment : ℚ) : Prop where
  lateness_nonneg : 0 ≤ lateness
  sweepIntervalMs_nonneg : 0 ≤ sweepIntervalMs
  disconnectGraceMs_nonneg : 0 ≤ settings.disconnectGraceMs
  sorted : (before ++ since ++ [last]).Pairwise fun i k => i.time ≤ k.time
  punctual : Punctual settings lateness (before ++ since ++ [last])
  before_le : ∀ i ∈ before, (i.time : ℚ) ≤ moment
  sweeps : ∀ start : ℚ, moment ≤ start → start + sweepIntervalMs < last.time →
    ∃ i ∈ since, i.event.isSweep ∧ start < i.time ∧ (i.time : ℚ) ≤ start + sweepIntervalMs

section Attended

variable {lateness sweepIntervalMs moment : ℚ} {before since : List WatchInput}
  {last : WatchInput} (h : Attended settings lateness sweepIntervalMs before since last moment)
  (hquiet : ∀ i ∈ since, i.event.isQuiet)
  (hsockets : ((seatWatch settings).run {} before).sockets = [])
  (htaken : ((seatWatch settings).run {} (before ++ since)).taken = true)
include h

/-- A timer that is pending at the end is not overdue by much. -/
theorem Attended.pending_end {deadline : ℚ}
    (hpending : ((seatWatch settings).run {} (before ++ since)).graceDeadline = some deadline ∨
      ((seatWatch settings).run {} (before ++ since)).newRoomDeadline = some deadline) :
    (last.time : ℚ) ≤ deadline + lateness := by
  obtain ⟨hgrace, hroom⟩ := h.punctual
    ((seatWatch settings).event ((seatWatch settings).run {} (before ++ since)) last)
    ((Machine.mem_trace_iff _).mpr ⟨_, last, [], rfl, rfl⟩)
  exact hpending.elim (hgrace deadline) (hroom deadline)

/-- Nor is it while the seat waits. -/
theorem Attended.pending {a b : List WatchInput} {i : WatchInput} (hsplit : since = a ++ i :: b)
    {deadline : ℚ}
    (hpending : ((seatWatch settings).run {} (before ++ a)).graceDeadline = some deadline ∨
      ((seatWatch settings).run {} (before ++ a)).newRoomDeadline = some deadline) :
    (i.time : ℚ) ≤ deadline + lateness := by
  obtain ⟨hgrace, hroom⟩ := h.punctual
    ((seatWatch settings).event ((seatWatch settings).run {} (before ++ a)) i)
    ((Machine.mem_trace_iff _).mpr ⟨before ++ a, i, b ++ [last], by simp [hsplit], rfl⟩)
  exact hpending.elim (hgrace deadline) (hroom deadline)

/-- What the seat holds is not of the time after the next event. -/
theorem Attended.armedBy {a b : List WatchInput} {i : WatchInput} (hsplit : since = a ++ i :: b) :
    ArmedBy settings i.time ((seatWatch settings).run {} (before ++ a)) := by
  have hsorted := h.sorted
  rw [hsplit, show before ++ (a ++ i :: b) ++ [last] = (before ++ a) ++ i :: (b ++ [last]) by simp]
    at hsorted
  obtain ⟨hearly, -, hlater⟩ := List.pairwise_append.mp hsorted
  exact .run hearly fun k hk => by exact_mod_cast hlater k hk i (List.mem_cons_self ..)

include hquiet hsockets htaken

omit h in
/-- The seat waits through every event. -/
theorem waited_of_split {a b : List WatchInput} {i : WatchInput} (hsplit : since = a ++ i :: b) :
    Waited settings ((seatWatch settings).run {} (before ++ a)) i
      ((seatWatch settings).run {} (before ++ (a ++ [i]))) := by
  rw [Machine.run_append] at htaken
  have hevent : (seatWatch settings).event
      ((seatWatch settings).run ((seatWatch settings).run {} before) a) i ∈
      (seatWatch settings).trace ((seatWatch settings).run {} before) since :=
    (Machine.mem_trace_iff _).mpr ⟨a, i, b, hsplit, rfl⟩
  have hwaited := waited_run hquiet hsockets htaken _ hevent
  rwa [Machine.run_append, Machine.run_append, Machine.run_append]

omit h in
/-- The seat has no socket so far, and stays taken by the quiet events that follow. -/
theorem rest_of_split {a b : List WatchInput} (hsplit : since = a ++ b) :
    ((seatWatch settings).run {} (before ++ a)).sockets = [] ∧ (∀ i ∈ b, i.event.isQuiet) ∧
      ((seatWatch settings).run ((seatWatch settings).run {} (before ++ a)) b).taken = true := by
  refine ⟨?_, fun i hi => hquiet i (hsplit ▸ List.mem_append_right _ hi), ?_⟩
  · rw [Machine.run_append]
    exact Machine.run_invariant (P := fun s : WatchedSeat => s.sockets = [])
      (fun e he hbefore => by
        rw [Machine.event_of_mem_trace he]
        have hmem := Machine.input_mem_of_mem_trace he
        exact sockets_of_quiet (hquiet _ (hsplit ▸ List.mem_append_left _ hmem)) hbefore) hsockets
  · rwa [← Machine.run_append, List.append_assoc, ← hsplit]

/-- Long before the end no grace is pending. -/
theorem Attended.grace_eq_none {a b : List WatchInput} {i : WatchInput}
    (hsplit : since = a ++ i :: b)
    (hlong : (i.time : ℚ) + settings.longest + lateness < last.time) :
    ((seatWatch settings).run {} (before ++ a)).graceDeadline = none := by
  by_contra hpending
  obtain ⟨g, hg⟩ := Option.ne_none_iff_exists'.mp hpending
  obtain ⟨hunbound, hquiet', htaken'⟩ := rest_of_split hquiet hsockets htaken hsplit
  obtain ⟨g', hg', hle⟩ := grace_run hquiet' hunbound htaken' hg
  rw [← Machine.run_append, List.append_assoc, ← hsplit] at hg'
  have hend := h.pending_end (Or.inl hg')
  have harmed := (h.armedBy hsplit).grace g hg
  linarith

/-- The timer of a new room is not pending when the seat waits for long. -/
theorem Attended.newRoom_eq_none
    (hlong : moment + 2 * (settings.longest + lateness) < last.time) :
    ((seatWatch settings).run {} before).newRoomDeadline = none := by
  by_contra hpending
  obtain ⟨n, hn⟩ := Option.ne_none_iff_exists'.mp hpending
  have hsorted := (List.pairwise_append.mp (List.pairwise_append.mp h.sorted).1).1
  have harmed : n ≤ moment + settings.longest := (ArmedBy.run hsorted h.before_le).newRoom n hn
  have hlate := h.lateness_nonneg
  have hgrace := h.disconnectGraceMs_nonneg.trans settings.le_longest.2.1
  have htaken' := htaken
  rw [Machine.run_append] at htaken'
  by_cases hend : ((seatWatch settings).run {} (before ++ since)).newRoomDeadline = some n
  · have := h.pending_end (Or.inr hend)
    linarith
  · rw [Machine.run_append] at hend
    obtain ⟨a, i, b, hsplit, hpending, hfired⟩ := @Machine.exists_end_of_phase _ _ _ _
      (fun s : WatchedSeat => s.newRoomDeadline = some n) since _ hn hend
    rw [← Machine.run_append] at hpending hfired
    -- It has fired with a grace pending, which is pending to the end.
    have hwaited := waited_of_split hquiet hsockets htaken hsplit
    rw [← List.append_assoc, Machine.run_append _ _ (before ++ a)] at hwaited
    rcases hwaited.newRoom with heq | ⟨-, hsome, -⟩
    · exact hfired (heq.trans hpending)
    · have hfires := h.pending hsplit (Or.inr hpending)
      by_cases hlong : (i.time : ℚ) + settings.longest + lateness < last.time
      · simp [h.grace_eq_none hquiet hsockets htaken hsplit hlong] at hsome
      · linarith

/-- A seat that is still taken after two sweeps would have been released by the second. -/
theorem Attended.not_late
    (hlong : moment + 2 * (settings.longest + lateness + sweepIntervalMs) < last.time) : False := by
  have hlate := h.lateness_nonneg
  have hinterval := h.sweepIntervalMs_nonneg
  have hgrace := h.disconnectGraceMs_nonneg
  have hlongest := settings.le_longest.2.1
  have hroom := h.newRoom_eq_none hquiet hsockets htaken (by linarith)
  have hroomAt : ∀ {a b : List WatchInput} {i : WatchInput}, since = a ++ i :: b →
      ((seatWatch settings).run {} (before ++ a)).newRoomDeadline = none := by
    intro a b i hsplit
    have hwaited := waited_of_split hquiet hsockets htaken hsplit
    rw [Machine.run_append]
    exact newRoom_run (fun k hk => hquiet k (hsplit ▸ List.mem_append_left _ hk)) hsockets
      (by rw [← Machine.run_append]; exact hwaited.bare.taken) hroom
  obtain ⟨first, hfirst, hsweep, hafter, hwithin⟩ := h.sweeps moment le_rfl (by linarith)
  obtain ⟨a, b, hsplit⟩ := List.append_of_mem hfirst
  -- The first sweep finds since when the seat has had no socket.
  have hwaited := waited_of_split hquiet hsockets htaken hsplit
  obtain ⟨⟨u, hu, hcases⟩, -⟩ := hwaited.sweep hsweep
    (h.grace_eq_none hquiet hsockets htaken hsplit (by linarith)) (hroomAt hsplit)
  have huFirst : (u : ℚ) ≤ first.time := by
    rcases hcases with rfl | hbefore
    · exact le_rfl
    · exact (h.armedBy hsplit).since u hbefore
  obtain ⟨second, hsecond, hsweep', hafter', hwithin'⟩ :=
    h.sweeps (first.time + settings.disconnectGraceMs) (by linarith) (by linarith)
  have hb : second ∈ b := by
    have hsorted := (List.pairwise_append.mp (List.pairwise_append.mp h.sorted).1).2.1
    rw [hsplit] at hsecond hsorted
    rcases List.mem_append.mp hsecond with hmem | hmem
    · have hle : (second.time : ℚ) ≤ first.time := by
        exact_mod_cast (List.pairwise_append.mp hsorted).2.2 _ hmem first (List.mem_cons_self ..)
      linarith
    · rcases List.mem_cons.mp hmem with rfl | hmem
      · linarith
      · exact hmem
  obtain ⟨c, d, rfl⟩ := List.append_of_mem hb
  have hsplit' : since = (a ++ first :: c) ++ second :: d := by simp [hsplit]
  -- The second one remembers it, and the grace of a disconnect has passed.
  have hwaited' := waited_of_split hquiet hsockets htaken hsplit'
  obtain ⟨-, hnot⟩ := hwaited'.sweep hsweep'
    (h.grace_eq_none hquiet hsockets htaken hsplit' (by linarith)) (hroomAt hsplit')
  have hremembered :
      ((seatWatch settings).run {} (before ++ (a ++ first :: c))).unboundSince = some u := by
    rw [show before ++ (a ++ first :: c) = (before ++ (a ++ [first])) ++ c by simp,
      Machine.run_append]
    refine unboundSince_run (fun k hk => hquiet k (by simp [hsplit, hk])) hwaited.sockets ?_ hu
    rw [← Machine.run_append]
    simpa using hwaited'.bare.taken
  have := hnot u hremembered
  linarith

end Attended

/-- A seat without a socket is released: when from a moment on nobody takes the seat and no
departure fails, the timers of the seat are late by at most `lateness` and sweeps come at least
every `sweepIntervalMs`, the seat is free after twice these and the longest grace, whatever
departures had failed before and however many beacons come. -/
theorem abandoned_seat_released (settings : WatchSettings) (lateness sweepIntervalMs moment : ℚ)
    (before since : List WatchInput) (last : WatchInput)
    (h : Attended settings lateness sweepIntervalMs before since last moment)
    (hquiet : ∀ i ∈ since, i.event.isQuiet)
    (hsockets : ((seatWatch settings).run {} before).sockets = [])
    (hlong : moment + 2 * (settings.longest + lateness + sweepIntervalMs) < last.time) :
    ((seatWatch settings).run {} (before ++ since)).taken = false := by
  by_contra htaken
  exact h.not_late hquiet hsockets (by simpa using htaken) hlong

/-- The sweeps of three minutes. -/
def sampleSweeps : List WatchInput :=
  [⟨60000, .sweep false⟩, ⟨120000, .sweep false⟩, ⟨180000, .sweep false⟩]

theorem abandoned_seat_released_sampleFailures :
    ((seatWatch ⟨⟨3000, 15000⟩, 20000⟩).run {} (sampleFailures ++ sampleSweeps)).taken = false := by
  refine abandoned_seat_released ⟨⟨3000, 15000⟩, 20000⟩ 100 60000 20000 sampleFailures sampleSweeps
    ⟨200000, .pagehide⟩ ⟨by norm_num, by norm_num, by norm_num, by decide +kernel,
      by decide +kernel, by decide +kernel, fun start hstart hend => ?_⟩
    (by decide +kernel) (by decide +kernel) (by norm_num [WatchSettings.longest])
  replace hend : start + 60000 < 200000 := by simpa using hend
  rcases lt_or_ge start 60000 with hlt | hge
  · exact ⟨⟨60000, .sweep false⟩, by simp [sampleSweeps], rfl, by simpa using hlt, by
      norm_num; linarith⟩
  · rcases lt_or_ge start 120000 with hlt | hge'
    · exact ⟨⟨120000, .sweep false⟩, by simp [sampleSweeps], rfl, by simpa using hlt, by
        norm_num; linarith⟩
    · exact ⟨⟨180000, .sweep false⟩, by simp [sampleSweeps], rfl, by norm_num; linarith, by
        norm_num; linarith⟩

end DanceSync
