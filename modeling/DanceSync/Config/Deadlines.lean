import DanceSync.Config.RoomDates
import DanceSync.Handlers.Publishing

/-!
# Deadlines under the configuration

The process waits for a deadline with `setTimeout`: `RoomTimers.set` for the deadlines of a room,
`scheduleGrace` and `watchNewRoom` for a seat, `WordRaceScheduler.schedule` for a round. No setting
has an upper limit, and a delay above `TIMEOUT_MAX` fires at once. The deadline of a grace keeps the
fraction of a millisecond that its timer drops.

One room runs with the settings of `server.ts`. Its use cases are called in any order, and a handler
may arm a timer at any time from any room and race it has read, however old.

## Main definitions

* `Config.ArmedTimer`, `Config.ArmedTimer.OnTime`.
* `Config.deployment`: the timers of one room, its seats and its word races.
* `Config.Env.DeadlinesFit`: every time to wait for is within the limit.

## Main results

* `Config.onTime_upTo_iff`, `Config.onTime_after_iff`: which timers fire on time.
* `Config.deadlines_kept`.
-/

namespace DanceSync.Config

/-! ### Timers -/

/-- A call of `setTimeout`: when it is made, for which delay, and the deadline it is to wait for;
`none` is `NaN`. -/
structure ArmedTimer where
  armedAt : Instant
  delay : Option ℚ
  deadline : Option ℚ
  deriving DecidableEq

namespace ArmedTimer

/-- `setTimeout(task, Math.max(0, date - now))`; a passed deadline fires right away. -/
def upTo (now : Instant) (date : Date) : ArmedTimer where
  armedAt := now
  delay := (date.msFrom now).map fun ms => ((max 0 ms : ℤ) : ℚ)
  deadline := date.getTime?.map ((↑) : ℤ → ℚ)

/-- `setTimeout(task, delayMs)`. -/
def after (now : Instant) (delayMs : ℚ) : ArmedTimer :=
  ⟨now, some delayMs, some (Binary64.round (now + delayMs))⟩

/-- The timer has a deadline and does not fire before it. -/
def OnTime (timer : ArmedTimer) : Prop :=
  ∃ deadline ∈ timer.deadline, deadline ≤ (timer.armedAt + timeoutMs timer.delay : ℤ)

instance : DecidablePred OnTime := fun timer =>
  match h : timer.deadline with
  | some deadline =>
    decidable_of_iff (deadline ≤ (timer.armedAt + timeoutMs timer.delay : ℤ)) (by simp [OnTime, h])
  | none => isFalse (by simp [OnTime, h])

end ArmedTimer

/-- How long a room that was created over HTTP waits for its host, beyond the disconnect grace. -/
def CREATED_ROOM_MARGIN_MS : ℚ := 5000

/-- The grace of a room that was created over HTTP. -/
def Env.createdRoomGraceMs (env : Env) : ℚ :=
  Binary64.round (env.disconnectGraceMs + CREATED_ROOM_MARGIN_MS)

/-! ### The process -/

/-- What the process keeps of one room, and every room and race that a handler has read. -/
structure Deployment where
  slot : Option Room := none
  rooms : List Room := []
  races : List WordRace := []
  /-- When each pending grace timer fires. -/
  graceDeadlines : JsString → Option ℚ := fun _ => none

/-- The date that a timer of a round waits for. -/
inductive RoundMoment where
  | opening
  | closing
  deriving DecidableEq

def RoundMoment.date (moment : RoundMoment) (round : WordRound) : Date :=
  match moment with
  | .opening => round.opensAt
  | .closing => round.closesAt

/-- What happens in the process; rooms, races and rounds are named by their positions. -/
inductive Occasion where
  /-- A use case is called on the room. -/
  | call (op : RoomOp)
  /-- A handler arms the timer of a kind from a room it has read. -/
  | armRoomTimer (room : ℕ) (kind : RoomTimerKind)
  | disconnect (playerId : JsString)
  | pagehide (playerId : JsString)
  /-- The grace timer of a seat fires, or is cleared. -/
  | cancelGrace (playerId : JsString)
  /-- The room was created over HTTP. -/
  | watchNewRoom (hostId : JsString)
  /-- The word race of a room that was read is planned. -/
  | startWordRace (room : ℕ) (random : ℕ → RandomIndex)
  /-- The scheduler waits for a round of a race. -/
  | schedule (race round : ℕ) (moment : RoundMoment)

/-- An occasion with the clock it reads. -/
structure Timed where
  now : Instant
  occasion : Occasion

namespace Deployment

/-- One timer for each seat: a new grace replaces the pending one, but never postpones it. -/
def scheduleGrace (s : Deployment) (now : Instant) (playerId : JsString) (delayMs : ℚ) :
    Deployment × Option ArmedTimer :=
  let deadline := Binary64.round (now + delayMs)
  if (s.graceDeadlines playerId).any (· ≤ deadline) then (s, none)
  else
    ({ s with graceDeadlines := Function.update s.graceDeadlines playerId (some deadline) },
      some (.after now delayMs))

/-- The state after an occasion, and the timer that is armed. -/
def step (rt : Runtime) (code : JsString) (env : Env) (s : Deployment) (input : Timed) :
    Deployment × Option ArmedTimer :=
  match input.occasion with
  | .call op =>
    let slot := ((env.configure input.now op).step rt code s.slot).1
    ({ s with slot, rooms := s.rooms ++ slot.toList }, none)
  | .armRoomTimer room kind =>
    (s, (s.rooms[room]?.bind fun room => room.deadline kind).map fun timer =>
      .upTo input.now timer.deadline)
  | .disconnect playerId => s.scheduleGrace input.now playerId env.disconnectGraceMs
  | .pagehide playerId => s.scheduleGrace input.now playerId env.pagehideGraceMs
  | .cancelGrace playerId =>
    ({ s with graceDeadlines := Function.update s.graceDeadlines playerId none }, none)
  | .watchNewRoom _ =>
    (s, some (.after input.now env.createdRoomGraceMs))
  | .startWordRace room random =>
    let planned := s.rooms[room]?.bind fun room =>
      (WordRaceService.plan .double rt room env.planOptions random).toOption
    ({ s with races := s.races ++ planned.toList }, none)
  | .schedule race round moment =>
    (s, (s.races[race]?.bind fun race => race.rounds[round]?).map fun round =>
      .upTo input.now (moment.date round))

end Deployment

/-- The room of `code` in a process with these settings. -/
def deployment (rt : Runtime) (code : JsString) (env : Env) :
    Machine Deployment Timed (Option ArmedTimer) where
  step := Deployment.step rt code env

/-- Every date that was stored or planned is valid. -/
structure Deployment.DatesValid (s : Deployment) : Prop where
  rooms : ∀ room ∈ s.rooms, room.DatesValid
  races : ∀ race ∈ s.races, ∀ round ∈ race.rounds, round.DatesValid

/-- A number of milliseconds that a timer can wait for. -/
def Waitable (ms : ℚ) : Prop := ∃ n : ℤ, ms = n ∧ n ≤ TIMEOUT_MAX

/-- Every time that the process waits for is at most `TIMEOUT_MAX`, and a grace is whole. A date
drops the fraction of a millisecond; the songs of the catalogue last 90 seconds. -/
structure Env.DeadlinesFit (env : Env) : Prop where
  songChallenge : env.songChallengeMs ≤ TIMEOUT_MAX
  songChoose : env.songChooseMs ≤ TIMEOUT_MAX
  battleEnd : env.battleStartCountdownMs + 90000 ≤ TIMEOUT_MAX
  createdRoom : Waitable (env.disconnectGraceMs + CREATED_ROOM_MARGIN_MS)
  pagehideGrace : Waitable env.pagehideGraceMs

variable {rt : Runtime} {code : JsString} {env : Env} {s s' : Deployment} {input : Timed}
  {armed : Option ArmedTimer} {now : Instant} {date : Date} {ms : ℚ}

/-! ### Timers on time -/

/-- A timer that waits for a date is on time exactly when the date is valid and near enough. -/
theorem onTime_upTo_iff : (ArmedTimer.upTo now date).OnTime ↔
    ∃ time, date = .at time ∧ time ≤ now + TIMEOUT_MAX := by
  have hmax : (1 : ℤ) < TIMEOUT_MAX := by decide
  rcases date with time | _
  · simp only [ArmedTimer.OnTime, ArmedTimer.upTo, Date.msFrom, Date.getTime?, Option.map_some,
      Option.mem_some_iff, exists_eq_left', Int.cast_le, Date.at.injEq]
    constructor
    · intro h
      by_contra hfar
      have hlong : TIMEOUT_MAX < max 0 (time - now) := by
        refine lt_max_of_lt_right ?_
        linarith
      rw [timeoutMs_of_lt (by exact_mod_cast hlong)] at h
      linarith
    · intro h
      have hle := le_timeoutMs (n := max 0 (time - now)) rfl (max_le (by linarith) (by linarith))
      linarith [le_max_right 0 (time - now)]
  · simp [ArmedTimer.OnTime, ArmedTimer.upTo, Date.getTime?]

/-- A timer that waits for a whole number of milliseconds is on time exactly when there are few
enough. -/
theorem onTime_after_iff (hnow : now.PresentDay) {n : ℤ} :
    (ArmedTimer.after now n).OnTime ↔ n ≤ TIMEOUT_MAX := by
  have hmax : TIMEOUT_MAX = 2147483647 := rfl
  obtain ⟨h0, hpresent⟩ := hnow
  simp only [ArmedTimer.OnTime, ArmedTimer.after, Option.mem_some_iff, exists_eq_left']
  constructor
  · intro h
    by_contra hlong
    rw [timeoutMs_of_lt (by exact_mod_cast not_le.mp hlong)] at h
    have hfar : ((now + 2 : ℤ) : ℚ) ≤ Binary64.round (now + n) := by
      refine Binary64.intCast_le_round (abs_le.mpr ⟨by linarith, by linarith⟩) ?_
      exact_mod_cast Int.add_le_add_left (by linarith : 2 ≤ n) now
    have hlate := hfar.trans h
    rw [Int.cast_le] at hlate
    linarith
  · intro h
    have hle := le_timeoutMs (rfl : (n : ℚ) = n) h
    have htimeout := timeoutMs_le (some (n : ℚ))
    refine (Binary64.round_le_intCast ?_ ?_)
    · have hpos := one_le_timeoutMs (some (n : ℚ))
      exact abs_le.mpr ⟨by linarith, by linarith⟩
    · exact_mod_cast Int.add_le_add_left hle now

/-- A bound within the limit makes a timer be on time. -/
theorem onTime_of_within {last : ℚ} (h : date.Within last) (hnow : now.PresentDay)
    (hlast : last ≤ (now + TIMEOUT_MAX : ℤ)) : (ArmedTimer.upTo now date).OnTime := by
  obtain ⟨time, rfl, -, hle⟩ := h.exists_le hlast hnow.add_timeout_le
  exact onTime_upTo_iff.mpr ⟨time, rfl, hle⟩

/-! ### Every run -/

theorem eq_ok_of_toOption {α : Type} {x : Except JsError α} {a : α} (h : x.toOption = some a) :
    x = .ok a := by
  cases x with
  | error => cases h
  | ok => exact congrArg Except.ok (Option.some.inj h)

/-- What the configuration says of a process at `now`. -/
structure Deployment.Configured (s : Deployment) (env : Env) (now : Instant) : Prop where
  slot : ∀ room ∈ s.slot, room.Configured env now
  rooms : ∀ room ∈ s.rooms, room.Configured env now
  races : ∀ race ∈ s.races, ∀ round ∈ race.rounds, round.Configured env now

namespace Deployment.Configured

theorem mono {later : Instant} (h : s.Configured env now) (hlater : now ≤ later) :
    s.Configured env later where
  slot room hroom := (h.slot room hroom).mono hlater
  rooms room hroom := (h.rooms room hroom).mono hlater
  races race hrace round hround := (h.races race hrace round hround).mono hlater

theorem scheduleGrace (h : s.Configured env now) (playerId : JsString) (delayMs : ℚ) :
    (s.scheduleGrace now playerId delayMs).1.Configured env now := by
  unfold Deployment.scheduleGrace
  dsimp only
  split_ifs
  · exact h
  · exact { h with }

/-- An occasion keeps the process configured. -/
theorem step (hstep : (deployment rt code env).step s input = (s', armed))
    (hnow : 0 ≤ input.now) (hvalid : env.Valid) (h : s.Configured env input.now) :
    s'.Configured env input.now := by
  obtain rfl : (s.step rt code env input).1 = s' := congrArg Prod.fst hstep
  obtain ⟨now, occasion⟩ := input
  cases occasion with
  | call op =>
    have hstored : ∀ room ∈ ((env.configure now op).step rt code s.slot).1,
        room.Configured env now :=
      (step_spec rt code s.slot (env.configure now op)).configured (configured_configure env now op)
        hnow hvalid h.slot
    refine ⟨hstored, fun room hroom => ?_, h.races⟩
    rcases List.mem_append.mp hroom with hbefore | hnew
    · exact h.rooms room hbefore
    · exact hstored room (Option.mem_toList.mp hnew)
  | startWordRace position random =>
    refine ⟨h.slot, h.rooms, fun race hrace round hround => ?_⟩
    rcases List.mem_append.mp hrace with hbefore | hnew
    · exact h.races race hbefore round hround
    obtain ⟨room, hroom, hplan⟩ := Option.bind_eq_some_iff.mp (Option.mem_toList.mp hnew)
    exact WordRound.Configured.of_plan hvalid (h.rooms room (List.mem_of_getElem? hroom))
      (eq_ok_of_toOption hplan) hround
  | disconnect playerId => exact h.scheduleGrace playerId env.disconnectGraceMs
  | pagehide playerId => exact h.scheduleGrace playerId env.pagehideGraceMs
  | cancelGrace => exact { h with }
  | armRoomTimer | watchNewRoom | schedule => exact h

end Deployment.Configured

/-- The process is configured, also at the clock of every input that is still to come; these clocks
are of the present day and never go back. -/
structure Deployment.Awaits (env : Env) (inputs : List Timed) (s : Deployment) : Prop where
  configured : ∀ input ∈ inputs, s.Configured env input.now
  present : ∀ input ∈ inputs, input.now.PresentDay
  times : (inputs.map (·.now)).Pairwise (· ≤ ·)

namespace Deployment.Awaits

variable {inputs : List Timed}

theorem start (hpresent : ∀ input ∈ inputs, input.now.PresentDay)
    (htimes : (inputs.map (·.now)).Pairwise (· ≤ ·)) : Awaits env inputs {} :=
  ⟨fun _ _ => ⟨by simp, by simp, by simp⟩, hpresent, htimes⟩

theorem next (h : Awaits env (input :: inputs) s) (hvalid : env.Valid)
    (hstep : (deployment rt code env).step s input = (s', armed)) : Awaits env inputs s' := by
  obtain ⟨hconfigured, hpresent, htimes⟩ := h
  rw [List.forall_mem_cons] at hconfigured hpresent
  rw [List.map_cons, List.pairwise_cons] at htimes
  refine ⟨fun later hlater => ?_, hpresent.2, htimes.2⟩
  have hnow := htimes.1 later.now (List.mem_map_of_mem hlater)
  exact (hconfigured.1.step hstep hpresent.1.1 hvalid).mono hnow

end Deployment.Awaits

section Fits

variable (hfit : env.DeadlinesFit) (hnow : now.PresentDay)

include hfit hnow

theorem challengeEnd_le : env.challengeEnd now ≤ (now + TIMEOUT_MAX : ℤ) :=
  Binary64.round_le_intCast hnow.abs_add_timeout_le (by push_cast; linarith [hfit.songChallenge])

theorem chooseEnd_le : env.chooseEnd now ≤ (now + TIMEOUT_MAX : ℤ) :=
  Binary64.round_le_intCast hnow.abs_add_timeout_le (by push_cast; linarith [hfit.songChoose])

theorem battleEnd_le : env.battleEnd now ≤ (now + TIMEOUT_MAX : ℤ) := by
  have hsmall : |now + TIMEOUT_MAX - 90000| ≤ 2 ^ 53 := by
    have h := abs_le.mp hnow.abs_add_timeout_le
    have hpos := hnow.1
    have hmax : (90000 : ℤ) ≤ TIMEOUT_MAX := by decide
    exact abs_le.mpr ⟨by linarith, by linarith⟩
  have hstart : env.battleStart now ≤ (now + TIMEOUT_MAX - 90000 : ℤ) :=
    Binary64.round_le_intCast hsmall (by push_cast; linarith [hfit.battleEnd])
  refine Binary64.round_le_intCast hnow.abs_add_timeout_le ?_
  push_cast at hstart ⊢
  linarith

theorem datesValid_of_configured (h : s.Configured env now) : s.DatesValid := by
  have hvalid {date : Date} {last : ℚ} (hdate : date.Within last)
      (hlast : last ≤ (now + TIMEOUT_MAX : ℤ)) : date.Valid := by
    obtain ⟨time, rfl, -⟩ := hdate.exists_le hlast hnow.add_timeout_le
    exact Date.valid_at
  have hend := battleEnd_le hfit hnow
  refine ⟨fun room hroom => ?_, fun race hrace round hround => ?_⟩
  · obtain ⟨hselection, -, hbattle⟩ := h.rooms room hroom
    refine ⟨fun s hs => ?_, fun s hs deadline hdeadline => ?_, fun battle hbattle' => ?_,
      fun battle hbattle' => ?_⟩
    · exact hvalid (hselection s hs).expiresAt (challengeEnd_le hfit hnow)
    · exact hvalid ((hselection s hs).chooseDeadline deadline hdeadline) (chooseEnd_le hfit hnow)
    · exact hvalid (hbattle battle hbattle').startedAt
        ((env.battleStart_le_battleEnd now).trans hend)
    · exact hvalid (hbattle battle hbattle').endsAt hend
  · obtain ⟨hopens, hcloses⟩ := h.races race hrace round hround
    exact ⟨hvalid hopens hend, hvalid hcloses hend⟩

/-- The deadline of a kind of a configured room is near enough. -/
theorem onTime_deadline {room : Room} {kind : RoomTimerKind} {timer : RoomTimer}
    (h : room.Configured env now) (htimer : room.deadline kind = some timer) :
    (ArmedTimer.upTo now timer.deadline).OnTime := by
  cases kind with
  | songChallenge =>
    obtain ⟨s, hs, htimer⟩ := Option.bind_eq_some_iff.mp htimer
    split_ifs at htimer
    obtain rfl := Option.some.inj htimer
    exact onTime_of_within (h.selection s hs).expiresAt hnow (challengeEnd_le hfit hnow)
  | songChoose =>
    obtain ⟨s, hs, htimer⟩ := Option.bind_eq_some_iff.mp htimer
    split_ifs at htimer
    obtain ⟨deadline, hdeadline, rfl⟩ := Option.map_eq_some_iff.mp htimer
    exact onTime_of_within ((h.selection s hs).chooseDeadline deadline hdeadline) hnow
      (chooseEnd_le hfit hnow)
  | battleEnd =>
    obtain ⟨battle, hbattle, htimer⟩ := Option.bind_eq_some_iff.mp htimer
    split_ifs at htimer
    obtain rfl := Option.some.inj htimer
    exact onTime_of_within (h.battle battle hbattle).endsAt hnow (battleEnd_le hfit hnow)

omit hfit in
theorem onTime_scheduleGrace {playerId : JsString} {timer : ArmedTimer} (hms : Waitable ms)
    (h : (s.scheduleGrace now playerId ms).2 = some timer) : timer.OnTime := by
  unfold Deployment.scheduleGrace at h
  dsimp only at h
  split_ifs at h
  obtain rfl := Option.some.inj h
  obtain ⟨n, rfl, hn⟩ := hms
  exact (onTime_after_iff hnow).mpr hn

end Fits

/-- A whole grace with the margin of a new room is still whole, and the shorter grace is, too. -/
theorem waitable_graces (hvalid : env.Valid) (hfit : env.DeadlinesFit) :
    Waitable env.disconnectGraceMs ∧ Waitable env.createdRoomGraceMs := by
  obtain ⟨n, heq, hn⟩ := hfit.createdRoom
  have h0 : 0 ≤ env.disconnectGraceMs := hvalid.disconnectGraceMs.lower
  have hmax : TIMEOUT_MAX = 2147483647 := rfl
  have hpos : 0 ≤ n := by
    have hpos' : (0 : ℚ) ≤ n := by
      rw [← heq, CREATED_ROOM_MARGIN_MS]
      linarith
    exact_mod_cast hpos'
  refine ⟨⟨n - 5000, ?_, by linarith⟩, n, ?_, hn⟩
  · rw [CREATED_ROOM_MARGIN_MS] at heq
    push_cast
    linarith
  · rw [Env.createdRoomGraceMs, heq]
    exact Binary64.round_intCast (abs_le.mpr ⟨by linarith, by linarith⟩)

/-- Every timer that an occasion arms is on time. -/
theorem onTime_step (hvalid : env.Valid) (hfit : env.DeadlinesFit)
    (hstep : (deployment rt code env).step s input = (s', armed)) (hnow : input.now.PresentDay)
    (h : s.Configured env input.now) : ∀ timer ∈ armed, timer.OnTime := by
  obtain rfl : (s.step rt code env input).2 = armed := congrArg Prod.snd hstep
  intro timer htimer
  obtain ⟨now, occasion⟩ := input
  cases occasion with
  | armRoomTimer position kind =>
    obtain ⟨armed, harmed, rfl⟩ := Option.map_eq_some_iff.mp htimer
    obtain ⟨room, hroom, hdeadline⟩ := Option.bind_eq_some_iff.mp harmed
    exact onTime_deadline hfit hnow (h.rooms room (List.mem_of_getElem? hroom)) hdeadline
  | schedule position index moment =>
    obtain ⟨round, hround, rfl⟩ := Option.map_eq_some_iff.mp htimer
    obtain ⟨race, hrace, hround⟩ := Option.bind_eq_some_iff.mp hround
    have hround' := h.races race (List.mem_of_getElem? hrace) round (List.mem_of_getElem? hround)
    cases moment with
    | opening => exact onTime_of_within hround'.opensAt hnow (battleEnd_le hfit hnow)
    | closing => exact onTime_of_within hround'.closesAt hnow (battleEnd_le hfit hnow)
  | disconnect => exact onTime_scheduleGrace hnow (waitable_graces hvalid hfit).1 htimer
  | pagehide => exact onTime_scheduleGrace hnow hfit.pagehideGrace htimer
  | watchNewRoom =>
    obtain rfl := Option.some.inj htimer
    obtain ⟨n, hms, hn⟩ := (waitable_graces hvalid hfit).2
    rw [hms]
    exact (onTime_after_iff hnow).mpr hn
  | call | cancelGrace | startWordRace => cases htimer

/-- With settings that `setTimeout` can wait for, every date of every run is valid and no timer
fires before its deadline, as long as the clock never goes back. -/
theorem deadlines_kept (rt : Runtime) (code : JsString) {source : Source}
    (henv : loadEnv source = .ok env) (hfit : env.DeadlinesFit) (inputs : List Timed)
    (hpresent : ∀ input ∈ inputs, input.now.PresentDay)
    (htimes : (inputs.map (·.now)).Pairwise (· ≤ ·)) :
    ∀ e ∈ (deployment rt code env).trace {} inputs,
      e.after.DatesValid ∧ ∀ timer ∈ e.output, timer.OnTime := by
  have hvalid := loadEnv_valid henv
  intro e he
  obtain ⟨rest, hbefore⟩ := Machine.promise_of_mem_trace
    (fun e he rest h => h.next hvalid (Machine.step_of_mem_trace he))
    (Deployment.Awaits.start hpresent htimes) he
  have hnow := hbefore.present e.input (List.mem_cons_self ..)
  have hconfigured := hbefore.configured e.input (List.mem_cons_self ..)
  have hstep := Machine.step_of_mem_trace he
  exact ⟨datesValid_of_configured hfit hnow (hconfigured.step hstep hnow.1 hvalid),
    onTime_step hvalid hfit hstep hnow hconfigured⟩

/-- Ana creates a room over HTTP and drops at once; ben joins, both get ready to dance and ana
starts a challenge. -/
def sampleInputs : List Timed :=
  [⟨1700000000000, .call (.create (.string (js "ana")) (.string (js "Ana")) 0)⟩,
    ⟨1700000000000, .watchNewRoom (js "ana")⟩,
    ⟨1700000001000, .disconnect (js "ana")⟩,
    ⟨1700000002000, .cancelGrace (js "ana")⟩,
    ⟨1700000002000, .call (.join (.string (js "ben")) (.string (js "Ben")))⟩,
    ⟨1700000003000, .call (.selectRole (js "ana") (.string (js "dancer")))⟩,
    ⟨1700000003000, .call (.selectRole (js "ben") (.string (js "dancer")))⟩,
    ⟨1700000004000, .call (.setReady (js "ana") (.boolean true))⟩,
    ⟨1700000004000, .call (.setReady (js "ben") (.boolean true))⟩,
    ⟨1700000005000, .call (.startChallenge (js "ana")
      { now := 0, challengeId := js "c1", random := .first })⟩,
    ⟨1700000005000, .armRoomTimer 6 .songChallenge⟩]

/-- The process of the default settings waits 20 seconds for the host of the new room, 15 for ana
to be back and 15 for the phrase. -/
theorem deadlines_kept_sampleInputs :
    ((deployment .ascii (js "ROOM22") defaultEnv).trace {} sampleInputs).filterMap (·.output) =
      [.after 1700000000000 20000, .after 1700000001000 15000,
        .upTo 1700000005000 1700000020000] ∧
    ∀ e ∈ (deployment .ascii (js "ROOM22") defaultEnv).trace {} sampleInputs,
      e.after.DatesValid ∧ ∀ timer ∈ e.output, timer.OnTime := by
  refine ⟨by decide +kernel, deadlines_kept .ascii (js "ROOM22") loadEnv_default ?_ sampleInputs
    (by decide +kernel) (by decide +kernel)⟩
  exact
    { songChallenge := by decide +kernel
      songChoose := by decide +kernel
      battleEnd := by decide +kernel
      createdRoom := ⟨20000, by decide +kernel, by decide⟩
      pagehideGrace := ⟨3000, by decide +kernel, by decide⟩ }

/-- A grace of thirty days. -/
def thirtyDayGrace : Source := fun name =>
  if name = js "DISCONNECT_GRACE_MS" then some (js "2592000000") else none

/-- A grace of thirty days is accepted at startup, and then a player who drops loses the seat after
a millisecond. -/
theorem not_deadlines_kept_thirtyDayGrace : ¬∀ (source : Source) (env : Env)
    (inputs : List Timed), loadEnv source = .ok env →
      (∀ input ∈ inputs, input.now.PresentDay) → (inputs.map (·.now)).Pairwise (· ≤ ·) →
      ∀ e ∈ (deployment .ascii (js "ROOM22") env).trace {} inputs,
        e.after.DatesValid ∧ ∀ timer ∈ e.output, timer.OnTime := by
  intro h
  have henv : loadEnv thirtyDayGrace =
      .ok { defaultEnv with disconnectGraceMs := 2592000000 } := by
    decide +kernel
  obtain ⟨-, htimer⟩ := h thirtyDayGrace _ [⟨1700000000000, .disconnect (js "ana")⟩] henv
    (by decide) (by decide) _ (List.mem_cons_self ..)
  have hlate : ¬(ArmedTimer.after 1700000000000 2592000000).OnTime := by decide +kernel
  exact hlate (htimer _ rfl)

end DanceSync.Config
