import DanceSync.Config.Accepted
import DanceSync.Handlers.DeadlineTimers
import DanceSync.Lifecycle.Freeze

/-!
# A room that is left alone

The deadlines of a room carry it on when nobody acts: the countdown of the phrase hands the choice
to some dancer, the time of the chooser picks a song and starts the battle if it can, and the end of
the song finishes the battle. Each of these use cases is called by a timer of
`src/infrastructure/scheduling/RoomTimers.ts` that is armed from the stored room.

The room is one that configured calls made of a free code. From then on only its pending timers
fire, each at its deadline or somewhat later; one whose deadline is an invalid date may fire at
once.

## Main definitions

* `Room.AtRest`: no phase of the room ends by itself.
* `Room.phasesLeft`, `Config.Env.settlingMs`: how many phases are left, and for how long.
* `LeftAlone`: the firings of a room that is left alone.

## Main results

* `Room.Sound.exists_answered_of_due`: a timer at its deadline ends its phase.
* `Room.Settles.fire`: one firing.
* `unattended_room_settles`.
-/

namespace DanceSync

open Config

/-! ### Phases that end by themselves -/

/-- The battle is over, or the lobby waits for a player: no selection was started, or the song is
chosen. -/
def Room.AtRest (room : Room) : Prop :=
  room.status = .finished ∨
    (room.status = .waiting ∧ ∀ selection ∈ room.songSelection, selection.phase = .done)

/-- The phases from that of the timer on: typing, choosing and the battle. -/
def RoomTimerKind.phases : RoomTimerKind → ℕ
  | .songChallenge => 3
  | .songChoose => 2
  | .battleEnd => 1

/-- The phases that a room may still go through before it is at rest. -/
def Room.phasesLeft (room : Room) : ℕ :=
  match room.status, room.songSelection.map SongSelection.phase with
  | .waiting, some .typing => RoomTimerKind.songChallenge.phases
  | .waiting, some .choosing => RoomTimerKind.songChoose.phases
  | .battling, _ => RoomTimerKind.battleEnd.phases
  | _, _ => 0

namespace Config.Env

/-- How far ahead a deadline of the kind may lie; a sum may be rounded up to the next millisecond. A
song of the catalogue lasts 90 seconds. -/
def phaseMs (env : Env) : RoomTimerKind → ℤ
  | .songChallenge => ⌈env.songChallengeMs⌉
  | .songChoose => ⌈env.songChooseMs⌉
  | .battleEnd => ⌈env.battleStartCountdownMs⌉ + 90000

/-- How long the phases last that are left. -/
def settlingMs (env : Env) : ℕ → ℤ
  | 0 => 0
  | 1 => env.phaseMs .battleEnd
  | 2 => env.phaseMs .songChoose + env.phaseMs .battleEnd
  | _ => env.phaseMs .songChallenge + (env.phaseMs .songChoose + env.phaseMs .battleEnd)

end Config.Env

theorem phaseMs_nonneg {env : Env} (hvalid : env.Valid) (kind : RoomTimerKind) :
    0 ≤ env.phaseMs kind := by
  cases kind with
  | songChallenge => exact Int.ceil_nonneg hvalid.songChallengeMs.lower.le
  | songChoose => exact Int.ceil_nonneg hvalid.songChooseMs.lower.le
  | battleEnd =>
    exact add_nonneg (Int.ceil_nonneg hvalid.battleStartCountdownMs.lower) (by norm_num)

/-! ### Firings -/

/-- A timer that fires: its kind, the clock, and what its use case draws. -/
structure Firing where
  kind : RoomTimerKind
  now : Instant
  random : RandomIndex
  battleId : JsString

/-- The call of a timer that was set for `id`. -/
def Firing.call (env : Env) (firing : Firing) (id : JsString) : RoomOp :=
  firing.kind.call id firing.random (env.battleOptions firing.now firing.battleId)

/-- The stored room, with the clock of what happened to it last. -/
structure Unattended where
  now : Instant
  room : Option Room

/-- The firing of a pending timer, not before its deadline and at most `late` ms after it could
fire. -/
structure Fires (late : ℕ) (s : Unattended) (firing : Firing) (timer : RoomTimer) : Prop where
  pending : ∃ room ∈ s.room, room.deadline firing.kind = some timer
  after : s.now ≤ firing.now
  due : ¬firing.now < timer.deadline
  late : firing.now ≤ max s.now timer.deadline.ms + late

/-- Nothing happens to the room but that these timers fire, one after the other. -/
inductive LeftAlone (rt : Runtime) (code : JsString) (env : Env) (late : ℕ) (start : Unattended) :
    List Firing → Unattended → Prop
  | start : LeftAlone rt code env late start [] start
  | fire {firings : List Firing} {s : Unattended} {firing : Firing} {timer : RoomTimer}
      (before : LeftAlone rt code env late start firings s) (h : Fires late s firing timer) :
      LeftAlone rt code env late start (firings ++ [firing])
        ⟨firing.now, ((firing.call env timer.id).step rt code s.room).1⟩

variable {rt : Runtime} {code : JsString} {env : Env} {room next : Room} {kind : RoomTimerKind}
  {timer : RoomTimer} {now : Instant} {random : RandomIndex} {options : StartBattleOptions}
  {selection : SongSelection} {op : RoomOp} {late : ℕ}

/-! ### Pending timers -/

/-- The pending timer is that of the phase that the room is in. -/
theorem phasesLeft_of_deadline (h : room.deadline kind = some timer) :
    room.phasesLeft = kind.phases := by
  cases kind with
  | songChallenge | songChoose =>
    obtain ⟨selection, hselection, hif⟩ := Option.bind_eq_some_iff.mp h
    split_ifs at hif with hphase
    simp [Room.phasesLeft, hselection, hphase]
  | battleEnd =>
    obtain ⟨battle, -, hif⟩ := Option.bind_eq_some_iff.mp h
    split_ifs at hif with hstatus
    simp [Room.phasesLeft, hstatus]

theorem phases_injective : Function.Injective RoomTimerKind.phases := by
  intro kind kind' h
  cases kind <;> cases kind' <;> first | rfl | cases h

/-- A room that is not at rest waits for a deadline. -/
theorem exists_deadline (hroom : RoomInvariant rt room) (hselection : SelectionInvariant room)
    (h : room.phasesLeft ≠ 0) : ∃ kind timer, room.deadline kind = some timer := by
  unfold Room.phasesLeft at h
  split at h
  next hstatus hphase =>
    obtain ⟨selection, hs, hphase⟩ := Option.map_eq_some_iff.mp hphase
    exact ⟨.songChallenge, ⟨selection.challenge.expiresAt, selection.challenge.id⟩,
      by simp [Room.deadline, hs, hstatus, hphase]⟩
  next hstatus hphase =>
    obtain ⟨selection, hs, hphase⟩ := Option.map_eq_some_iff.mp hphase
    obtain ⟨deadline, hdeadline⟩ :=
      Option.isSome_iff_exists.mp ((hselection.valid selection hs).choosing hphase).2
    exact ⟨.songChoose, ⟨deadline, selection.challenge.id⟩,
      by simp [Room.deadline, hs, hstatus, hphase, hdeadline]⟩
  next hstatus =>
    obtain ⟨battle, hbattle, -⟩ := hroom.battling hstatus
    exact ⟨.battleEnd, ⟨battle.endsAt, battle.id⟩, by simp [Room.deadline, hbattle, hstatus]⟩
  next => exact absurd rfl h

theorem phasesLeft_le (room : Room) : room.phasesLeft ≤ 3 := by
  unfold Room.phasesLeft
  split <;> decide

theorem atRest_iff : room.AtRest ↔ room.phasesLeft = 0 := by
  unfold Room.AtRest Room.phasesLeft
  cases room.status with
  | waiting =>
    cases hselection : room.songSelection with
    | none => simp
    | some selection => cases hphase : selection.phase <;> simp [hphase, RoomTimerKind.phases]
  | battling => simp [RoomTimerKind.phases]
  | finished => simp

/-- A valid date within a sum that is rounded lies at most the time ahead, rounded up. -/
theorem ms_le_of_within {date : Date} {time : ℤ} {last : ℚ} (h : date.Within last)
    (htime : 0 ≤ time) (hlast : |time| ≤ 2 ^ 53 → last ≤ time) : date.ms ≤ time := by
  obtain ⟨ms, rfl, h0, hms⟩ := h
  by_cases hvalid : (Numerics.double.date ms).Valid
  · rcases le_or_gt time MAX_TIME_VALUE with hnear | hfar
    · have hsmall : |time| ≤ 2 ^ 53 := by
        rw [MAX_TIME_VALUE] at hnear
        exact abs_le.mpr ⟨by linarith, by linarith⟩
      exact Numerics.ms_date_le (hms.trans (hlast hsmall)) hvalid
    -- No valid date is that far away.
    · refine (Numerics.ms_date_le ?_ hvalid).trans hfar.le
      exact (abs_le.mp (Numerics.valid_date_double.mp hvalid)).2
  · rcases hdate : Numerics.double.date ms with ms' | _
    · exact absurd (hdate ▸ Date.valid_at) hvalid
    · exact htime

/-- A deadline of a configured room lies at most the time of its phase ahead. -/
theorem deadline_le (h : room.Configured env now) (hnow : 0 ≤ now) (hvalid : env.Valid)
    (hdeadline : room.deadline kind = some timer) :
    timer.deadline.ms ≤ now + env.phaseMs kind := by
  have hround {ms : ℚ} (time : ℤ) (hsmall : |now + ⌈ms⌉ + time| ≤ 2 ^ 53) (htime : 0 ≤ time)
      (hms : 0 ≤ ms) : Binary64.round (now + ms) ≤ (now + ⌈ms⌉ : ℤ) := by
    have hceil : 0 ≤ ⌈ms⌉ := Int.ceil_nonneg hms
    refine Binary64.round_le_intCast (abs_le.mpr ⟨by linarith, ?_⟩) ?_
    · linarith [(abs_le.mp hsmall).2]
    · push_cast
      gcongr
      exact Int.le_ceil ms
  have hpos := phaseMs_nonneg hvalid kind
  cases kind with
  | songChallenge =>
    obtain ⟨selection, hselection, hif⟩ := Option.bind_eq_some_iff.mp hdeadline
    split_ifs at hif
    obtain rfl := Option.some.inj hif
    exact ms_le_of_within (h.selection selection hselection).expiresAt (by linarith) fun hsmall =>
      hround 0 (by simpa [Config.Env.phaseMs] using hsmall) le_rfl
        hvalid.songChallengeMs.lower.le
  | songChoose =>
    obtain ⟨selection, hselection, hif⟩ := Option.bind_eq_some_iff.mp hdeadline
    split_ifs at hif
    obtain ⟨deadline, hchoose, rfl⟩ := Option.map_eq_some_iff.mp hif
    exact ms_le_of_within ((h.selection selection hselection).chooseDeadline deadline hchoose)
      (by linarith) fun hsmall =>
        hround 0 (by simpa [Config.Env.phaseMs] using hsmall) le_rfl
          hvalid.songChooseMs.lower.le
  | battleEnd =>
    obtain ⟨battle, hbattle, hif⟩ := Option.bind_eq_some_iff.mp hdeadline
    split_ifs at hif
    obtain rfl := Option.some.inj hif
    refine ms_le_of_within (h.battle battle hbattle).endsAt (by linarith) fun hsmall => ?_
    rw [Config.Env.phaseMs, ← add_assoc] at hsmall
    have hstart := hround _ hsmall (by norm_num) hvalid.battleStartCountdownMs.lower
    rw [Config.Env.phaseMs, ← add_assoc]
    refine Binary64.round_le_intCast hsmall ?_
    rw [Int.cast_add]
    exact add_le_add hstart (by norm_num)

/-! ### The end of a phase -/

/-- A call of a timer that changes the room is answered. -/
theorem answered_of_next_ne (hop : op.isTimer)
    (h : (roomMachine rt code).next (some room) op ≠ some room) : ∃ next reply,
      op.step rt code (some room) = (some { next with version := room.version + 1 }, .ok reply) ∧
        Change rt room op next := by
  have hanswered : Answered rt code (some room) op (op.step rt code (some room)) :=
    answered rt code (some room) op
  change (op.step rt code (some room)).1 ≠ _ at h
  generalize op.step rt code (some room) = answer at h hanswered
  obtain ⟨slot, error | reply⟩ := answer
  · exact absurd (hanswered.refused error rfl) h
  · have hstored := hanswered.stored
    cases hstored with
    | unchanged => exact absurd rfl h
    | changed hchange => exact ⟨_, reply, rfl, hchange⟩
    | deleted => cases hop

/-- A timer that changes the room leaves fewer phases. -/
theorem phasesLeft_of_change {id : JsString}
    (h : Change rt room (kind.call id random options) next) : next.phasesLeft < kind.phases := by
  have hbattle (room : Room) (hphase : ∀ s ∈ room.songSelection, s.phase = .done) :
      room.phasesLeft ≤ RoomTimerKind.battleEnd.phases := by
    unfold Room.phasesLeft
    split
    next hphase' =>
      obtain ⟨s, hs, htyping⟩ := Option.map_eq_some_iff.mp hphase'
      exact absurd ((hphase s hs).symm.trans htyping) (by decide)
    next hphase' =>
      obtain ⟨s, hs, hchoosing⟩ := Option.map_eq_some_iff.mp hphase'
      exact absurd ((hphase s hs).symm.trans hchoosing) (by decide)
    next => exact le_rfl
    next => exact Nat.zero_le _
  cases kind with
  | songChallenge =>
    simp only [RoomTimerKind.call] at h
    cases h with
    | expired selection _ _ _ hfallback =>
      cases hfallback with
      | cancelled => exact (hbattle _ (by simp)).trans_lt (by decide)
      | assigned chooserId =>
        cases hstatus : room.status <;>
          simp [Room.phasesLeft, RoomTimerKind.phases]
  | songChoose =>
    simp only [RoomTimerKind.call] at h
    cases h with
    | @songPicked _ _ _ picked _ hpicked hnext =>
      have hdone : ∀ s ∈ picked.songSelection, s.phase = .done := by
        cases hpicked with
        | cancelled => simp
        | picked => rintro s ⟨⟩; rfl
      rcases hnext with rfl | hstarted
      · exact (hbattle _ hdone).trans_lt (by decide)
      · refine (hbattle next ?_).trans_lt (by decide)
        rw [hstarted.selection_eq]
        exact hdone
  | battleEnd =>
    simp only [RoomTimerKind.call] at h
    cases h with
    | finished => exact Nat.zero_lt_one

/-! ### Sound rooms -/

theorem ne_nil_of_validatePlayer {id displayName : JsValue} {who : Identity}
    (h : validatePlayer id displayName = .ok who) : who.id ≠ [] := by
  unfold validatePlayer at h
  cases id with
  | string id =>
    simp only [JsValue.string?, bind_eq_ok, pure_eq_ok] at h
    obtain ⟨_, hid, _, -, rfl⟩ := h
    have hlength := throwIf_eq_ok.mp hid
    exact fun hnil => hlength (Or.inl (List.length_eq_zero_iff.mpr hnil))
  | _ => simp [JsValue.string?] at h

/-- No player of a stored room has an empty id. -/
theorem named_run (rt : Runtime) (code : JsString) (ops : List RoomOp) :
    ∀ room ∈ (roomMachine rt code).run none ops, ∀ p ∈ room.players, p.id ≠ [] := by
  refine Machine.run_invariant (M := roomMachine rt code)
    (P := fun slot => ∀ room ∈ slot, ∀ p ∈ room.players, p.id ≠ []) (fun e he h => ?_) (by simp)
  rw [Machine.event_of_mem_trace he]
  show ∀ room ∈ (roomMachine rt code).next e.before e.input, _
  have hstored := step_spec rt code e.before e.input
  generalize hafter : (roomMachine rt code).next e.before e.input = slot at hstored
  intro room hroom
  obtain rfl : slot = some room := hroom
  generalize e.before = before at h hstored hafter
  generalize e.input = op at hstored hafter
  cases hstored with
  | unchanged => exact h room rfl
  | created =>
    obtain ⟨who, valid, hvalid, hnew⟩ := created_of_next hafter
    rw [hnew]
    simpa [RoomService.newRoom] using ne_nil_of_validatePlayer hvalid
  | changed hchange =>
    rcases hchange.identities_sublist with ⟨playerId, displayName, rfl⟩ | hsublist
    · rcases joined_of_next hafter with hsame | ⟨who, next, -, hjoin, hnext⟩
      · rw [hsame]
        exact h _ rfl
      · simp only [RoomService.join, bind_eq_ok, throwIf_eq_ok, exists_const, pure_eq_ok] at hjoin
        obtain ⟨-, -, -, valid, hvalid, name, -, rfl⟩ := hjoin
        rw [hnext]
        show ∀ p ∈ _ ++ [_], _
        rw [List.forall_mem_append]
        exact ⟨h _ rfl, by simpa using ne_nil_of_validatePlayer hvalid⟩
    · intro p hp
      obtain ⟨q, hq, hsame⟩ := List.mem_map.mp (hsublist.subset (List.mem_map_of_mem hp))
      have hid : q.id = p.id := congrArg Identity.id hsame
      exact hid ▸ h _ rfl q hq

/-- What every stored room of a configured process satisfies at `now`. -/
structure Room.Sound (rt : Runtime) (env : Env) (room : Room) (now : Instant) : Prop where
  lifecycle : RoomInvariant rt room
  selection : SelectionInvariant room
  configured : room.Configured env now
  named : ∀ p ∈ room.players, p.id ≠ []
  clock : 0 ≤ now

namespace Room.Sound

theorem mono {later : Instant} (h : room.Sound rt env now) (hlater : now ≤ later) :
    room.Sound rt env later :=
  ⟨h.lifecycle, h.selection, h.configured.mono hlater, h.named, h.clock.trans hlater⟩

/-- A timer at its deadline ends its phase. -/
theorem exists_answered_of_due (h : room.Sound rt env now) (code : JsString)
    (htimed : options.Timed)
    (hdeadline : room.deadline kind = some timer) (hdue : ¬options.now < timer.deadline) :
    ∃ next reply, (kind.call timer.id random options).step rt code (some room) =
        (some { next with version := room.version + 1 }, .ok reply) ∧
      Change rt room (kind.call timer.id random options) next := by
  refine answered_of_next_ne (Publishing.isTimer_call kind timer.id random options) ?_
  cases kind with
  | songChallenge =>
    obtain ⟨selection, hselection, hif⟩ := Option.bind_eq_some_iff.mp hdeadline
    split_ifs at hif with hphase
    obtain rfl := Option.some.inj hif
    exact next_ne_of_typing hselection hphase.2
  | songChoose =>
    obtain ⟨selection, hselection, hif⟩ := Option.bind_eq_some_iff.mp hdeadline
    split_ifs at hif with hphase
    obtain ⟨deadline, hchoose, rfl⟩ := Option.map_eq_some_iff.mp hif
    obtain ⟨⟨chooserId, -, hchooser⟩, -⟩ :=
      (h.selection.valid selection hselection).choosing hphase.2
    -- The chooser is seated, so the id is a name that was checked.
    obtain ⟨p, hp, hid⟩ := List.mem_map.mp
      (h.selection.present selection hselection hphase.2 chooserId hchooser)
    exact next_ne_of_choosing hselection hphase.2 hchooser (hid ▸ h.named p hp) hchoose hdue
      (.inr htimed)
  | battleEnd =>
    obtain ⟨battle, hbattle, hif⟩ := Option.bind_eq_some_iff.mp hdeadline
    split_ifs at hif with hstatus
    obtain rfl := Option.some.inj hif
    intro hsame
    exact stored_ne ((next_finishAtDeadline hstatus hbattle hdue).symm.trans hsame)

/-- The room that a timer stores is sound again. -/
theorem fired {later : Instant} {id battleId : JsString} (h : room.Sound rt env now)
    (hvalid : env.Valid) (hlater : now ≤ later)
    (hchange : Change rt room (kind.call id random (env.battleOptions later battleId)) next) :
    { next with version := room.version + 1 }.Sound rt env later := by
  have hconfigured : (kind.call id random (env.battleOptions later battleId)).Configured env
      later := by
    cases kind with
    | songChallenge | battleEnd =>
      exact ⟨by rintro time ⟨⟩; rfl, by rintro options ⟨⟩, by rintro requesterId options ⟨⟩⟩
    | songChoose =>
      exact ⟨by rintro time ⟨⟩; rfl, by rintro options ⟨⟩; rfl, by rintro requesterId options ⟨⟩⟩
  have hids : next.players.map (·.toIdentity) = room.players.map (·.toIdentity) :=
    hchange.identities_eq (by cases kind <;> rfl)
  have hlater' := h.mono hlater
  have hstored : Stored rt room.code (some room) (kind.call id random _) (some _) :=
    .changed hchange
  exact
    { lifecycle := hstored.roomInvariant (by rintro _ ⟨⟩; exact h.lifecycle) _ rfl
      selection := hstored.selectionInvariant (by rintro _ ⟨⟩; exact h.selection) _ rfl
      configured := hstored.configured hconfigured hlater'.clock hvalid
        (by rintro _ ⟨⟩; exact hlater'.configured) _ rfl
      named := fun p hp => by
        obtain ⟨q, hq, hsame⟩ := List.mem_map.mp (hids ▸ List.mem_map_of_mem hp)
        have hid : q.id = p.id := congrArg Identity.id hsame
        exact hid ▸ h.named q hq
      clock := hlater'.clock }

/-- The rooms of configured calls are sound from the last call on. -/
theorem of_run (hvalid : env.Valid) {calls : List (Instant × RoomOp)} {start : Instant}
    (htimes : (calls.map (·.1)).Pairwise (· ≤ ·)) (hclock : ∀ call ∈ calls, 0 ≤ call.1)
    (hstart : ∀ call ∈ calls, call.1 ≤ start) (hstart0 : 0 ≤ start)
    (hroom : (roomMachine rt code).run none (calls.map fun call => env.configure call.1 call.2) =
      some room) : room.Sound rt env start := by
  have hconfigured : ∀ room ∈ (roomMachine rt code).run none
      (calls.map fun call => env.configure call.1 call.2), room.Configured env start := by
    clear hroom hstart0
    induction calls using List.reverseRecOn generalizing start with
    | nil => simp
    | append_singleton calls call ih =>
      rw [List.map_append, List.pairwise_append] at htimes
      rw [List.forall_mem_append, List.forall_mem_singleton] at hclock hstart
      have hbefore := ih htimes.1 hclock.1 fun earlier hearlier =>
        htimes.2.2 earlier.1 (List.mem_map_of_mem hearlier) call.1 (by simp)
      rw [List.map_append, Machine.run_append]
      intro room hroom
      exact ((step_spec rt code _ _).configured (configured_configure env call.1 call.2) hclock.2
        hvalid hbefore room hroom).mono hstart.2
  exact
    { lifecycle := roomInvariant_run rt code _ (by simp) room hroom
      selection := selectionInvariant_run rt code _ (by simp) room hroom
      configured := hconfigured room hroom
      named := named_run rt code _ room hroom
      clock := hstart0 }

end Room.Sound

/-! ### Every run -/

theorem settlingMs_mono (hvalid : env.Valid) : Monotone env.settlingMs := by
  refine monotone_nat_of_le_succ fun n => ?_
  match n with
  | 0 => exact phaseMs_nonneg hvalid .battleEnd
  | 1 => exact le_add_of_nonneg_left (phaseMs_nonneg hvalid .songChoose)
  | 2 => exact le_add_of_nonneg_left (phaseMs_nonneg hvalid .songChallenge)
  | _ + 3 => exact le_rfl

theorem settlingMs_phases (env : Env) (kind : RoomTimerKind) :
    env.settlingMs kind.phases = env.phaseMs kind + env.settlingMs (kind.phases - 1) := by
  cases kind <;> simp [Config.Env.settlingMs, RoomTimerKind.phases]

/-- What became of a room after some firings since `start`: nobody came or went, every firing made a
newer version and used up a phase, and the time went by as the phases do. -/
structure Room.Settles (env : Env) (late : ℕ) (room : Room) (start : Instant) (fired : ℕ)
    (next : Room) (now : Instant) : Prop where
  players : next.players.map (·.toIdentity) = room.players.map (·.toIdentity)
  version : next.version = room.version + fired
  phases : fired + next.phasesLeft ≤ room.phasesLeft
  time : now + env.settlingMs next.phasesLeft + late * next.phasesLeft ≤
    start + env.settlingMs room.phasesLeft + late * room.phasesLeft

/-- One more timer fires. -/
theorem Room.Settles.fire {next' : Room} {later start : Instant} {fired : ℕ}
    {id battleId : JsString}
    (h : room.Settles env late start fired next now) (hvalid : env.Valid)
    (hsound : next.Sound rt env now) (hdeadline : next.deadline kind = some timer)
    (hlate : later ≤ max now timer.deadline.ms + late)
    (hchange : Change rt next (kind.call id random (env.battleOptions later battleId)) next') :
    room.Settles env late start (fired + 1) { next' with version := next.version + 1 } later := by
  have hphase : next.phasesLeft = kind.phases := phasesLeft_of_deadline hdeadline
  have hleft : next'.phasesLeft < kind.phases := phasesLeft_of_change hchange
  have hpast : later ≤ now + env.phaseMs kind + late := by
    have hmax : max now timer.deadline.ms ≤ now + env.phaseMs kind :=
      max_le (le_add_of_nonneg_right (phaseMs_nonneg hvalid kind))
        (deadline_le hsound.configured hsound.clock hvalid hdeadline)
    linarith
  refine ⟨?_, ?_, ?_, ?_⟩
  · exact (hchange.identities_eq (by cases kind <;> rfl)).trans h.players
  · show next.version + 1 = _
    rw [h.version, Nat.add_assoc]
  · show fired + 1 + next'.phasesLeft ≤ _
    have hphases := h.phases
    omega
  · have htime := h.time
    rw [hphase, settlingMs_phases] at htime
    have hsettling : env.settlingMs next'.phasesLeft ≤ env.settlingMs (kind.phases - 1) :=
      settlingMs_mono hvalid (by omega)
    have hlateness : (late : ℤ) * (next'.phasesLeft + 1 : ℕ) ≤ late * kind.phases := by
      gcongr
      omega
    rw [Nat.cast_add, Nat.cast_one, mul_add, mul_one] at hlateness
    show later + env.settlingMs next'.phasesLeft + late * next'.phasesLeft ≤ _
    linarith

/-- The room is stored until its timers stop, and every timer that fires is answered. -/
theorem LeftAlone.settles {start s : Unattended} {firings : List Firing} (hvalid : env.Valid)
    (hstart : start.room = some room) (hsound : room.Sound rt env start.now)
    (h : LeftAlone rt code env late start firings s) : ∃ next, s.room = some next ∧
      next.Sound rt env s.now ∧ room.Settles env late start.now firings.length next s.now := by
  induction h with
  | start => exact ⟨room, hstart, hsound, rfl, rfl, (Nat.zero_add _).le, le_rfl⟩
  | @fire firings s firing timer _ hfires ih =>
    obtain ⟨next, hnext, hsound, hsettles⟩ := ih
    obtain ⟨next', hslot, hdeadline⟩ := hfires.pending
    obtain rfl : next = next' := Option.some.inj (hnext.symm.trans hslot)
    obtain ⟨next', reply, hstep, hchange⟩ :=
      hsound.exists_answered_of_due code (hvalid.timed firing.now firing.battleId)
        hdeadline hfires.due
    refine ⟨{ next' with version := next.version + 1 }, ?_,
      hsound.fired hvalid hfires.after hchange, ?_⟩
    · show ((firing.call env timer.id).step rt code s.room).1 = _
      rw [hnext, Firing.call, hstep]
    · rw [List.length_append, List.length_singleton]
      exact hsettles.fire hvalid hsound hdeadline hfires.late hchange

/-- A room that is left alone comes to rest after at most three timers, which fire one at a time and
are all answered. It takes no longer than the phases and the lateness of the timers together. -/
theorem unattended_room_settles (rt : Runtime) (code : JsString) {source : Source}
    (henv : loadEnv source = .ok env) {calls : List (Instant × RoomOp)} {start : Instant}
    (htimes : (calls.map (·.1)).Pairwise (· ≤ ·))
    (hclock : ∀ call ∈ calls, 0 ≤ call.1 ∧ call.1 ≤ start)
    (hroom : (roomMachine rt code).run none (calls.map fun call => env.configure call.1 call.2) =
      some room) {firings : List Firing} {s : Unattended}
    (h : LeftAlone rt code env late ⟨start, (roomMachine rt code).run none
      (calls.map fun call => env.configure call.1 call.2)⟩ firings s) :
    ∃ next, s.room = some next ∧
      next.players.map (·.toIdentity) = room.players.map (·.toIdentity) ∧
      next.version = room.version + firings.length ∧ firings.length ≤ 3 ∧
      s.now ≤ start + ⌈env.songChallengeMs⌉ + ⌈env.songChooseMs⌉ +
        ⌈env.battleStartCountdownMs⌉ + 90000 + 3 * late ∧
      (∀ firing timer, Fires late s firing timer →
        ∃ reply, ((firing.call env timer.id).step rt code s.room).2 = .ok reply) ∧
      (next.AtRest ∧ (∀ kind, next.deadline kind = none) ∨ ∃ kind timer,
        next.deadline kind = some timer ∧ ∀ other, other ≠ kind → next.deadline other = none) := by
  have hvalid := loadEnv_valid henv
  have hstart0 : 0 ≤ start := by
    cases calls with
    | nil => cases hroom
    | cons call calls => exact (hclock call (by simp)).1.trans (hclock call (by simp)).2
  have hsound : room.Sound rt env start :=
    .of_run hvalid htimes (fun call hcall => (hclock call hcall).1)
      (fun call hcall => (hclock call hcall).2) hstart0 hroom
  obtain ⟨next, hnext, hnow, hsettles⟩ := h.settles hvalid hroom hsound
  refine ⟨next, hnext, hsettles.players, hsettles.version, ?_, ?_, ?_, ?_⟩
  · have hphases := hsettles.phases
    have hleft := phasesLeft_le room
    omega
  · have htime := hsettles.time
    have hleft : (room.phasesLeft : ℤ) ≤ 3 := by exact_mod_cast phasesLeft_le room
    have hlateness : (late : ℤ) * room.phasesLeft ≤ late * 3 := by gcongr
    have hlate : (0 : ℤ) ≤ late * next.phasesLeft := by positivity
    have hsettling : env.settlingMs room.phasesLeft ≤ ⌈env.songChallengeMs⌉ +
        (⌈env.songChooseMs⌉ + (⌈env.battleStartCountdownMs⌉ + 90000)) :=
      settlingMs_mono hvalid (phasesLeft_le room)
    have hrest : 0 ≤ env.settlingMs next.phasesLeft := settlingMs_mono hvalid (Nat.zero_le _)
    linarith
  · intro firing timer hfires
    obtain ⟨next', hslot, hdeadline⟩ := hfires.pending
    obtain rfl : next = next' := Option.some.inj (hnext.symm.trans hslot)
    obtain ⟨_, reply, hstep, -⟩ := hnow.exists_answered_of_due code
      (hvalid.timed firing.now firing.battleId) hdeadline hfires.due
    exact ⟨reply, by rw [hnext, Firing.call, hstep]⟩
  · by_cases hrest : next.phasesLeft = 0
    · refine Or.inl ⟨atRest_iff.mpr hrest, fun kind => ?_⟩
      by_contra hpending
      obtain ⟨timer, htimer⟩ := Option.ne_none_iff_exists'.mp hpending
      have hphase := phasesLeft_of_deadline htimer
      cases kind <;> exact absurd (hphase.symm.trans hrest) (by decide)
    · obtain ⟨kind, timer, htimer⟩ := exists_deadline hnow.lifecycle hnow.selection hrest
      refine Or.inr ⟨kind, timer, htimer, fun other hother => ?_⟩
      by_contra hpending
      obtain ⟨_, htimer'⟩ := Option.ne_none_iff_exists'.mp hpending
      exact hother (phases_injective
        ((phasesLeft_of_deadline htimer').symm.trans (phasesLeft_of_deadline htimer)))

/-- Ana and ben get ready for a challenge, and nobody types. -/
def sampleAway : List (Instant × RoomOp) :=
  [(1700000000000, .create (.string (js "ana")) (.string (js "Ana")) 0),
    (1700000002000, .join (.string (js "ben")) (.string (js "Ben"))),
    (1700000003000, .selectRole (js "ana") (.string (js "dancer"))),
    (1700000003000, .selectRole (js "ben") (.string (js "dancer"))),
    (1700000004000, .setReady (js "ana") (.boolean true)),
    (1700000004000, .setReady (js "ben") (.boolean true)),
    (1700000005000, .startChallenge (js "ana")
      { now := 0, challengeId := js "c1", random := .first })]

/-- The countdown ends on time, the pick comes 10 ms late, and the battle ends on time. -/
def sampleFirings : List Firing :=
  [⟨.songChallenge, 1700000020000, .first, []⟩, ⟨.songChoose, 1700000040010, .first, js "b1"⟩,
    ⟨.battleEnd, 1700000135010, .first, []⟩]

/-- The room of ana and ben has played a battle 130 seconds later. -/
theorem unattended_room_settles_sampleAway :
    let code := js "ROOM22"
    let slot := (roomMachine .ascii code).run none
      (sampleAway.map fun call => defaultEnv.configure call.1 call.2)
    ∃ room ∈ slot, ∃ s, LeftAlone .ascii code defaultEnv 10 ⟨1700000005000, slot⟩ sampleFirings s ∧
      ∃ next, s.room = some next ∧ next.version = room.version + 3 ∧
        s.now ≤ 1700000005000 + ⌈defaultEnv.songChallengeMs⌉ + ⌈defaultEnv.songChooseMs⌉ +
          ⌈defaultEnv.battleStartCountdownMs⌉ + 90000 + 3 * 10 := by
  intro code slot
  obtain ⟨room, hroom⟩ : ∃ room, slot = some room :=
    Option.isSome_iff_exists.mp (by decide +kernel)
  have hstart : LeftAlone .ascii code defaultEnv 10 ⟨1700000005000, slot⟩ [] _ := .start
  have htyping := hstart.fire
    (⟨by decide +kernel, by decide, by decide, by decide⟩ : Fires 10 _
      ⟨.songChallenge, 1700000020000, .first, []⟩ ⟨1700000020000, js "c1"⟩)
  have hchoosing := htyping.fire
    (⟨by decide +kernel, by decide, by decide, by decide⟩ : Fires 10 _
      ⟨.songChoose, 1700000040010, .first, js "b1"⟩ ⟨1700000040000, js "c1"⟩)
  have hend := hchoosing.fire
    (⟨by decide +kernel, by decide, by decide, by decide⟩ : Fires 10 _
      ⟨.battleEnd, 1700000135010, .first, []⟩ ⟨1700000135010, js "b1"⟩)
  obtain ⟨next, hnext, -, hversion, -, htime, -, -⟩ := unattended_room_settles .ascii code
    loadEnv_default (by decide) (by decide) hroom hend
  exact ⟨room, hroom, _, hend, next, hnext, hversion, htime⟩

end DanceSync
