import DanceSync.Application.Replies

/-!
# Retried updates

`RoomRepository.update` as its port documents it, `src/domain/ports/RoomRepository.ts`: the
mutation runs on a state that was read, and when somebody wrote in between, its result is
discarded and it runs again on a newer state. The variables that a use case captures are assigned
inside the mutation, so a discarded run assigns them too.

## Main definitions

* `RoomUpdate.retried`: a use case on a store that discards some runs of its mutation.
* `RoomUpdate.Restarts`: the mutation assigns its captured variables anew whenever it decides.

## Main results

* `RoomUpdate.retried_nil`: the in-memory store is one that discards no run.
* `RoomUpdate.Restarts.survivesRetries`, `use_cases_survive_retries`.
-/

namespace DanceSync

namespace RoomUpdate

variable {φ ρ : Type} (u : RoomUpdate φ ρ) (code : JsString)

/-- The captured variables after runs on states that somebody else replaced meanwhile. -/
def discardedRuns (discarded : List Room) : φ :=
  discarded.foldl (fun flags room => (u.mutate flags room).1) u.initial

/-- Runs a use case whose mutation ran on `discarded` before it is committed on `slot`. -/
def retried (discarded : List Room) (slot : Option Room) : Option Room × Except JsError ρ :=
  match slot with
  | none =>
    (none, u.caught (.domain .roomNotFound (js "Room " ++ code ++ js " does not exist")))
  | some current =>
    match u.mutate (u.discardedRuns discarded) current with
    | (_, .error e) => (some current, u.caught e)
    | (flags, .ok .same) => (some current, u.result (some current) flags)
    | (flags, .ok (.room next)) =>
      let stored := { next with version := current.version + 1 }
      (some stored, u.result (some stored) flags)
    | (flags, .ok .null) => (none, u.result none flags)

/-- A use case stores and returns what it does when its mutation runs once, on the committed state,
whatever runs were discarded before; and an error of the last run is returned with nothing
stored. -/
def SurvivesRetries : Prop :=
  ∀ (discarded : List Room) (slot : Option Room),
    u.retried code discarded slot = u.execute code slot ∧
      ∀ room ∈ slot, ∀ e, (u.mutate (u.discardedRuns discarded) room).2 = .error e →
        u.retried code discarded slot = (some room, .error e)

/-- On every room a mutation throws an error that is not caught, or it decides and assigns all
captured variables, whatever was assigned before. -/
def Restarts : Prop :=
  ∀ room, (∃ flags m, ∀ before, u.mutate before room = (flags, .ok m)) ∨
    ∃ e, u.rescue e = none ∧ ∀ before, (u.mutate before room).2 = .error e

variable {u}

/-- The in-memory store, which never conflicts, is one that discards no run, for a use case that
leaves the version to the store. -/
theorem retried_nil
    (hversion : ∀ room next, u.decide room = .ok (.room next) → next.version = room.version)
    (slot : Option Room) : u.retried code [] slot = u.execute code slot := by
  cases slot with
  | none => rfl
  | some room =>
    have hruns : u.discardedRuns [] = u.initial := rfl
    rcases hmutate : u.mutate u.initial room with ⟨flags, e | (_ | next | _)⟩
    · simp only [execute_of_error hmutate, retried, hruns, hmutate]
    · simp only [execute_of_same hmutate, retried, hruns, hmutate]
    · have hnext := hversion room next (by rw [decide, hmutate])
      simp only [execute_of_room hmutate hnext, retried, hruns, hmutate]
    · simp only [execute_of_null hmutate, retried, hruns, hmutate]

theorem Restarts.survivesRetries (h : u.Restarts)
    (hversion : ∀ room next, u.decide room = .ok (.room next) → next.version = room.version) :
    u.SurvivesRetries code := by
  intro discarded slot
  rw [← retried_nil code hversion]
  cases slot with
  | none => exact ⟨rfl, by simp⟩
  | some room =>
    rcases h room with ⟨flags, m, hdecide⟩ | ⟨e, hrescue, hthrow⟩
    · refine ⟨by simp only [retried, hdecide], ?_⟩
      rintro r ⟨⟩ e he
      simp [hdecide] at he
    · have hlast : ∀ discarded, u.retried code discarded (some room) = (some room, .error e) := by
        intro discarded
        have hanswer := hthrow (u.discardedRuns discarded)
        rcases hmutate : u.mutate (u.discardedRuns discarded) room with ⟨flags, answer⟩
        obtain rfl : answer = .error e := by rw [← hanswer, hmutate]
        simp only [retried, hmutate, caught, hrescue]
      refine ⟨by rw [hlast, hlast], ?_⟩
      rintro r ⟨⟩ e' he'
      rw [hthrow] at he'
      rw [hlast, Except.error.inj he']

end RoomUpdate

variable {rt : Runtime} {code : JsString} {room next : Room} {op : RoomOp}

/-! ### Versions -/

/-- A change leaves the version to the store. -/
theorem Change.version_eq (h : Change rt room op next) : next.version = room.version := h.frame.2

theorem version_eq_of_decide_leave {playerId : JsString} {random : RandomIndex} {now : Instant}
    (h : (JoinRoom.leave rt playerId random now).decide room = .ok (.room next)) :
    next.version = room.version := by
  simp only [RoomUpdate.decide, JoinRoom.leave] at h
  cases hleave : RoomService.leave rt room playerId random now with
  | error e => simp [hleave] at h
  | ok updated =>
    rw [hleave] at h
    have hmutated := Except.ok.inj h
    split_ifs at hmutated
    rw [← Mutated.room.inj hmutated]
    exact (RoomService.leave_spec hleave).version_eq

/-! ### The use cases -/

theorem castVote_restarts (rt : Runtime) (code voterId : JsString) (dancerId : JsValue)
    (now : Instant) : (CastVote.execute rt code voterId dancerId now).Restarts := by
  intro room
  cases h : RoomService.castVote rt room voterId dancerId now with
  | error e => exact Or.inr ⟨e, rfl, fun _ => by simp only [CastVote.execute, h]⟩
  | ok next =>
    exact Or.inl ⟨next.isSome, .ofOption next, fun _ => by simp only [CastVote.execute, h]⟩

theorem chooseSong_restarts (rt : Runtime) (code playerId songId : JsString)
    (options : StartBattleOptions) :
    (ChooseSong.execute rt code playerId songId options).Restarts := by
  intro room
  cases h : SongSelectionService.choose room playerId songId with
  | error e => exact Or.inr ⟨e, rfl, fun _ => by simp only [ChooseSong.execute, h]⟩
  | ok chosen =>
    cases hstart : ChooseSong.startIfPossible rt chosen options with
    | error e => exact Or.inr ⟨e, rfl, fun _ => by simp only [ChooseSong.execute, h, hstart]⟩
    | ok started =>
      exact Or.inl ⟨started.2, .room started.1, fun _ => by
        simp only [ChooseSong.execute, h, hstart]⟩

theorem autoPick_restarts (rt : Runtime) (code challengeId : JsString) (random : RandomIndex)
    (options : StartBattleOptions) :
    (ChooseSong.autoPick rt code challengeId random options).Restarts := by
  intro room
  cases h : SongSelectionService.autoPick room challengeId options.now random with
  | error e => exact Or.inr ⟨e, rfl, fun _ => by simp only [ChooseSong.autoPick, h]⟩
  | ok picked =>
    cases picked with
    | none => exact Or.inl ⟨(false, false), .same, fun _ => by simp only [ChooseSong.autoPick, h]⟩
    | some chosen =>
      cases hstart : ChooseSong.startIfPossible rt chosen options with
      | error e => exact Or.inr ⟨e, rfl, fun _ => by simp only [ChooseSong.autoPick, h, hstart]⟩
      | ok started =>
        exact Or.inl ⟨(true, started.2), .room started.1, fun _ => by
          simp only [ChooseSong.autoPick, h, hstart]⟩

theorem finishAtDeadline_restarts (rt : Runtime) (code battleId : JsString) (now : Instant) :
    (FinishBattleAtDeadline.execute rt code battleId now).Restarts := by
  intro room
  by_cases hid : room.battle.map (·.id) ≠ some battleId
  · exact Or.inl ⟨false, .same, fun _ => by simp only [FinishBattleAtDeadline.execute, if_pos hid]⟩
  · obtain ⟨next, hnext⟩ := exists_finishAtDeadline rt room now
    exact Or.inl ⟨next.isSome, .ofOption next, fun _ => by
      simp only [FinishBattleAtDeadline.execute, if_neg hid, hnext]⟩

theorem leave_restarts (rt : Runtime) (playerId : JsString) (random : RandomIndex) (now : Instant) :
    (JoinRoom.leave rt playerId random now).Restarts := by
  intro room
  cases h : RoomService.leave rt room playerId random now with
  | error e => exact Or.inr ⟨e, rfl, fun _ => by simp only [JoinRoom.leave, h]⟩
  | ok updated =>
    exact Or.inl ⟨_, if updated.players.length = 0 then .null else .room updated, fun _ => by
      simp only [JoinRoom.leave, h]; rfl⟩

theorem rematch_restarts (code requesterId : JsString) :
    (StartRematch.execute code requesterId).Restarts := by
  intro room
  cases h : RoomService.rematch room requesterId with
  | error e => exact Or.inr ⟨e, rfl, fun _ => by simp only [StartRematch.execute, h]⟩
  | ok next => exact Or.inl ⟨_, .room next, fun _ => by simp only [StartRematch.execute, h]; rfl⟩

/-- The end of a countdown never throws: the fallback always finds somebody or cancels. -/
theorem exists_expire (room : Room) (challengeId : JsString) (random : RandomIndex)
    (now : Instant) :
    ∃ next, SongSelectionService.expire room challengeId random now = .ok next := by
  unfold SongSelectionService.expire
  split
  next selection _ =>
    split_ifs
    · exact ⟨none, rfl⟩
    · obtain ⟨next, hnext⟩ := SongSelectionService.exists_assignFallbackChooser room selection
        .timeout random now
      exact ⟨some next, by rw [hnext]; rfl⟩
  next => exact ⟨none, rfl⟩

theorem expire_restarts (code challengeId : JsString) (random : RandomIndex) (now : Instant) :
    (StartSongChallenge.expire code challengeId random now).Restarts := by
  intro room
  obtain ⟨next, hnext⟩ := exists_expire room challengeId random now
  exact Or.inl ⟨next.isSome, .ofOption next, fun _ => by
    simp only [StartSongChallenge.expire, hnext]⟩

theorem submitPhrase_restarts (rt : Runtime) (code playerId text : JsString) (now : Instant)
    (random : RandomIndex) :
    (SubmitSongPhrase.update rt code playerId text now random).Restarts := by
  intro room
  cases h : SongSelectionService.submit rt room playerId text now random with
  | error e => exact Or.inr ⟨e, rfl, fun _ => by simp only [SubmitSongPhrase.update, h]⟩
  | ok submitted =>
    exact Or.inl ⟨submitted.2, .room submitted.1, fun _ => by
      simp only [SubmitSongPhrase.update, h]⟩

/-- The use cases whose callers act on captured variables return the same for every list of
discarded runs, and an error of the last run with nothing stored. -/
theorem use_cases_survive_retries (rt : Runtime) (code : JsString) :
    (∀ voterId dancerId now,
      (CastVote.execute rt code voterId dancerId now).SurvivesRetries code) ∧
    (∀ playerId songId options,
      (ChooseSong.execute rt code playerId songId options).SurvivesRetries code) ∧
    (∀ challengeId random options,
      (ChooseSong.autoPick rt code challengeId random options).SurvivesRetries code) ∧
    (∀ battleId now,
      (FinishBattleAtDeadline.execute rt code battleId now).SurvivesRetries code) ∧
    (∀ playerId random now, (JoinRoom.leave rt playerId random now).SurvivesRetries code) ∧
    (∀ requesterId, (StartRematch.execute code requesterId).SurvivesRetries code) ∧
    (∀ challengeId random now,
      (StartSongChallenge.expire code challengeId random now).SurvivesRetries code) ∧
    ∀ playerId text now random u,
      SubmitSongPhrase.execute rt code playerId text now random = .ok u →
        u.SurvivesRetries code := by
  refine ⟨fun voterId dancerId now => ?_, fun playerId songId options => ?_,
    fun challengeId random options => ?_, fun battleId now => ?_, fun playerId random now => ?_,
    fun requesterId => ?_, fun challengeId random now => ?_,
    fun playerId text now random u hu => ?_⟩
  · exact (castVote_restarts rt code voterId dancerId now).survivesRetries code fun room next h =>
      ((keeps_castVote voterId dancerId now).change next h).version_eq
  · exact (chooseSong_restarts rt code playerId songId options).survivesRetries code
      fun room next h => ((keeps_chooseSong playerId songId options).change next h).version_eq
  · exact (autoPick_restarts rt code challengeId random options).survivesRetries code
      fun room next h => ((keeps_autoPick challengeId random options).change next h).version_eq
  · exact (finishAtDeadline_restarts rt code battleId now).survivesRetries code
      fun room next h => ((keeps_finishAtDeadline battleId now).change next h).version_eq
  · exact (leave_restarts rt playerId random now).survivesRetries code fun room next h =>
      version_eq_of_decide_leave h
  · exact (rematch_restarts code requesterId).survivesRetries code fun room next h =>
      ((keeps_rematch requesterId).change next h : Change rt room _ next).version_eq
  · exact (expire_restarts code challengeId random now).survivesRetries code fun room next h =>
      ((keeps_expireChallenge challengeId random now).change next h :
        Change rt room _ next).version_eq
  · unfold SubmitSongPhrase.execute at hu
    split at hu
    next => simp at hu
    next typed _ =>
      obtain rfl := Except.ok.inj hu
      exact (submitPhrase_restarts rt code playerId typed now random).survivesRetries code
        fun room next h => ((keeps_submitPhrase playerId typed now random).change next h).version_eq

end DanceSync
