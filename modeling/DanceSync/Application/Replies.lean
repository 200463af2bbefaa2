import DanceSync.Application.RoomMachine

/-!
# What a reply says

A reply tells its caller what was stored. For the use cases whose callers act on the reply, one
lemma says what the room was, what was decided on it and what was stored.

## Main definitions

* `RoomEvent`: an answered call.

## Main results

* `started_of_reply`, `submitted_of_reply`, `left_of_reply`, `voted_of_reply`,
  `awarded_of_reply`, `finished_of_reply`, `rematched_of_reply`.
* `isOk_castVote_iff`: when a vote is accepted.
-/

namespace DanceSync

/-- An answered call on the room of a code. -/
abbrev RoomEvent := Machine.Event (Option Room) RoomOp (Except JsError Reply)

variable {rt : Runtime} {code playerId : JsString} {slot slot' : Option Room} {reply : Reply}
  {now : Instant} {random : RandomIndex}

/-! ### Song selection -/

/-- An accepted start puts a phrase on screen. -/
theorem started_of_reply {requesterId : JsString} {options : StartChallengeOptions}
    (h : (roomMachine rt code).step slot (.startChallenge requesterId options) =
      (slot', .ok reply)) :
    ∃ room phrase, slot = some room ∧
      slot' = some { SongSelectionService.challenged room options phrase with
        version := room.version + 1 } := by
  obtain ⟨returned, hexecuted, -⟩ := RoomOp.executed_of_reply (congrArg Prod.snd h)
  obtain rfl : _ = slot' := congrArg Prod.fst h
  cases hexecuted with
  | rescued e he => simp [StartSongChallenge.execute, RoomUpdate.plain] at he
  | same room flags hslot hmutate | null room flags hslot hmutate =>
    have hdecide := congrArg Prod.snd hmutate
    simp only [StartSongChallenge.execute, RoomUpdate.plain, bind_eq_ok, throwIf_eq_ok,
      exists_const] at hdecide
    cases hstart : SongSelectionService.start rt room options <;>
      simp [hstart, Functor.map, Except.map] at hdecide
  | room room next flags hslot hmutate hstored =>
    have hdecide := congrArg Prod.snd hmutate
    simp only [StartSongChallenge.execute, RoomUpdate.plain, bind_eq_ok, throwIf_eq_ok,
      exists_const] at hdecide
    obtain ⟨-, -, -, -, phrase, -, rfl⟩ :=
      SongSelectionService.start_eq_ok (map_room_eq_ok.mp hdecide.2)
    exact ⟨room, phrase, hslot, hstored⟩

/-- A submission that is answered with an outcome. -/
theorem submitted_of_reply {text : JsValue} {r : Room} {outcome : SubmitOutcome}
    (h : ((RoomOp.submitPhrase playerId text now random).step rt code slot).2 =
      .ok (.submitted r outcome)) :
    ∃ t room next, text = .string t ∧ slot = some room ∧
      SongSelectionService.Submitted rt room playerId t now outcome next ∧
      ((RoomOp.submitPhrase playerId text now random).step rt code slot).1 =
        some { next with version := room.version + 1 } := by
  cases text with
  | string t =>
    obtain ⟨returned, hexecuted, hreply⟩ := RoomOp.executed_of_reply h
    obtain ⟨-, rfl⟩ := Reply.submitted.inj hreply
    cases hexecuted with
    | rescued e he => simp [SubmitSongPhrase.update] at he
    | same room flags hslot hmutate | null room flags hslot hmutate =>
      simp only [SubmitSongPhrase.update] at hmutate
      split at hmutate <;> simp at hmutate
    | room room next flags hslot hmutate hstored hresult =>
      simp only [SubmitSongPhrase.update] at hmutate
      split at hmutate
      next => simp at hmutate
      next room' outcome hsubmit =>
        simp only [Prod.mk.injEq, Except.ok.injEq, Mutated.room.injEq] at hmutate
        obtain ⟨rfl, rfl⟩ := hmutate
        obtain rfl := Except.ok.inj hresult
        exact ⟨t, room, room', rfl, hslot, SongSelectionService.submit_spec hsubmit, hstored⟩
  | _ => simp [RoomOp.step, RoomOp.runChecked, SubmitSongPhrase.execute, JsValue.string?] at h

/-! ### Departures -/

/-- The stored room of `code` after a departure. -/
def departedSlot (room updated : Room) : Option Room :=
  if updated.players = [] then none else some { updated with version := room.version + 1 }

/-- A player of the room who leaves is taken out of it. -/
theorem step_leave_of_seated (rt : Runtime) (code : JsString) {room : Room}
    (random : RandomIndex) (now : Instant) (h : playerId ∈ room.playerIds) :
    ∃ updated, RoomService.Departed rt room playerId now updated ∧
      ((RoomOp.leave playerId random now).step rt code (some room)).1 =
        departedSlot room updated := by
  obtain ⟨updated, hleave⟩ := RoomService.exists_leave rt random now h
  have hdeparted := RoomService.leave_spec hleave
  refine ⟨updated, hdeparted, ?_⟩
  have hmutate : ∃ flags, (JoinRoom.leave rt playerId random now).mutate
      (JoinRoom.leave rt playerId random now).initial room =
        (flags, .ok (if updated.players.length = 0 then .null else .room updated)) := by
    simp [JoinRoom.leave, hleave]
  obtain ⟨flags, hmutate⟩ := hmutate
  simp only [RoomOp.step, RoomOp.runUpdate]
  by_cases hplayers : updated.players = []
  · rw [if_pos (List.length_eq_zero_iff.mpr hplayers)] at hmutate
    rw [RoomUpdate.execute_of_null hmutate, departedSlot, if_pos hplayers]
  · rw [if_neg fun h => hplayers (List.length_eq_zero_iff.mp h)] at hmutate
    rw [RoomUpdate.execute_of_room hmutate hdeparted.version_eq, departedSlot, if_neg hplayers]

/-- A departure that is answered. -/
theorem left_of_reply
    (h : ((RoomOp.leave playerId random now).step rt code slot).2 = .ok reply) :
    ∃ room updated, slot = some room ∧ RoomService.Departed rt room playerId now updated ∧
      ((RoomOp.leave playerId random now).step rt code slot).1 = departedSlot room updated ∧
      reply = .left
        { room := departedSlot room updated
          battleFinished := room.status = .battling ∧ updated.status = .finished
          discardedVoterIds := JoinRoom.discardedVoterIds rt room updated playerId } := by
  obtain ⟨returned, hexecuted, rfl⟩ := RoomOp.executed_of_reply h
  have hleave : ∀ {room flags m}, (JoinRoom.leave rt playerId random now).mutate
      (JoinRoom.leave rt playerId random now).initial room = (flags, .ok m) →
      ∃ updated, RoomService.Departed rt room playerId now updated ∧
        flags = (decide (room.status = .battling ∧ updated.status = .finished),
          JoinRoom.discardedVoterIds rt room updated playerId) ∧
        m = if updated.players.length = 0 then .null else .room updated := by
    intro room flags m hmutate
    simp only [JoinRoom.leave] at hmutate
    split at hmutate
    next => simp at hmutate
    next updated hupdated =>
      obtain ⟨hflags, hm⟩ := Prod.mk.inj hmutate
      exact ⟨updated, RoomService.leave_spec hupdated, hflags.symm, (Except.ok.inj hm).symm⟩
  cases hexecuted with
  | rescued e he => simp [JoinRoom.leave] at he
  | same room flags hslot hmutate =>
    obtain ⟨updated, -, -, hm⟩ := hleave hmutate
    split_ifs at hm
  | null room flags hslot hmutate hstored hresult =>
    obtain ⟨updated, hdeparted, rfl, hm⟩ := hleave hmutate
    split_ifs at hm with hplayers
    have hslot' : departedSlot room updated = none := if_pos (List.length_eq_zero_iff.mp hplayers)
    refine ⟨room, updated, hslot, hdeparted, hstored.trans hslot'.symm, ?_⟩
    rw [hslot', ← Except.ok.inj hresult]
  | room room next flags hslot hmutate hstored hresult =>
    obtain ⟨updated, hdeparted, rfl, hm⟩ := hleave hmutate
    split_ifs at hm with hplayers
    obtain rfl := Mutated.room.inj hm
    have hslot' : departedSlot room next = some { next with version := room.version + 1 } :=
      if_neg fun hnil => hplayers (by rw [hnil]; rfl)
    refine ⟨room, next, hslot, hdeparted, hstored.trans hslot'.symm, ?_⟩
    rw [hslot', ← Except.ok.inj hresult]

/-! ### Votes -/

/-- A vote that is answered: it is the current vote already, or it is stored. -/
theorem voted_of_reply {voterId : JsString} {dancerId : JsValue}
    (h : ((RoomOp.castVote voterId dancerId now).step rt code slot).2 = .ok reply) :
    ∃ room battle wanted, slot = some room ∧ room.status = .battling ∧
      room.battle = some battle ∧ voterId ∈ room.spectators.map (·.id) ∧
      ¬now < battle.startedAt ∧ ¬battle.endsAt ≤ now ∧
      RoomService.wantedDancer dancerId = some wanted ∧ (∀ id ∈ wanted, id ∈ battle.dancerIds) ∧
      ((RoomOp.castVote voterId dancerId now).step rt code slot).1 =
        some (if RoomService.isCurrentVote (battle.votes.get rt.proto voterId) wanted then room
          else { RoomService.voted rt room battle voterId wanted with
            version := room.version + 1 }) := by
  obtain ⟨returned, hexecuted, -⟩ := RoomOp.executed_of_reply h
  have hcast : ∀ {room flags m}, (CastVote.execute rt code voterId dancerId now).mutate
      (CastVote.execute rt code voterId dancerId now).initial room = (flags, .ok m) →
      ∃ next, RoomService.castVote rt room voterId dancerId now = .ok next ∧
        m = Mutated.ofOption next := by
    intro room flags m hmutate
    simp only [CastVote.execute] at hmutate
    split at hmutate
    next => simp at hmutate
    next next hnext =>
      exact ⟨next, hnext, (Except.ok.inj (Prod.mk.inj hmutate).2).symm⟩
  cases hexecuted with
  | rescued e he => simp [CastVote.execute] at he
  | null room flags hslot hmutate =>
    obtain ⟨next, -, hm⟩ := hcast hmutate
    cases next <;> simp [Mutated.ofOption] at hm
  | same room flags hslot hmutate hstored =>
    obtain ⟨next, hnext, hm⟩ := hcast hmutate
    obtain ⟨battle, wanted, hstatus, hbattle, hvoter, hstart, hend, hwire, hdancer, hreply⟩ :=
      RoomService.castVote_eq_ok.mp hnext
    refine ⟨room, battle, wanted, hslot, hstatus, hbattle, hvoter, hstart, hend, hwire, hdancer, ?_⟩
    split_ifs at hreply ⊢ with hcurrent
    · exact hstored
    · simp [hreply, Mutated.ofOption] at hm
  | room room next flags hslot hmutate hstored =>
    obtain ⟨next', hnext, hm⟩ := hcast hmutate
    obtain ⟨battle, wanted, hstatus, hbattle, hvoter, hstart, hend, hwire, hdancer, hreply⟩ :=
      RoomService.castVote_eq_ok.mp hnext
    refine ⟨room, battle, wanted, hslot, hstatus, hbattle, hvoter, hstart, hend, hwire, hdancer, ?_⟩
    split_ifs at hreply ⊢ with hcurrent
    · simp [hreply, Mutated.ofOption] at hm
    · rw [hreply] at hm
      obtain rfl := Mutated.room.inj hm
      exact hstored

/-- A vote is accepted exactly from a spectator of a running battle, while the song plays, for a
dancer of the battle or for nobody. -/
theorem isOk_castVote_iff {voterId : JsString} {dancerId : JsValue} :
    ((RoomOp.castVote voterId dancerId now).step rt code slot).2.isOk ↔ ∃ room battle,
      slot = some room ∧ room.status = .battling ∧ room.battle = some battle ∧
        voterId ∈ room.spectators.map (·.id) ∧ ¬now < battle.startedAt ∧ ¬battle.endsAt ≤ now ∧
        (dancerId = .null ∨ ∃ id ∈ battle.dancerIds, dancerId = .string id) := by
  constructor
  · intro h
    obtain ⟨reply, hreply⟩ := exists_ok_of_isOk h
    obtain ⟨room, battle, wanted, hslot, hstatus, hbattle, hvoter, hstart, hend, hwire, hdancer,
      -⟩ := voted_of_reply hreply
    refine ⟨room, battle, hslot, hstatus, hbattle, hvoter, hstart, hend, ?_⟩
    cases dancerId with
    | null => exact Or.inl rfl
    | string id =>
      obtain rfl := Option.some.inj hwire
      exact Or.inr ⟨id, hdancer id rfl, rfl⟩
    | _ => simp [RoomService.wantedDancer] at hwire
  · rintro ⟨room, battle, rfl, hstatus, hbattle, hvoter, hstart, hend, hdancer⟩
    obtain ⟨wanted, hwire, hwanted⟩ : ∃ wanted, RoomService.wantedDancer dancerId = some wanted ∧
        ∀ id ∈ wanted, id ∈ battle.dancerIds := by
      rcases hdancer with rfl | ⟨id, hid, rfl⟩
      · exact ⟨none, rfl, by simp⟩
      · exact ⟨some id, rfl, by simpa using hid⟩
    have hcast : RoomService.castVote rt room voterId dancerId now = .ok (if
        RoomService.isCurrentVote (battle.votes.get rt.proto voterId) wanted then none
        else some (RoomService.voted rt room battle voterId wanted)) :=
      RoomService.castVote_eq_ok.mpr
        ⟨battle, wanted, hstatus, hbattle, hvoter, hstart, hend, hwire, hwanted, rfl⟩
    split_ifs at hcast
    · have hmutate : (CastVote.execute rt code voterId dancerId now).mutate
          (CastVote.execute rt code voterId dancerId now).initial room = (false, .ok .same) := by
        simp [CastVote.execute, hcast, Mutated.ofOption]
      simp only [RoomOp.step, RoomOp.runUpdate, RoomUpdate.execute_of_same hmutate]
      rfl
    · have hmutate : (CastVote.execute rt code voterId dancerId now).mutate
          (CastVote.execute rt code voterId dancerId now).initial room =
            (true, .ok (.room (RoomService.voted rt room battle voterId wanted))) := by
        simp [CastVote.execute, hcast, Mutated.ofOption]
      simp only [RoomOp.step, RoomOp.runUpdate, RoomUpdate.execute_of_room hmutate rfl]
      rfl

/-! ### Words -/

/-- A word bonus that is answered counts one more round for a dancer of the running battle. -/
theorem awarded_of_reply
    (h : ((RoomOp.awardWordBonus playerId).step rt code slot).2 = .ok reply) :
    ∃ room battle, slot = some room ∧ room.status = .battling ∧ room.battle = some battle ∧
      playerId ∈ battle.dancerIds ∧
      ((RoomOp.awardWordBonus playerId).step rt code slot).1 =
        some { RoomService.awarded rt room battle playerId with version := room.version + 1 } := by
  obtain ⟨returned, hexecuted, -⟩ := RoomOp.executed_of_reply h
  cases hexecuted with
  | rescued e he => simp [AwardWordBonus.execute, RoomUpdate.plain] at he
  | same room flags hslot hmutate | null room flags hslot hmutate =>
    have hdecide := congrArg Prod.snd hmutate
    simp only [AwardWordBonus.execute, RoomUpdate.plain] at hdecide
    cases haward : RoomService.awardWordBonus rt room playerId <;>
      simp [haward, Functor.map, Except.map] at hdecide
  | room room next flags hslot hmutate hstored =>
    have hdecide := congrArg Prod.snd hmutate
    obtain ⟨battle, hstatus, hbattle, hdancer, rfl⟩ :=
      RoomService.awardWordBonus_eq_ok.mp (map_room_eq_ok.mp hdecide)
    exact ⟨room, battle, hslot, hstatus, hbattle, hdancer, hstored⟩

/-! ### The end of a battle -/

/-- The end of the song never throws: it finishes a battle that it found running. -/
theorem exists_finishAtDeadline (rt : Runtime) (room : Room) (now : Instant) :
    ∃ next, RoomService.finishAtDeadline rt room now = .ok next := by
  unfold RoomService.finishAtDeadline
  split
  next battle hstatus hbattle =>
    split_ifs
    · exact ⟨none, rfl⟩
    · rw [RoomService.finishBattle_eq_ok.mpr ⟨battle, hstatus, hbattle, rfl⟩]
      exact ⟨_, rfl⟩
  next => exact ⟨none, rfl⟩

/-- The timer of the end of a battle is answered: the room is gone, there is nothing to do, or
this call finishes the battle. -/
theorem finished_of_reply {battleId : JsString}
    (h : ((RoomOp.finishAtDeadline battleId now).step rt code slot).2 = .ok reply) :
    (reply = .finished none ∧
        ((RoomOp.finishAtDeadline battleId now).step rt code slot).1 = slot) ∨
      (∃ room, slot = some room ∧ reply = .finished (some (room, false)) ∧
        ((RoomOp.finishAtDeadline battleId now).step rt code slot).1 = slot) ∨
      ∃ room battle stored, slot = some room ∧ room.status = .battling ∧
        room.battle = some battle ∧ battle.id = battleId ∧ ¬now < battle.endsAt ∧
        stored = { RoomService.finished rt room battle .songEnd now with
          version := room.version + 1 } ∧
        reply = .finished (some (stored, true)) ∧
        ((RoomOp.finishAtDeadline battleId now).step rt code slot).1 = some stored := by
  obtain ⟨returned, hexecuted, rfl⟩ := RoomOp.executed_of_reply h
  have hfinish : ∀ {room flags m}, (FinishBattleAtDeadline.execute rt code battleId now).mutate
      (FinishBattleAtDeadline.execute rt code battleId now).initial room = (flags, .ok m) →
      (flags = false ∧ m = .same) ∨ ∃ battle, room.status = .battling ∧
        room.battle = some battle ∧ battle.id = battleId ∧ ¬now < battle.endsAt ∧ flags = true ∧
        m = .room (RoomService.finished rt room battle .songEnd now) := by
    intro room flags m hmutate
    simp only [FinishBattleAtDeadline.execute] at hmutate
    split_ifs at hmutate with hid
    · obtain ⟨rfl, hm⟩ := Prod.mk.inj hmutate
      exact Or.inl ⟨rfl, (Except.ok.inj hm).symm⟩
    · split at hmutate
      next => simp at hmutate
      next next hnext =>
        obtain ⟨rfl, hm⟩ := Prod.mk.inj hmutate
        obtain rfl := Except.ok.inj hm
        cases next with
        | none => exact Or.inl ⟨rfl, rfl⟩
        | some next =>
          obtain ⟨battle, hstatus, hbattle, htime, rfl⟩ :=
            RoomService.finishAtDeadline_eq_some hnext
          exact Or.inr ⟨battle, hstatus, hbattle, by simpa [hbattle] using hid, htime, rfl, rfl⟩
  cases hexecuted with
  | rescued e he hstored =>
    have hnone : returned = none := by
      simp only [FinishBattleAtDeadline.execute] at he
      split at he
      · exact (Option.some.inj he).symm
      · simp at he
    exact Or.inl ⟨by rw [hnone], hstored⟩
  | null room flags hslot hmutate =>
    rcases hfinish hmutate with ⟨-, hm⟩ | ⟨battle, -, -, -, -, -, hm⟩ <;> simp at hm
  | same room flags hslot hmutate hstored hresult =>
    rcases hfinish hmutate with ⟨rfl, -⟩ | ⟨battle, -, -, -, -, -, hm⟩
    · exact Or.inr (Or.inl ⟨room, hslot, by rw [← Except.ok.inj hresult], hslot ▸ hstored⟩)
    · simp at hm
  | room room next flags hslot hmutate hstored hresult =>
    rcases hfinish hmutate with ⟨-, hm⟩ | ⟨battle, hstatus, hbattle, hid, htime, rfl, hm⟩
    · simp at hm
    · obtain rfl := Mutated.room.inj hm
      exact Or.inr (Or.inr ⟨room, battle, _, hslot, hstatus, hbattle, hid, htime, rfl,
        by rw [← Except.ok.inj hresult], hstored⟩)

/-- The timer of the end of a battle finds the room unless it is gone. -/
theorem finishAtDeadline_ne_none {room : Room} {battleId : JsString} :
    ((RoomOp.finishAtDeadline battleId now).step rt code (some room)).2 ≠
      .ok (.finished none) := by
  have hsame (hmutate : (FinishBattleAtDeadline.execute rt code battleId now).mutate false room =
      (false, .ok .same)) : ((RoomOp.finishAtDeadline battleId now).step rt code (some room)).2 ≠
        .ok (.finished none) := by
    simp only [RoomOp.step, RoomOp.runUpdate]
    rw [RoomUpdate.execute_of_same hmutate]
    simp [FinishBattleAtDeadline.execute, RoomUpdate.keeping, Functor.map, Except.map]
  obtain ⟨next, hnext⟩ := exists_finishAtDeadline rt room now
  by_cases hid : room.battle.map (·.id) ≠ some battleId
  · exact hsame (if_pos hid)
  · cases next with
    | none => exact hsame (by simp only [FinishBattleAtDeadline.execute, if_neg hid, hnext]; rfl)
    | some next =>
      obtain ⟨battle, -, -, -, rfl⟩ := RoomService.finishAtDeadline_eq_some hnext
      have hmutate : (FinishBattleAtDeadline.execute rt code battleId now).mutate
          (FinishBattleAtDeadline.execute rt code battleId now).initial room =
            (true, .ok (.room (RoomService.finished rt room battle .songEnd now))) := by
        simp only [FinishBattleAtDeadline.execute, if_neg hid, hnext]
        rfl
      simp only [RoomOp.step, RoomOp.runUpdate]
      rw [RoomUpdate.execute_of_room hmutate rfl]
      simp [FinishBattleAtDeadline.execute, RoomUpdate.keeping, Functor.map, Except.map]

/-- A rematch that is answered takes the room back to the lobby. -/
theorem rematched_of_reply {requesterId : JsString}
    (h : ((RoomOp.rematch requesterId).step rt code slot).2 = .ok reply) :
    ∃ room, ((RoomOp.rematch requesterId).step rt code slot).1 = some room ∧
      room.status = .waiting := by
  obtain ⟨returned, hexecuted, -⟩ := RoomOp.executed_of_reply h
  cases hexecuted with
  | rescued e he => simp [StartRematch.execute] at he
  | same room flags hslot hmutate | null room flags hslot hmutate =>
    simp only [StartRematch.execute] at hmutate
    split at hmutate <;> simp at hmutate
  | room room next flags hslot hmutate hstored =>
    simp only [StartRematch.execute] at hmutate
    split at hmutate
    next => simp at hmutate
    next next' hrematch =>
      obtain ⟨-, -, rfl⟩ := RoomService.rematch_eq_ok hrematch
      obtain rfl := Mutated.room.inj (Except.ok.inj (Prod.mk.inj hmutate).2)
      exact ⟨_, hstored, rfl⟩

end DanceSync
