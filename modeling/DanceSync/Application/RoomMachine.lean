import DanceSync.Machine.Run
import DanceSync.Application.UseCases

/-!
# The room as a machine

The stored room of one code, `none` while the code is free, with the use cases that change it as
inputs. The service functions behind them are reached with the host as requester and with the id
of the running battle.

## Main definitions

* `RoomOp`, `Reply`: the inputs and what they return.
* `roomMachine`: one atomic update for each input.
* `Change`: what an input does to a stored room.
* `RoomOp.seats`: the inputs that take or free a seat.

## Main results

* `answered`: an input creates, changes or deletes the room, or leaves it as it was; when it throws
  it leaves it as it was.
-/

namespace DanceSync

/-- A call of a use case on the room of one code. -/
inductive RoomOp where
  | create (hostId displayName : JsValue) (now : Instant)
  | join (playerId displayName : JsValue)
  | leave (playerId : JsString) (random : RandomIndex) (now : Instant)
  | kick (requesterId : JsString) (playerId : JsValue) (random : RandomIndex) (now : Instant)
  | selectRole (playerId : JsString) (role : JsValue)
  | setReady (playerId : JsString) (ready : JsValue)
  | startChallenge (requesterId : JsString) (options : StartChallengeOptions)
  | submitPhrase (playerId : JsString) (text : JsValue) (now : Instant) (random : RandomIndex)
  | expireChallenge (challengeId : JsString) (random : RandomIndex) (now : Instant)
  | chooseSong (playerId songId : JsString) (options : StartBattleOptions)
  | autoPick (challengeId : JsString) (random : RandomIndex) (options : StartBattleOptions)
  | startBattle (requesterId : JsString) (dancerIds : JsValue) (options : StartBattleOptions)
  | castVote (voterId : JsString) (dancerId : JsValue) (now : Instant)
  | awardWordBonus (playerId : JsString)
  | finishAtDeadline (battleId : JsString) (now : Instant)
  | rematch (requesterId : JsString)

/-- What a use case returns. -/
inductive Reply where
  | room (room : Room)
  /-- `CreateRoom` found its code taken and draws another one. -/
  | codeTaken
  | left (output : JoinRoom.LeaveRoomOutput)
  | expired (room : Option Room)
  | submitted (room : Room) (outcome : SubmitOutcome)
  | chosen (room : Room) (battleStarted : Bool)
  | picked (output : ChooseSong.AutoPickSongOutput)
  | voted (output : CastVoteOutput)
  /-- The room, and whether this call finished the battle. -/
  | finished (output : Option (Room × Bool))
  | rematched (room : Room) (clearedVoterIds : List JsString)
  deriving DecidableEq

/-- One attempt of `CreateRoom.execute` with the code drawn for it. -/
def CreateRoom.attempt (code : JsString) (slot : Option Room) (hostId displayName : JsValue)
    (now : Instant) : Option Room × Except JsError Reply :=
  match (do RoomService.create (← validatePlayer hostId displayName) code now) with
  | .error e => (slot, .error e)
  | .ok room =>
    let (stored, inserted) := InMemoryRoomRepository.insert slot room
    (stored, .ok (if inserted then .room room else .codeTaken))

namespace RoomOp

variable {φ ρ : Type}

/-- Runs an update and wraps what it returns. -/
def runUpdate (code : JsString) (slot : Option Room) (u : RoomUpdate φ ρ) (reply : ρ → Reply) :
    Option Room × Except JsError Reply :=
  let (stored, returned) := u.execute code slot
  (stored, reply <$> returned)

/-- Runs an update behind a check that needs no room. -/
def runChecked (code : JsString) (slot : Option Room) (u : Except JsError (RoomUpdate φ ρ))
    (reply : ρ → Reply) : Option Room × Except JsError Reply :=
  match u with
  | .error e => (slot, .error e)
  | .ok u => runUpdate code slot u reply

/-- One call on the room of `code`. -/
def step (rt : Runtime) (code : JsString) (slot : Option Room) :
    RoomOp → Option Room × Except JsError Reply
  | .create hostId displayName now => CreateRoom.attempt code slot hostId displayName now
  | .join playerId displayName =>
    runChecked code slot (JoinRoom.execute rt code playerId displayName) .room
  | .leave playerId random now => runUpdate code slot (JoinRoom.leave rt playerId random now) .left
  | .kick requesterId playerId random now =>
    runUpdate code slot (KickPlayer.execute rt code requesterId playerId random now) .room
  | .selectRole playerId role =>
    runUpdate code slot (SelectRole.execute code playerId role) .room
  | .setReady playerId ready => runUpdate code slot (SetReady.execute code playerId ready) .room
  | .startChallenge requesterId options =>
    runUpdate code slot (StartSongChallenge.execute rt code requesterId options) .room
  | .submitPhrase playerId text now random =>
    runChecked code slot (SubmitSongPhrase.execute rt code playerId text now random)
      fun r => .submitted r.1 r.2
  | .expireChallenge challengeId random now =>
    runUpdate code slot (StartSongChallenge.expire code challengeId random now) .expired
  | .chooseSong playerId songId options =>
    runUpdate code slot (ChooseSong.execute rt code playerId songId options)
      fun r => .chosen r.1 r.2
  | .autoPick challengeId random options =>
    runUpdate code slot (ChooseSong.autoPick rt code challengeId random options) .picked
  | .startBattle requesterId dancerIds options =>
    runUpdate code slot (StartBattle.execute rt code requesterId dancerIds options) .room
  | .castVote voterId dancerId now =>
    runUpdate code slot (CastVote.execute rt code voterId dancerId now) .voted
  | .awardWordBonus playerId =>
    runUpdate code slot (AwardWordBonus.execute rt code playerId) .room
  | .finishAtDeadline battleId now =>
    runUpdate code slot (FinishBattleAtDeadline.execute rt code battleId now) .finished
  | .rematch requesterId =>
    runUpdate code slot (StartRematch.execute code requesterId) fun r => .rematched r.1 r.2

end RoomOp

/-- The stored room of `code` under the calls that change it. -/
def roomMachine (rt : Runtime) (code : JsString) :
    Machine (Option Room) RoomOp (Except JsError Reply) where
  step slot op := op.step rt code slot

/-! ### What an input does to the room -/

/-- Every change that an input makes to a stored room, before its version grows. -/
inductive Change (rt : Runtime) (room : Room) : RoomOp → Room → Prop
  | joined {playerId displayName : JsValue} (p : Player) (hstatus : room.status = .waiting)
      (hnew : p.id ∉ room.playerIds) (hspace : room.players.length < MAX_PLAYERS)
      (hrole : p.role = .undecided) (hready : p.ready = false) :
      Change rt room (.join playerId displayName) { room with players := room.players ++ [p] }
  | left {playerId : JsString} {random : RandomIndex} {now : Instant} {next : Room}
      (h : RoomService.Departed rt room playerId now next) (hplayers : next.players ≠ []) :
      Change rt room (.leave playerId random now) next
  | kicked {playerId : JsString} {random : RandomIndex} {now : Instant} {next : Room}
      (hstatus : room.status = .waiting) (hother : playerId ≠ room.hostId)
      (h : RoomService.Departed rt room playerId now next) :
      Change rt room (.kick room.hostId (.string playerId) random now) next
  | roleSelected {playerId : JsString} {role : JsValue} (chosen : PlayerRole)
      (hstatus : room.status = .waiting) (hseated : playerId ∈ room.playerIds) :
      Change rt room (.selectRole playerId role)
        (RoomService.withPlayer room playerId fun p => { p with role := chosen })
  | readySet {playerId : JsString} {ready : JsValue} (flag : Bool)
      (hstatus : room.status = .waiting) (hseated : playerId ∈ room.playerIds) :
      Change rt room (.setReady playerId ready)
        (RoomService.withPlayer room playerId fun p => { p with ready := flag })
  | challengeStarted {options : StartChallengeOptions} (phrase : JsString)
      (hstatus : room.status = .waiting) (hprogress : isSelectionInProgress room = false)
      (hdancers : MIN_DANCERS_PER_BATTLE ≤ room.dancerRoleIds.length)
      (hready : ∀ p ∈ room.players, p.ready = true) (hphrase : phrase ∈ options.phrases) :
      Change rt room (.startChallenge room.hostId options)
        (SongSelectionService.challenged room options phrase)
  | submitted {playerId : JsString} {text : JsString} {random : RandomIndex} {now : Instant}
      {next : Room} (outcome : SubmitOutcome)
      (h : SongSelectionService.Submitted rt room playerId text now outcome next) :
      Change rt room (.submitPhrase playerId (.string text) now random) next
  | expired {challengeId : JsString} {random : RandomIndex} {now : Instant} {next : Room}
      (selection : SongSelection) (hselection : room.songSelection = some selection)
      (hphase : selection.phase = .typing) (hchallenge : selection.challenge.id = challengeId)
      (h : SongSelectionService.Fallback room selection .timeout now next) :
      Change rt room (.expireChallenge challengeId random now) next
  | songChosen {playerId songId : JsString} {options : StartBattleOptions} {chosen next : Room}
      (hchosen : SongSelectionService.Chosen room playerId songId chosen)
      (h : next = chosen ∨ RoomService.Started chosen options next) :
      Change rt room (.chooseSong playerId songId options) next
  | songPicked {challengeId : JsString} {random : RandomIndex} {options : StartBattleOptions}
      {picked next : Room}
      (hpicked : SongSelectionService.AutoPicked room challengeId options.now picked)
      (h : next = picked ∨ RoomService.Started picked options next) :
      Change rt room (.autoPick challengeId random options) next
  | battleStarted {dancerIds : JsValue} {options : StartBattleOptions} {next : Room}
      (h : RoomService.Started room options next) :
      Change rt room (.startBattle room.hostId dancerIds options) next
  | voted {voterId : JsString} {dancerId : JsValue} {now : Instant} (battle : Battle)
      (wanted : Option JsString) (hstatus : room.status = .battling)
      (hbattle : room.battle = some battle) (hvoter : voterId ∈ room.spectators.map (·.id))
      (hstart : ¬now < battle.startedAt) (hend : ¬battle.endsAt ≤ now)
      (hwire : RoomService.wantedDancer dancerId = some wanted)
      (hdancer : ∀ id ∈ wanted, id ∈ battle.dancerIds)
      (hchanged : ¬RoomService.isCurrentVote (battle.votes.get rt.proto voterId) wanted) :
      Change rt room (.castVote voterId dancerId now)
        (RoomService.voted rt room battle voterId wanted)
  | awarded {playerId : JsString} (battle : Battle) (hstatus : room.status = .battling)
      (hbattle : room.battle = some battle) (hdancer : playerId ∈ battle.dancerIds) :
      Change rt room (.awardWordBonus playerId) (RoomService.awarded rt room battle playerId)
  | finished {now : Instant} (battle : Battle) (hstatus : room.status = .battling)
      (hbattle : room.battle = some battle) (htime : ¬now < battle.endsAt) :
      Change rt room (.finishAtDeadline battle.id now)
        (RoomService.finished rt room battle .songEnd now)
  | rematched (hstatus : room.status = .finished) :
      Change rt room (.rematch room.hostId) (RoomService.rematched room)

/-- A change keeps the code of the room, and leaves its version to the store. -/
theorem Change.frame {rt : Runtime} {room next : Room} {op : RoomOp} (h : Change rt room op next) :
    next.code = room.code ∧ next.version = room.version := by
  cases h with
  | left hdeparted => exact hdeparted.frame
  | kicked _ _ hdeparted => exact hdeparted.frame
  | submitted _ hsubmitted =>
    cases hsubmitted with
    | expired _ _ _ _ _ _ hfallback =>
      obtain ⟨songSelection, rfl⟩ := hfallback.exists_eq
      exact ⟨rfl, rfl⟩
    | allMisspelled _ _ _ _ _ _ _ _ _ hfallback =>
      obtain ⟨songSelection, rfl⟩ := hfallback.exists_eq
      exact ⟨rfl, rfl⟩
    | _ => exact ⟨rfl, rfl⟩
  | expired _ _ _ _ hfallback =>
    obtain ⟨songSelection, rfl⟩ := hfallback.exists_eq
    exact ⟨rfl, rfl⟩
  | songChosen hchosen hnext =>
    obtain ⟨s, song⟩ := hchosen
    rcases hnext with rfl | ⟨selected, song⟩ <;> exact ⟨rfl, rfl⟩
  | songPicked hpicked hnext =>
    cases hpicked <;> rcases hnext with rfl | ⟨selected, song⟩ <;> exact ⟨rfl, rfl⟩
  | battleStarted hstarted =>
    obtain ⟨selected, song⟩ := hstarted
    exact ⟨rfl, rfl⟩
  | _ => exact ⟨rfl, rfl⟩

/-! ### Who is in the room -/

/-- The call takes or frees a seat. -/
def RoomOp.seats : RoomOp → Bool
  | .create .. | .join .. | .leave .. | .kick .. => true
  | _ => false

/-- The calls that change no seat leave everyone in their place. -/
theorem Change.identities_eq {rt : Runtime} {room next : Room} {op : RoomOp}
    (h : Change rt room op next) (hop : op.seats = false) :
    next.players.map (·.toIdentity) = room.players.map (·.toIdentity) := by
  have hmap {change : Player → Player} (hsame : ∀ p, (change p).toIdentity = p.toIdentity) :
      (room.players.map change).map (·.toIdentity) = room.players.map (·.toIdentity) := by
    rw [List.map_map]
    exact List.map_congr_left fun p _ => hsame p
  have hstarted {source : Room} {options : StartBattleOptions}
      (h : RoomService.Started source options next) (heq : source.players = room.players) :
      next.players.map (·.toIdentity) = room.players.map (·.toIdentity) := by
    obtain ⟨selected, song⟩ := h
    rw [RoomService.players_battling, heq]
    exact hmap fun _ => rfl
  have hfallback {selection : SongSelection} {reason : ChooserReason} {now : Instant}
      (h : SongSelectionService.Fallback room selection reason now next) :
      next.players.map (·.toIdentity) = room.players.map (·.toIdentity) := by
    obtain ⟨songSelection, rfl⟩ := h.exists_eq
    rfl
  cases h with
  | joined | left | kicked => cases hop
  | roleSelected | readySet =>
    refine hmap fun p => ?_
    split_ifs <;> rfl
  | submitted _ hsubmitted =>
    cases hsubmitted with
    | expired _ _ _ _ _ _ h | allMisspelled _ _ _ _ _ _ _ _ _ h => exact hfallback h
    | accepted | misspelled => rfl
  | expired _ _ _ _ h => exact hfallback h
  | songChosen hchosen hnext =>
    obtain ⟨s, song⟩ := hchosen
    rcases hnext with rfl | h
    · rfl
    · exact hstarted h rfl
  | songPicked hpicked hnext =>
    cases hpicked <;> rcases hnext with rfl | h
    · rfl
    · exact hstarted h rfl
    · rfl
    · exact hstarted h rfl
  | battleStarted h => exact hstarted h rfl
  | rematched => exact hmap fun _ => rfl
  | challengeStarted | voted | awarded | finished => rfl

theorem Change.playerIds_eq {rt : Runtime} {room next : Room} {op : RoomOp}
    (h : Change rt room op next) (hop : op.seats = false) : next.playerIds = room.playerIds := by
  have hids := congrArg (List.map (·.id)) (h.identities_eq hop)
  rwa [List.map_map, List.map_map] at hids

/-! ### The stored room -/

/-- Every way in which an input may leave the stored room of `code`. -/
inductive Stored (rt : Runtime) (code : JsString) :
    Option Room → RoomOp → Option Room → Prop
  | unchanged (slot : Option Room) (op : RoomOp) : Stored rt code slot op slot
  | created {hostId displayName : JsValue} {now : Instant} (p : Player)
      (hrole : p.role = .undecided) (hready : p.ready = false) :
      Stored rt code none (.create hostId displayName now)
        (some (RoomService.newRoom p code now))
  | changed {room next : Room} {op : RoomOp} (h : Change rt room op next) :
      Stored rt code (some room) op (some { next with version := room.version + 1 })
  | deleted {room next : Room} {playerId : JsString} {random : RandomIndex} {now : Instant}
      (h : RoomService.Departed rt room playerId now next) (hplayers : next.players = []) :
      Stored rt code (some room) (.leave playerId random now) none

/-- A stored change makes a newer room. -/
theorem stored_ne {room next : Room} :
    some { next with version := room.version + 1 } ≠ some room := fun h =>
  absurd (congrArg Room.version (Option.some.inj h)) (Nat.succ_ne_self room.version)

/-- What is known of every answer: it is one of the ways above, and a call that throws stores
nothing. -/
structure Answered (rt : Runtime) (code : JsString) (slot : Option Room) (op : RoomOp)
    (answer : Option Room × Except JsError Reply) : Prop where
  stored : Stored rt code slot op answer.1
  refused : ∀ e, answer.2 = .error e → answer.1 = slot

section Spec

variable {rt : Runtime} {code : JsString} {φ ρ : Type} {u : RoomUpdate φ ρ} {room next : Room}
  {op : RoomOp}

/-- An update that only makes changes and always keeps the room. -/
structure Keeps (rt : Runtime) (u : RoomUpdate φ ρ) (room : Room) (op : RoomOp) : Prop where
  change : ∀ next, u.decide room = .ok (.room next) → Change rt room op next
  keep : u.decide room ≠ .ok .null

theorem map_reply_eq_error {x : Except JsError ρ} {reply : ρ → Reply} {e : JsError}
    (h : reply <$> x = .error e) : x = .error e := by
  cases x with
  | error e' => simpa [Functor.map, Except.map] using h
  | ok r => simp [Functor.map, Except.map] at h

theorem Keeps.answered (h : Keeps rt u room op) (reply : ρ → Reply) {result : Room → φ → ρ}
    (hresult : u.result = RoomUpdate.keeping code result) :
    Answered rt code (some room) op (RoomOp.runUpdate code (some room) u reply) where
  stored := by
    rcases u.fst_execute_cases code room with hsame | ⟨next, hnext, hroom⟩ | ⟨hnull, -⟩
    · simp only [RoomOp.runUpdate, hsame]
      exact .unchanged _ _
    · simp only [RoomOp.runUpdate, hroom]
      exact .changed (h.change next hnext)
    · exact absurd hnull h.keep
  refused e he := by
    refine RoomUpdate.fst_execute_of_error (map_reply_eq_error he) ?_ ?_
    · intro stored flags e'
      simp [hresult, RoomUpdate.keeping]
    · rintro r ⟨⟩ hnull
      exact absurd hnull h.keep

/-- A decision that stores what a function of the room returns. -/
theorem map_room_eq_ok {x : Except JsError Room} :
    Mutated.room <$> x = .ok (.room next) ↔ x = .ok next := by
  cases x <;> simp [Functor.map, Except.map]

theorem map_room_ne_null (x : Except JsError Room) : Mutated.room <$> x ≠ .ok .null := by
  cases x <;> simp [Functor.map, Except.map]

/-- The update of a function that returns a new room. -/
theorem keeps_plain {f : Room → Except JsError Room}
    (hchange : ∀ next, f room = .ok next → Change rt room op next) :
    Keeps rt (RoomUpdate.plain code fun room => Mutated.room <$> f room) room op :=
  ⟨fun next h => hchange next (map_room_eq_ok.mp h), map_room_ne_null (f room)⟩

/-- An update that returns a reply returned a value. -/
theorem RoomOp.executed_of_reply {slot : Option Room} {wrap : ρ → Reply} {reply : Reply}
    (h : (RoomOp.runUpdate code slot u wrap).2 = .ok reply) :
    ∃ returned, u.Executed code slot returned ∧ wrap returned = reply := by
  cases hreturned : (u.execute code slot).2 with
  | error e => simp [RoomOp.runUpdate, hreturned, Functor.map, Except.map] at h
  | ok returned =>
    refine ⟨returned, RoomUpdate.executed hreturned, ?_⟩
    simpa [RoomOp.runUpdate, hreturned, Functor.map, Except.map] using h

theorem leave_answered (playerId : JsString) (random : RandomIndex) (now : Instant) :
    Answered rt code (some room) (.leave playerId random now)
      ((RoomOp.leave playerId random now).step rt code (some room)) := by
  have hdecide : ∀ {m}, (JoinRoom.leave rt playerId random now).decide room = .ok m →
      ∃ updated, RoomService.Departed rt room playerId now updated ∧
        m = if updated.players.length = 0 then .null else .room updated := by
    intro m h
    simp only [RoomUpdate.decide, JoinRoom.leave] at h
    cases hleave : RoomService.leave rt room playerId random now with
    | error e => simp [hleave] at h
    | ok updated =>
      rw [hleave] at h
      exact ⟨updated, RoomService.leave_spec hleave, (Except.ok.inj h).symm⟩
  refine ⟨?_, fun e he => RoomUpdate.fst_execute_of_error (map_reply_eq_error he)
    (by simp [JoinRoom.leave]) (by simp [JoinRoom.leave])⟩
  simp only [RoomOp.step, RoomOp.runUpdate]
  rcases (JoinRoom.leave rt playerId random now).fst_execute_cases code room with
    h | ⟨next, hnext, h⟩ | ⟨hnull, h⟩
  · rw [h]
    exact .unchanged _ _
  · obtain ⟨updated, hdeparted, hm⟩ := hdecide hnext
    split_ifs at hm with hplayers
    obtain rfl := Mutated.room.inj hm
    rw [h]
    exact .changed (.left hdeparted fun hnil => hplayers (by rw [hnil]; rfl))
  · obtain ⟨updated, hdeparted, hm⟩ := hdecide hnull
    split_ifs at hm with hplayers
    rw [h]
    exact .deleted hdeparted (List.length_eq_zero_iff.mp hplayers)

theorem startIfPossible_spec {options : StartBattleOptions} {chosen : Room} {started : Bool}
    (h : ChooseSong.startIfPossible rt chosen options = .ok (next, started)) :
    (next = chosen ∧ started = false) ∨
      (RoomService.Started chosen options next ∧ started = true) := by
  unfold ChooseSong.startIfPossible at h
  split_ifs at h
  · obtain ⟨rfl, rfl⟩ := Prod.mk.inj (Except.ok.inj h)
    exact Or.inl ⟨rfl, rfl⟩
  · split at h
    next room hstart =>
      obtain ⟨rfl, rfl⟩ := Prod.mk.inj (Except.ok.inj h)
      exact Or.inr ⟨RoomService.startBattle_spec hstart, rfl⟩
    next =>
      obtain ⟨rfl, rfl⟩ := Prod.mk.inj (Except.ok.inj h)
      exact Or.inl ⟨rfl, rfl⟩
    next => simp at h

theorem started_or {options : StartBattleOptions} {chosen : Room} {started : Bool}
    (h : ChooseSong.startIfPossible rt chosen options = .ok (next, started)) :
    next = chosen ∨ RoomService.Started chosen options next :=
  (startIfPossible_spec h).imp And.left And.left

theorem keeps_chooseSong (playerId songId : JsString) (options : StartBattleOptions) :
    Keeps rt (ChooseSong.execute rt code playerId songId options) room
      (.chooseSong playerId songId options) := by
  refine ⟨fun next h => ?_, fun h => ?_⟩ <;>
    simp only [RoomUpdate.decide, ChooseSong.execute] at h <;> split at h <;> try simp at h
  next chosen hchosen =>
    split at h
    next => simp at h
    next started room' hstart =>
      obtain rfl := Mutated.room.inj (Except.ok.inj h)
      exact .songChosen (SongSelectionService.choose_spec hchosen) (started_or hstart)
  next chosen hchosen => split at h <;> simp at h

theorem keeps_autoPick (challengeId : JsString) (random : RandomIndex)
    (options : StartBattleOptions) :
    Keeps rt (ChooseSong.autoPick rt code challengeId random options) room
      (.autoPick challengeId random options) := by
  refine ⟨fun next h => ?_, fun h => ?_⟩ <;>
    simp only [RoomUpdate.decide, ChooseSong.autoPick] at h <;> split at h <;> try simp at h
  next picked hpicked =>
    split at h
    next => simp at h
    next started room' hstart =>
      obtain rfl := Mutated.room.inj (Except.ok.inj h)
      exact .songPicked (SongSelectionService.autoPick_spec hpicked) (started_or hstart)
  next picked hpicked => split at h <;> simp at h

theorem keeps_submitPhrase (playerId text : JsString) (now : Instant) (random : RandomIndex) :
    Keeps rt (SubmitSongPhrase.update rt code playerId text now random) room
      (.submitPhrase playerId (.string text) now random) := by
  refine ⟨fun next h => ?_, fun h => ?_⟩ <;>
    simp only [RoomUpdate.decide, SubmitSongPhrase.update] at h <;> split at h <;> try simp at h
  next room' outcome hsubmit =>
    obtain rfl := h
    exact .submitted outcome (SongSelectionService.submit_spec hsubmit)

theorem keeps_expireChallenge (challengeId : JsString) (random : RandomIndex) (now : Instant) :
    Keeps rt (StartSongChallenge.expire code challengeId random now) room
      (.expireChallenge challengeId random now) := by
  refine ⟨fun next h => ?_, fun h => ?_⟩ <;>
    simp only [RoomUpdate.decide, StartSongChallenge.expire] at h <;> split at h <;> try simp at h
  next updated hexpire =>
    cases updated with
    | none => simp [Mutated.ofOption] at h
    | some room' =>
      obtain rfl := Mutated.room.inj h
      obtain ⟨selection, hselection, hphase, hid, hfallback⟩ :=
        SongSelectionService.expire_eq_some hexpire
      exact .expired selection hselection hphase hid hfallback
  next updated hexpire => cases updated <;> simp [Mutated.ofOption] at h

theorem keeps_castVote (voterId : JsString) (dancerId : JsValue) (now : Instant) :
    Keeps rt (CastVote.execute rt code voterId dancerId now) room
      (.castVote voterId dancerId now) := by
  refine ⟨fun next h => ?_, fun h => ?_⟩ <;>
    simp only [RoomUpdate.decide, CastVote.execute] at h <;> split at h <;> try simp at h
  next reply hcast =>
    obtain ⟨battle, wanted, hstatus, hbattle, hvoter, hstart, hend, hwire, hdancer, hreply⟩ :=
      RoomService.castVote_eq_ok.mp hcast
    split_ifs at hreply with hcurrent <;> subst hreply
    · simp [Mutated.ofOption] at h
    · obtain rfl := Mutated.room.inj h
      exact .voted battle wanted hstatus hbattle hvoter hstart hend hwire hdancer hcurrent
  next reply hcast => cases reply <;> simp [Mutated.ofOption] at h

theorem keeps_finishAtDeadline (battleId : JsString) (now : Instant) :
    Keeps rt (FinishBattleAtDeadline.execute rt code battleId now) room
      (.finishAtDeadline battleId now) := by
  refine ⟨fun next h => ?_, fun h => ?_⟩ <;>
    simp only [RoomUpdate.decide, FinishBattleAtDeadline.execute] at h <;> split_ifs at h with hid
    <;> try simp at h
  · split at h
    next => simp at h
    next reply hfinish =>
      cases reply with
      | none => simp [Mutated.ofOption] at h
      | some room' =>
        obtain rfl := Mutated.room.inj (Except.ok.inj h)
        obtain ⟨battle, hstatus, hbattle, htime, rfl⟩ :=
          RoomService.finishAtDeadline_eq_some hfinish
        obtain rfl : battle.id = battleId := by simpa [hbattle] using hid
        exact .finished battle hstatus hbattle htime
  · split at h
    next => simp at h
    next reply hfinish => cases reply <;> simp [Mutated.ofOption] at h

theorem keeps_rematch (requesterId : JsString) :
    Keeps rt (StartRematch.execute code requesterId) room (.rematch requesterId) := by
  refine ⟨fun next h => ?_, fun h => ?_⟩ <;>
    simp only [RoomUpdate.decide, StartRematch.execute] at h <;> split at h <;> try simp at h
  next room' hrematch =>
    obtain rfl := h
    obtain ⟨rfl, hstatus, rfl⟩ := RoomService.rematch_eq_ok hrematch
    exact .rematched hstatus

theorem keeps_join {playerId displayName : JsValue} {v : RoomUpdate Unit Room}
    (hv : JoinRoom.execute rt code playerId displayName = .ok v) :
    Keeps rt v room (.join playerId displayName) := by
  simp only [JoinRoom.execute, bind_eq_ok, pure_eq_ok] at hv
  obtain ⟨player, hplayer, rfl⟩ := hv
  refine ⟨fun next h => ?_, fun h => ?_⟩ <;>
    simp only [RoomUpdate.decide, RoomUpdate.plain] at h <;> split_ifs at h with hseated
    <;> try simp at h
  · obtain ⟨hstatus, hnew, hspace, p, hid, hrole, hready, rfl⟩ :=
      RoomService.join_eq_ok (map_room_eq_ok.mp h)
    exact .joined p hstatus (hid ▸ hnew) hspace hrole hready
  · exact map_room_ne_null _ h

theorem keeps_kick (requesterId : JsString) (playerId : JsValue) (random : RandomIndex)
    (now : Instant) : Keeps rt (KickPlayer.execute rt code requesterId playerId random now) room
      (.kick requesterId playerId random now) := by
  refine keeps_plain fun next h => ?_
  obtain ⟨hstatus, rfl, id, rfl, hother, hdeparted⟩ := RoomService.kick_eq_ok h
  exact .kicked hstatus hother hdeparted

theorem keeps_selectRole (playerId : JsString) (role : JsValue) :
    Keeps rt (SelectRole.execute code playerId role) room (.selectRole playerId role) := by
  refine keeps_plain fun next h => ?_
  obtain ⟨hstatus, hseated, chosen, rfl⟩ := RoomService.selectRole_eq_ok h
  exact .roleSelected chosen hstatus hseated

theorem keeps_setReady (playerId : JsString) (ready : JsValue) :
    Keeps rt (SetReady.execute code playerId ready) room (.setReady playerId ready) := by
  refine keeps_plain fun next h => ?_
  obtain ⟨hstatus, hseated, flag, rfl⟩ := RoomService.setReady_eq_ok h
  exact .readySet flag hstatus hseated

theorem keeps_startChallenge (requesterId : JsString) (options : StartChallengeOptions) :
    Keeps rt (StartSongChallenge.execute rt code requesterId options) room
      (.startChallenge requesterId options) := by
  refine ⟨fun next h => ?_, fun h => ?_⟩ <;>
    simp only [RoomUpdate.decide, StartSongChallenge.execute, RoomUpdate.plain, bind_eq_ok,
      throwIf_eq_ok, exists_const, not_not] at h
  · obtain ⟨rfl, h⟩ := h
    obtain ⟨hstatus, hprogress, hdancers, hready, phrase, hphrase, rfl⟩ :=
      SongSelectionService.start_eq_ok (map_room_eq_ok.mp h)
    exact .challengeStarted phrase hstatus hprogress hdancers hready hphrase
  · exact map_room_ne_null _ h.2

theorem keeps_startBattle (requesterId : JsString) (dancerIds : JsValue)
    (options : StartBattleOptions) :
    Keeps rt (StartBattle.execute rt code requesterId dancerIds options) room
      (.startBattle requesterId dancerIds options) := by
  refine ⟨fun next h => ?_, fun h => ?_⟩ <;>
    simp only [RoomUpdate.decide, StartBattle.execute, RoomUpdate.plain, bind_eq_ok,
      throwIf_eq_ok, exists_const, not_not] at h
  · obtain ⟨rfl, h⟩ := h
    exact .battleStarted (RoomService.startBattle_spec (map_room_eq_ok.mp h))
  · exact map_room_ne_null _ h.2

theorem keeps_awardWordBonus (playerId : JsString) :
    Keeps rt (AwardWordBonus.execute rt code playerId) room (.awardWordBonus playerId) := by
  refine keeps_plain fun next h => ?_
  obtain ⟨battle, hstatus, hbattle, hdancer, rfl⟩ := RoomService.awardWordBonus_eq_ok.mp h
  exact .awarded battle hstatus hbattle hdancer

theorem create_answered (slot : Option Room) (hostId displayName : JsValue) (now : Instant) :
    Answered rt code slot (.create hostId displayName now)
      (CreateRoom.attempt code slot hostId displayName now) := by
  unfold CreateRoom.attempt
  split
  next => exact ⟨.unchanged _ _, fun _ _ => rfl⟩
  next room hcreate =>
    obtain ⟨host, -, hcreate⟩ := bind_eq_ok.mp hcreate
    obtain ⟨p, -, hrole, hready, rfl⟩ := RoomService.create_eq_ok hcreate
    cases slot with
    | none => exact ⟨.created p hrole hready, by simp⟩
    | some current => exact ⟨.unchanged _ _, by simp⟩

theorem runChecked_none (u : Except JsError (RoomUpdate φ ρ)) (reply : ρ → Reply) :
    (RoomOp.runChecked code none u reply).1 = none := by
  cases u <;> rfl

/-- An input creates, changes or deletes the room, or leaves it as it was; when it throws it
leaves it as it was. -/
theorem answered (rt : Runtime) (code : JsString) (slot : Option Room) (op : RoomOp) :
    Answered rt code slot op ((roomMachine rt code).step slot op) := by
  show Answered rt code slot op (op.step rt code slot)
  cases slot with
  | none =>
    cases op with
    | create hostId displayName now => exact create_answered none hostId displayName now
    | join | submitPhrase =>
      refine ⟨?_, fun _ _ => runChecked_none _ _⟩
      rw [RoomOp.step, runChecked_none]
      exact .unchanged _ _
    | _ => exact ⟨.unchanged _ _, fun _ _ => rfl⟩
  | some room =>
    cases op with
    | create hostId displayName now => exact create_answered (some room) hostId displayName now
    | leave playerId random now => exact leave_answered playerId random now
    | join playerId displayName =>
      simp only [RoomOp.step, RoomOp.runChecked]
      split
      next => exact ⟨.unchanged _ _, fun _ _ => rfl⟩
      next u hu =>
        obtain ⟨player, -, hv⟩ := bind_eq_ok.mp hu
        obtain rfl := pure_eq_ok.mp hv
        exact (keeps_join hu).answered _ rfl
    | submitPhrase playerId text now random =>
      cases text with
      | string text => exact (keeps_submitPhrase playerId text now random).answered _ rfl
      | _ => exact ⟨.unchanged _ _, fun _ _ => rfl⟩
    | kick requesterId playerId random now =>
      exact (keeps_kick requesterId playerId random now).answered _ rfl
    | selectRole playerId role => exact (keeps_selectRole playerId role).answered _ rfl
    | setReady playerId ready => exact (keeps_setReady playerId ready).answered _ rfl
    | startChallenge requesterId options =>
      exact (keeps_startChallenge requesterId options).answered _ rfl
    | expireChallenge challengeId random now =>
      exact (keeps_expireChallenge challengeId random now).answered _ rfl
    | chooseSong playerId songId options =>
      exact (keeps_chooseSong playerId songId options).answered _ rfl
    | autoPick challengeId random options =>
      exact (keeps_autoPick challengeId random options).answered _ rfl
    | startBattle requesterId dancerIds options =>
      exact (keeps_startBattle requesterId dancerIds options).answered _ rfl
    | castVote voterId dancerId now => exact (keeps_castVote voterId dancerId now).answered _ rfl
    | awardWordBonus playerId => exact (keeps_awardWordBonus playerId).answered _ rfl
    | finishAtDeadline battleId now =>
      exact (keeps_finishAtDeadline battleId now).answered _ rfl
    | rematch requesterId => exact (keeps_rematch requesterId).answered _ rfl

/-- An input creates, changes or deletes the room, or leaves it as it was. -/
theorem step_spec (rt : Runtime) (code : JsString) (slot : Option Room) (op : RoomOp) :
    Stored rt code slot op ((roomMachine rt code).next slot op) :=
  (answered rt code slot op).stored

/-- An event of a run of the room. -/
theorem stored_of_mem_trace {slot : Option Room} {ops : List RoomOp}
    {e : Machine.Event (Option Room) RoomOp (Except JsError Reply)}
    (h : e ∈ (roomMachine rt code).trace slot ops) : Stored rt code e.before e.input e.after := by
  rw [Machine.event_of_mem_trace h]
  exact step_spec rt code e.before e.input

/-- A refused event of a run of the room. -/
theorem refused_of_mem_trace {slot : Option Room} {ops : List RoomOp}
    {e : Machine.Event (Option Room) RoomOp (Except JsError Reply)}
    (h : e ∈ (roomMachine rt code).trace slot ops) {error : JsError}
    (houtput : e.output = .error error) : e.after = e.before := by
  have hevent := Machine.event_of_mem_trace h
  have hanswer := (congrArg Machine.Event.output hevent).symm.trans houtput
  exact (congrArg Machine.Event.after hevent).trans
    ((answered rt code e.before e.input).refused error hanswer)

end Spec

end DanceSync
