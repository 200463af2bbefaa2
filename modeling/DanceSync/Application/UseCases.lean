import DanceSync.Application.RoomUpdate

/-!
# The use cases of a room

The classes of `src/application/usecases` that change a stored room, each as the update it hands
to the store. The clock and the random source are arguments. A check made before the store is
called is in `Except` outside the update.

## Main definitions

* `JoinRoom.execute`, `JoinRoom.leave`, `KickPlayer.execute`, `SelectRole.execute`,
  `SetReady.execute`.
* `StartSongChallenge.execute`, `StartSongChallenge.expire`, `SubmitSongPhrase.execute`,
  `ChooseSong.execute`, `ChooseSong.autoPick`.
* `StartBattle.execute`, `CastVote.execute`, `AwardWordBonus.execute`,
  `FinishBattleAtDeadline.execute`, `StartRematch.execute`.
-/

namespace DanceSync

/-- An update without captured variables that returns the stored room. -/
def RoomUpdate.plain (code : JsString) (decide : Room → Except JsError Mutated) :
    RoomUpdate Unit Room where
  initial := ()
  mutate _ current := ((), decide current)
  result := RoomUpdate.keeping code fun room _ => room

/-! ### The lobby -/

namespace JoinRoom

/-- Seats a player; rejoining changes nothing. -/
def execute (rt : Runtime) (code : JsString) (playerId displayName : JsValue) :
    Except JsError (RoomUpdate Unit Room) := do
  let player ← validatePlayer playerId displayName
  return RoomUpdate.plain code fun room =>
    if player.id ∈ room.playerIds then .ok .same
    else Mutated.room <$> RoomService.join rt room player

structure LeaveRoomOutput where
  /-- The updated room, `none` when the last player left and it was deleted. -/
  room : Option Room
  /-- This departure finished the running battle. -/
  battleFinished : Bool
  /-- Spectators still in the room whose vote was discarded. -/
  discardedVoterIds : List JsString
  deriving DecidableEq

/-- `room.battle?.votes ?? {}`. -/
def votesOf (room : Room) : Record JsString JsString :=
  (room.battle.map (·.votes)).getD .empty

/-- The voters, other than the leaver, without a vote after the departure. -/
def discardedVoterIds (rt : Runtime) (current updated : Room) (playerId : JsString) :
    List JsString :=
  (votesOf current).keys.filter fun voterId =>
    voterId ≠ playerId ∧ ¬(votesOf updated).has rt.proto voterId

/-- Removes a player, and the room with its last player. -/
def leave (rt : Runtime) (playerId : JsString) (random : RandomIndex) (now : Instant) :
    RoomUpdate (Bool × List JsString) LeaveRoomOutput where
  initial := (false, [])
  mutate flags current :=
    match RoomService.leave rt current playerId random now with
    | .error e => (flags, .error e)
    | .ok updated =>
      ((current.status = .battling ∧ updated.status = .finished,
          discardedVoterIds rt current updated playerId),
        .ok (if updated.players.length = 0 then .null else .room updated))
  result room flags := .ok
    { room, battleFinished := flags.1, discardedVoterIds := flags.2 }

end JoinRoom

def KickPlayer.execute (rt : Runtime) (code requesterId : JsString) (playerId : JsValue)
    (random : RandomIndex) (now : Instant) : RoomUpdate Unit Room :=
  RoomUpdate.plain code fun room =>
    Mutated.room <$> RoomService.kick rt room requesterId playerId random now

def SelectRole.execute (code playerId : JsString) (role : JsValue) : RoomUpdate Unit Room :=
  RoomUpdate.plain code fun room => Mutated.room <$> RoomService.selectRole room playerId role

def SetReady.execute (code playerId : JsString) (ready : JsValue) : RoomUpdate Unit Room :=
  RoomUpdate.plain code fun room => Mutated.room <$> RoomService.setReady room playerId ready

/-! ### Song selection -/

namespace StartSongChallenge

def execute (rt : Runtime) (code requesterId : JsString) (options : StartChallengeOptions) :
    RoomUpdate Unit Room :=
  RoomUpdate.plain code fun room => do
    throwIf (room.hostId ≠ requesterId)
      (.domain .notHost (js "Only the host can start the song selection"))
    Mutated.room <$> SongSelectionService.start rt room options

/-- Resolves a challenge whose countdown ran out; returns `none` when there was nothing to
expire. -/
def expire (code challengeId : JsString) (random : RandomIndex) (now : Instant) :
    RoomUpdate Bool (Option Room) where
  initial := false
  mutate expired current :=
    match SongSelectionService.expire current challengeId random now with
    | .error e => (expired, .error e)
    | .ok updated => (updated.isSome, .ok (.ofOption updated))
  result := RoomUpdate.keeping code fun room expired => if expired then some room else none
  rescue
    | .domain .roomNotFound _ => some none
    | _ => none

end StartSongChallenge

namespace SubmitSongPhrase

/-- The typed phrase decides on the latest stored state. -/
def update (rt : Runtime) (code playerId text : JsString) (now : Instant) (random : RandomIndex) :
    RoomUpdate SubmitOutcome (Room × SubmitOutcome) where
  initial := .incorrect
  mutate outcome current :=
    match SongSelectionService.submit rt current playerId text now random with
    | .error e => (outcome, .error e)
    | .ok (room, outcome) => (outcome, .ok (.room room))
  result := RoomUpdate.keeping code fun room outcome => (room, outcome)

def execute (rt : Runtime) (code playerId : JsString) (text : JsValue) (now : Instant)
    (random : RandomIndex) :
    Except JsError (RoomUpdate SubmitOutcome (Room × SubmitOutcome)) :=
  match text.string? with
  | none => .error (.domain .invalidMessage (js "The typed phrase must be text"))
  | some text => .ok (update rt code playerId text now random)

end SubmitSongPhrase

namespace ChooseSong

/-- The chosen song starts the battle in the same stored change, unless the room is not startable
yet. -/
def startIfPossible (rt : Runtime) (chosen : Room) (options : StartBattleOptions) :
    Except JsError (Room × Bool) :=
  if chosen.songSelection = none then .ok (chosen, false)
  else match RoomService.startBattle rt chosen .undefined options with
    | .ok room => .ok (room, true)
    | .error (.domain _ _) => .ok (chosen, false)
    | .error e => .error e

/-- The chooser picks a song; returns whether the battle started. -/
def execute (rt : Runtime) (code playerId songId : JsString) (options : StartBattleOptions) :
    RoomUpdate Bool (Room × Bool) where
  initial := false
  mutate _ current :=
    match SongSelectionService.choose current playerId songId with
    | .error e => (false, .error e)
    | .ok chosen =>
      match startIfPossible rt chosen options with
      | .error e => (false, .error e)
      | .ok (room, battleStarted) => (battleStarted, .ok (.room room))
  result := RoomUpdate.keeping code fun room battleStarted => (room, battleStarted)

structure AutoPickSongOutput where
  room : Room
  /-- False when there was nothing to pick. -/
  picked : Bool
  battleStarted : Bool
  deriving DecidableEq

/-- The chooser's deadline passed: a random song is picked for them. -/
def autoPick (rt : Runtime) (code challengeId : JsString) (random : RandomIndex)
    (options : StartBattleOptions) : RoomUpdate (Bool × Bool) AutoPickSongOutput where
  initial := (false, false)
  mutate _ current :=
    match SongSelectionService.autoPick current challengeId options.now random with
    | .error e => ((false, false), .error e)
    | .ok none => ((false, false), .ok .same)
    | .ok (some chosen) =>
      match startIfPossible rt chosen options with
      | .error e => ((true, false), .error e)
      | .ok (room, battleStarted) => ((true, battleStarted), .ok (.room room))
  result := RoomUpdate.keeping code fun room flags =>
    { room, picked := flags.1, battleStarted := flags.2 }

end ChooseSong

/-! ### Battles -/

def StartBattle.execute (rt : Runtime) (code requesterId : JsString) (dancerIds : JsValue)
    (options : StartBattleOptions) : RoomUpdate Unit Room :=
  RoomUpdate.plain code fun room => do
    throwIf (room.hostId ≠ requesterId)
      (.domain .notHost (js "Only the host can start the battle"))
    Mutated.room <$> RoomService.startBattle rt room dancerIds options

structure CastVoteOutput where
  room : Room
  /-- The voter's current vote, as stored. -/
  dancerId : Lookup JsString
  /-- False when the vote was already the stored one. -/
  changed : Bool
  deriving DecidableEq

/-- A spectator casts, moves or withdraws their vote. -/
def CastVote.execute (rt : Runtime) (code voterId : JsString) (dancerId : JsValue) (now : Instant) :
    RoomUpdate Bool CastVoteOutput where
  initial := false
  mutate changed current :=
    match RoomService.castVote rt current voterId dancerId now with
    | .error e => (changed, .error e)
    | .ok next => (next.isSome, .ok (.ofOption next))
  result := RoomUpdate.keeping code fun room changed =>
    { room, dancerId := RoomService.voteOf rt room voterId, changed }

/-- Counts a word round won by the winner of the claim. -/
def AwardWordBonus.execute (rt : Runtime) (code playerId : JsString) : RoomUpdate Unit Room :=
  RoomUpdate.plain code fun room => Mutated.room <$> RoomService.awardWordBonus rt room playerId

/-- Called by the timer of the end of battle `battleId`; returns `none` when the room is gone. -/
def FinishBattleAtDeadline.execute (rt : Runtime) (code battleId : JsString) (now : Instant) :
    RoomUpdate Bool (Option (Room × Bool)) where
  initial := false
  mutate _ current :=
    if current.battle.map (·.id) ≠ some battleId then (false, .ok .same)
    else match RoomService.finishAtDeadline rt current now with
      | .error e => (false, .error e)
      | .ok next => (next.isSome, .ok (.ofOption next))
  result := RoomUpdate.keeping code fun room finished => some (room, finished)
  rescue
    | .domain .roomNotFound _ => some none
    | _ => none

/-- The host takes a finished room back to the lobby; returns the spectators whose vote in the
replaced battle is cleared. -/
def StartRematch.execute (code requesterId : JsString) :
    RoomUpdate (List JsString) (Room × List JsString) where
  initial := []
  mutate cleared current :=
    match RoomService.rematch current requesterId with
    | .error e => (cleared, .error e)
    | .ok next =>
      ((JoinRoom.votesOf current).keys.filter (· ∈ next.playerIds), .ok (.room next))
  result := RoomUpdate.keeping code fun room cleared => (room, cleared)

end DanceSync
