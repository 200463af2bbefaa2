import DanceSync.Application.RoomMachine
import DanceSync.Machine.Interleaving
import DanceSync.WordRace.Store

/-!
# Handlers as interleaved tasks

`src/infrastructure/ws/socketHandlers.ts` and `src/infrastructure/scheduling/WordRaceScheduler.ts`
on one room: a handler or a timer runs until it awaits the answer of a store, and whatever
other handlers do may come before it goes on. A call of a store is one atomic step, made when the
piece before it ends.

Modelled are the stored room, the stored word race and the pending timers of its rounds. A room
timer or a round timer may fire at any time, once, twice or never. The messages that carry a room
(`room:updated` and the like) and the room timers themselves are left out.

## Main definitions

* `Shared`, `Task`, `Output`: the state, the suspended handlers and what can be seen of them.
* `Task.resume`: one piece of a handler.
* `service`: the machine of all interleavings.
-/

namespace DanceSync

/-! ### Messages -/

structure WordRoundStartedPayload where
  roomCode : JsString
  roundId : JsString
  roundNumber : ℕ
  totalRounds : ℕ
  word : JsString
  /-- `NaN` is `null` in the payload. -/
  expiresInMs : Option ℤ
  deriving DecidableEq

def roundStartedPayload (race : WordRace) (round : WordRound) (now : Instant) :
    WordRoundStartedPayload where
  roomCode := race.roomCode
  roundId := round.id
  roundNumber := round.number
  totalRounds := race.rounds.length
  word := round.word
  expiresInMs := (round.closesAt.msFrom now).map (max 0)

inductive WordRoundEndReason where
  | won
  | expired
  deriving DecidableEq, Repr

structure WordRoundEndedPayload where
  roomCode : JsString
  roundId : JsString
  roundNumber : ℕ
  totalRounds : ℕ
  word : JsString
  winnerId : Option JsString
  /-- `race.participantNames[winnerId] ?? null`. -/
  winnerName : Lookup JsString
  reason : WordRoundEndReason
  wins : Record JsString Tally
  bonusPoints : ℚ
  deriving DecidableEq

def roundEndedPayload (rt : Runtime) (race : WordRace) (round : WordRound)
    (bonusPoints : ℚ := 0) : WordRoundEndedPayload :=
  let winnerId := if round.status = .won then round.winnerId else none
  { roomCode := race.roomCode
    roundId := round.id
    roundNumber := round.number
    totalRounds := race.rounds.length
    word := round.word
    winnerId
    winnerName := match winnerId with
      | some id => if id = [] then .absent else race.participantNames.get rt.proto id
      | none => .absent
    reason := if round.status = .won then .won else .expired
    wins := race.wins
    bonusPoints := if round.status = .won then bonusPoints else 0 }

/-! ### The state -/

/-- A pending timer of the word race. -/
inductive RoundTimer where
  | opening (roundId : JsString)
  | closing (roundId : JsString)
  deriving DecidableEq

/-- What the handlers of one room share. -/
structure Shared where
  room : Option Room := none
  race : Option WordRace := none
  /-- The pending round timers; `none` when the race was stopped or not scheduled yet. -/
  timers : Option (List RoundTimer) := none

namespace Shared

/-- `schedule`: a timer is added unless the race was stopped meanwhile. -/
def schedule (s : Shared) (timer : RoundTimer) : Shared :=
  { s with timers := s.timers.map fun pending => pending ++ [timer] }

/-- A timer that fires is not pending any more. -/
def fired (s : Shared) (timer : RoundTimer) : Shared :=
  { s with timers := s.timers.map fun pending => pending.erase timer }

end Shared

/-- A suspended handler, by what it does next. -/
inductive Task where
  /-- A handler or a room timer calls a use case of the room. -/
  | call (op : RoomOp)
  | announceLeave (left : JoinRoom.LeaveRoomOutput)
  | announceBattleFinished
  | announceRematch
  | announceBattleStarted
  /-- `StartWordRace.execute` has read the room. -/
  | planRace (room : Option Room)
  | scheduleRounds (race : WordRace)
  /-- The timer of an opening fires. -/
  | open (roundId : JsString)
  | openRoom (roundId : JsString) (room : Option Room)
  | openRace (roundId : JsString) (room : Option Room) (race : Option WordRace)
  /-- `OpenWordRound.execute` returned `battle-over`. -/
  | stopRace
  | announceRound (race : WordRace) (round : WordRound)
  /-- The timer of a closing fires. -/
  | expire (roundId : JsString)
  | expireRace (roundId : JsString) (expired : Option WordRound)
  | announceExpired (roundId : JsString) (expired : Option WordRound) (race : Option WordRace)
  /-- A dancer sends a word. -/
  | submitWord (playerId : JsString) (text roundId : JsValue)
  | submitRace (playerId text roundId : JsString) (race : Option WordRace)
  | submitClaim (playerId : JsString) (race : WordRace) (now : Instant) (claim : ClaimRoundResult)
  | awardWordBonus (playerId : JsString) (race : WordRace) (round : WordRound)
  | announceWon (playerId : JsString) (race : WordRace) (round : WordRound) (bonus : Option Room)

/-- What can be seen of a run: changes of the stored race and messages about it. -/
inductive Output where
  | raceSaved (race : WordRace)
  | raceStopped
  | roundClaimed (battleId roundId playerId : JsString)
  | roundExpired (battleId roundId : JsString)
  | roundStarted (payload : WordRoundStartedPayload)
  | roundEnded (payload : WordRoundEndedPayload)
  /-- The acknowledgement of a submission: its outcome and the winner of the round. -/
  | wordAnswered (playerId : JsString)
      (answer : Except JsError (SubmitWordOutcome × Option JsString))

/-- What a piece reads from outside. -/
structure Env where
  now : Instant
  random : ℕ → RandomIndex

/-- The engine, the code of the room and the settings of the word race. -/
structure Service where
  rt : Runtime
  code : JsString
  options : PlanWordRaceOptions := {}

/-! ### The pieces -/

/-- What a handler goes on with after its use case returned. -/
def Reply.next : RoomOp → Reply → List Task
  | .startBattle .., _ => [.announceBattleStarted]
  | .chooseSong .., .chosen _ battleStarted =>
    if battleStarted then [.announceBattleStarted] else []
  | .autoPick .., .picked output => if output.battleStarted then [.announceBattleStarted] else []
  | .leave .., .left output => [.announceLeave output]
  | .finishAtDeadline .., .finished (some (_, true)) => [.announceBattleFinished]
  | .rematch _, _ => [.announceRematch]
  | _, _ => []

/-- `WordRaceScheduler.stop`: the timers and the race are discarded at once. -/
def WordRaceScheduler.stop (s : Shared) : Resumed Shared Task Output where
  shared := { s with race := none, timers := none }
  emitted := [.raceStopped]

/-- A departure that leaves no running battle stops the race. -/
def JoinRoom.LeaveRoomOutput.stops (left : JoinRoom.LeaveRoomOutput) : Bool :=
  match left.room with
  | none => true
  | some room => left.battleFinished || room.status ≠ .battling

/-- `!room || room.status !== "battling" || room.battle?.id !== race.battleId`. -/
def OpenWordRound.battleOver (room : Option Room) (race : WordRace) : Bool :=
  match room with
  | none => true
  | some room => room.status ≠ .battling || room.battle.map (·.id) ≠ some race.battleId

/-- `race: no word race` of `SubmitWord.execute`. -/
def SubmitWord.notActive (code : JsString) : JsError :=
  .domain .wordRaceNotActive (js "Room " ++ code ++ js " has no word race running")

namespace Task

variable (sv : Service) (env : Env) (s : Shared)

/-- A use case of the room is called. -/
def resumeCall (op : RoomOp) : Resumed Shared Task Output :=
  let (room, reply) := op.step sv.rt sv.code s.room
  { shared := { s with room }
    tasks := (reply.toOption.map (Reply.next op)).getD [] }

/-- `StartWordRace.execute` after it read the room. -/
def resumePlan (room : Option Room) : Resumed Shared Task Output :=
  match room with
  | none => { shared := s }
  | some room =>
    match WordRaceService.plan .double sv.rt room sv.options env.random with
    | .error _ => { shared := s }
    | .ok race =>
      { shared := { s with race := some race }
        tasks := [.scheduleRounds race]
        emitted := [.raceSaved race] }

/-- `OpenWordRound.execute` after both reads. -/
def resumeOpen (roundId : JsString) (room : Option Room) (race : Option WordRace) :
    Resumed Shared Task Output :=
  match race with
  | none => { shared := s }
  | some race =>
    if OpenWordRound.battleOver room race then { shared := s, tasks := [.stopRace] }
    else
      let (stored, round) := InMemoryWordRaceRepository.openRound s.race roundId
      { shared := { s with race := stored }
        tasks := (round.map fun round => [.announceRound race round]).getD [] }

/-- `ExpireWordRound.execute` up to its read. -/
def resumeExpire (roundId : JsString) : Resumed Shared Task Output :=
  let (stored, round) := InMemoryWordRaceRepository.expireRound s.race roundId env.now
  { shared := { s.fired (.closing roundId) with race := stored }
    tasks := [.expireRace roundId round]
    emitted := match round, s.race with
      | some round, some race => [.roundExpired race.battleId round.id]
      | _, _ => [] }

/-- `SubmitWord.execute` after it read the race. -/
def resumeSubmit (playerId text roundId : JsString) (race : Option WordRace) :
    Resumed Shared Task Output :=
  let answered answer : Resumed Shared Task Output :=
    { shared := s, emitted := [.wordAnswered playerId answer] }
  match race with
  | none => answered (.error (SubmitWord.notActive sv.code))
  | some race =>
    match race.round? roundId with
    | none => answered (.error (.domain .wordRoundNotOpen
        (js "Round " ++ roundId ++ js " does not exist")))
    | some round =>
      match WordRaceService.judge sv.rt round race.participantIds playerId text env.now with
      | .error e => answered (.error e)
      | .ok .incorrect => answered (.ok (.incorrect, round.winnerId))
      | .ok .expired => answered (.ok (.expired, round.winnerId))
      | .ok .correct =>
        -- The read may be stale: only the atomic claim decides the winner.
        let (stored, claim) :=
          InMemoryWordRaceRepository.claimRound sv.rt s.race roundId playerId env.now
        { shared := { s with race := stored }
          tasks := [.submitClaim playerId race env.now claim]
          emitted := match claim, s.race with
            | .claimed round, some stored => [.roundClaimed stored.battleId round.id playerId]
            | _, _ => [] }

/-- `SubmitWord.execute` after the claim. -/
def resumeClaim (playerId : JsString) (race : WordRace) (now : Instant) (claim : ClaimRoundResult) :
    Resumed Shared Task Output :=
  match claim with
  | .claimed round => { shared := s, tasks := [.awardWordBonus playerId (s.race.getD race) round] }
  | .refused none =>
    { shared := s, emitted := [.wordAnswered playerId (.error (SubmitWord.notActive sv.code))] }
  | .refused (some round) =>
    let expiredMeanwhile :=
      round.status = .expired ∨ (round.winnerId = none ∧ round.closesAt ≤ now)
    { shared := s
      emitted := [.wordAnswered playerId
        (.ok (if expiredMeanwhile then .expired else .late, round.winnerId))] }

/-- `awardWordBonus`: the points are paid, unless the use case throws. -/
def resumeAward (playerId : JsString) (race : WordRace) (round : WordRound) :
    Resumed Shared Task Output :=
  let (room, reply) := (RoomOp.awardWordBonus playerId).step sv.rt sv.code s.room
  let bonus := match reply with
    | .ok (.room room) => some room
    | _ => none
  { shared := { s with room }, tasks := [.announceWon playerId race round bonus] }

/-- The points of a word round in the scoring of a room's battle, 0 without them. -/
def bonusPoints (bonus : Option Room) : ℚ :=
  ((bonus.bind (·.battle)).map (·.scoring.wordBonusPoints)).getD 0

/-- `WordRaceScheduler.expire` after its use case returned. -/
def resumeExpired (roundId : JsString) (expired : Option WordRound) (race : Option WordRace) :
    Resumed Shared Task Output :=
  match expired, race with
  | some round, some race =>
    { shared := s, emitted := [.roundEnded (roundEndedPayload sv.rt race round)] }
  | _, _ =>
    -- The timer fired a moment before the window closed.
    if (race.bind (·.round? roundId)).map (·.status) = some .open then
      { shared := s.schedule (.closing roundId) }
    else { shared := s }

/-- One piece of a handler. -/
def resume : Task → Resumed Shared Task Output
  | .call op => resumeCall sv s op
  | .announceLeave left => if left.stops then WordRaceScheduler.stop s else { shared := s }
  | .announceBattleFinished | .announceRematch | .stopRace => WordRaceScheduler.stop s
  | .announceBattleStarted =>
    { shared := { s with timers := none }, tasks := [.planRace s.room] }
  | .planRace room => resumePlan sv env s room
  | .scheduleRounds race =>
    { shared := { s with timers := some (race.rounds.map fun round => .opening round.id) } }
  | .open roundId =>
    { shared := s.fired (.opening roundId), tasks := [.openRoom roundId s.room] }
  | .openRoom roundId room => { shared := s, tasks := [.openRace roundId room s.race] }
  | .openRace roundId room race => resumeOpen s roundId room race
  | .announceRound race round =>
    { shared := s.schedule (.closing round.id)
      emitted := [.roundStarted (roundStartedPayload race round env.now)] }
  | .expire roundId => resumeExpire env s roundId
  | .expireRace roundId expired =>
    { shared := s, tasks := [.announceExpired roundId expired s.race] }
  | .announceExpired roundId expired race => resumeExpired sv s roundId expired race
  | .submitWord playerId text roundId =>
    match text.string?, roundId.string? with
    | some text, some roundId =>
      { shared := s, tasks := [.submitRace playerId text roundId s.race] }
    | _, _ =>
      { shared := s
        emitted := [.wordAnswered playerId (.error (.domain .invalidMessage
          (js "The typed word and the round id must be text")))] }
  | .submitRace playerId text roundId race => resumeSubmit sv env s playerId text roundId race
  | .submitClaim playerId race now claim => resumeClaim sv s playerId race now claim
  | .awardWordBonus playerId race round => resumeAward sv s playerId race round
  | .announceWon playerId race round bonus =>
    { shared := s
      emitted := [.roundEnded (roundEndedPayload sv.rt race round (bonusPoints bonus)),
        .wordAnswered playerId (.ok (.won, round.winnerId))] }

end Task

/-- All interleavings of the handlers of one room. -/
def service (sv : Service) : Machine (World Shared Task Output) (Turn Env Task) (List Output) :=
  interleaving fun env task shared => task.resume sv env shared

/-! ### Sample turns -/

/-- The clock 14 seconds after the epoch, and a random source that picks the first entry. -/
def sampleEnv : Env := ⟨14000, fun _ => .first⟩

/-- The task at `index` goes on for some pieces. -/
def samplePieces (index pieces : ℕ) : List (Turn Env Task) :=
  List.replicate pieces (.resume index sampleEnv)

/-- Use cases called one after the other, each at once, while `index` tasks wait. -/
def sampleCalls (index : ℕ) (ops : List RoomOp) : List (Turn Env Task) :=
  ops.flatMap fun op => [.spawn (.call op), .resume index sampleEnv]

end DanceSync
