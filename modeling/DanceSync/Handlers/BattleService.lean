import DanceSync.Handlers.Routes

/-!
# The whole service

Everything that calls a use case of a room in battle-service, for the rooms of all codes: client
events, the routes, the deadline timers, the timers of graces and new rooms, and the sweep. Each is
a program; any number of them run at once, and any other may go on between two requests of one.

The stored rooms are the state. What the word races, the sockets, the clocks and the random sources
answer is arbitrary, and so is when a timer fires and for what. Round timers touch no room. The
sweep has no empty room to delete, since none is ever stored.

## Main definitions

* `BattleService.finishBattleAtDeadline`, `BattleService.autoPickSong`,
  `BattleService.expireSongChallenge`, `BattleService.releaseSeatIfAbandoned`,
  `BattleService.sweep`.
* `BattleService.Activity`: what the service does.
* `BattleService.perform`, `BattleService.forks`, `battleService`: the machine of all interleavings.
-/

namespace DanceSync

namespace BattleService

open SocketEvents
open Bindings (BattleSocket)

/-! ### Timers -/

/-- The timer of the end of a battle fires. -/
def finishBattleAtDeadline (roomCode battleId : JsString) : Handler Unit := do
  let reading ← read
  let result ← update roomCode (.finishAtDeadline battleId reading.now) fun
    | .finished output => some output
    | _ => none
  match result with
  | none => pure ()
  | some (room, finished) =>
    if finished then announceBattleFinished room
    -- Fired a moment early: follow the stored state.
    else effect (.armRoomTimers room)

/-- The deadline of the chooser passed. -/
def autoPickSong (server : Server) (roomCode challengeId : JsString) : Handler Unit := do
  let reading ← read
  let result ← Program.attempt
    (do
      let output ← update roomCode (.autoPick challengeId (reading.random 0)
          (server.env.battleOptions reading.now reading.uuid)) fun
        | .picked output => some output
        | _ => none
      return some output)
    fun
    | .domain .roomNotFound _ => pure none
    | error => .throw error
  match result with
  | none => pure ()
  | some output =>
    if output.picked then
      if output.battleStarted then announceBattleStarted output.room
      else publishRoom output.room
    -- Fired a moment early, or for a turn that was renewed: follow the stored state.
    else effect (.armRoomTimers output.room)

/-- The countdown of a song challenge ran out. -/
def expireSongChallenge (roomCode challengeId : JsString) : Handler Unit := do
  let reading ← read
  let expired ← update roomCode (.expireChallenge challengeId (reading.random 0) reading.now) fun
    | .expired room => some room
    | _ => none
  match expired with
  | none => pure ()
  | some room => publishRoom room

/-- A timer whose errors are logged. -/
def logged (timer : Handler Unit) : Handler Unit := timer.attempt fun _ => pure ()

/-! ### Seats -/

def isBound (roomCode playerId : JsString) : Handler Bool := do
  let sockets ← fetchSockets roomCode
  return sockets.contains (some playerId)

/-- The grace of a seat ran out. -/
def releaseSeatIfAbandoned (roomCode playerId : JsString) : Handler Unit :=
  logged (do
    let bound ← isBound roomCode playerId
    if bound then pure ()
    else do
      let _ ← leaveRoom roomCode playerId
      return ())

/-- Every stored room, read one by one. -/
def listRooms : List JsString → Handler (List Room)
  | [] => return []
  | code :: codes => do
    let found ← findRoom code
    let rooms ← listRooms codes
    return found.toList ++ rooms

def sweepSeat (roomCode : JsString) (bound : List (Option JsString)) (playerId : JsString) :
    ServiceHandler Unit :=
  if bound.contains (some playerId) then do
    askConnection (.seen roomCode playerId)
    return ()
  else do
    let abandoned : Bool ← askConnection (.abandoned roomCode playerId)
    if abandoned then lift (releaseSeatIfAbandoned roomCode playerId) else pure ()

def sweepRoom (room : Room) : ServiceHandler Unit := do
  lift (effect (.armRoomTimers room))
  let bound ← lift (fetchSockets room.code)
  Program.forEach (sweepSeat room.code bound) room.playerIds

/-- Safety net behind the grace timers. -/
def sweep : ServiceHandler Unit := do
  let codes ← askConnection .listCodes
  let rooms ← lift (listRooms codes)
  Program.forEach sweepRoom rooms

/-! ### What the service does -/

inductive Activity where
  /-- A client event but `room:join`, on a socket that is bound like this. -/
  | event (socket : BattleSocket) (name : ClientEvent) (payload : JsValue) (ack : Bool)
  | join (payload : JsValue) (ack : Bool)
  /-- A request, and how many codes `CreateRoom` may draw for it. -/
  | request (route : Routes.Route) (body : Except JsValue JsValue) (attempts : ℕ)
  | battleEnd (roomCode battleId : JsString)
  | songChoose (roomCode challengeId : JsString)
  | songChallenge (roomCode challengeId : JsString)
  /-- The timer of a grace or of a new room. -/
  | seat (roomCode playerId : JsString)
  | sweep

def Activity.program (server : Server) (parse : JsString → Option JsValue) :
    Activity → ServiceHandler Unit
  | .event socket name payload ack => lift (handle server socket name payload ack)
  | .join payload ack => SocketEvents.join server payload ack
  | .request route body attempts => do
    let _ ← Routes.respond server parse attempts body route
    return ()
  | .battleEnd roomCode battleId => lift (logged (finishBattleAtDeadline roomCode battleId))
  | .songChoose roomCode challengeId => lift (logged (autoPickSong server roomCode challengeId))
  | .songChallenge roomCode challengeId => lift (logged (expireSongChallenge roomCode challengeId))
  | .seat roomCode playerId => lift (releaseSeatIfAbandoned roomCode playerId)
  | .sweep => BattleService.sweep

/-- The stored rooms after a request. -/
def roomsAfter {rt : Runtime} : Request → Stores rt → RoomStore rt
  | .store op, stores => (op.perform stores).2.rooms
  | _, stores => stores.rooms

/-- A request is answered from the stored rooms, and from what else there is. -/
def perform (rt : Runtime) (env : ServiceSurroundings rt) :
    (r : ServiceRequest) → RoomStore rt → ServiceRequest.Answer r × RoomStore rt
  | .inl r, rooms =>
    let stores : Stores rt := { env.surroundings.stores with rooms }
    (r.answer rt { env.surroundings with stores }, roomsAfter r stores)
  | .inr r, rooms => (r.answer env.connections, rooms)

/-- The programs that a request leaves running. -/
def forks (server : Server) : ServiceRequest → List (ServiceHandler Unit)
  | .inl r => (SocketEvents.forks server r).map lift
  | .inr _ => []

/-- What happens in a run of the service. -/
abbrev Entry := Happened ServiceRequest ServiceRequest.Answer ServiceSent

/-- The stored rooms, the handlers under way, and what they asked and sent so far. -/
abbrev Snapshot (rt : Runtime) :=
  Programs (RoomStore rt) ServiceRequest ServiceRequest.Answer ServiceSent JsError Unit

/-- No room is stored, and nothing happened yet. -/
def started (rt : Runtime) : Snapshot rt := ⟨⟨fun _ => none, by simp⟩, [], []⟩

end BattleService

/-- All interleavings of what the service does. -/
def battleService (server : SocketEvents.Server) : Machine (BattleService.Snapshot server.rt)
    (Turn (SocketEvents.ServiceSurroundings server.rt) (SocketEvents.ServiceHandler Unit))
    (List BattleService.Entry) :=
  concurrent (BattleService.perform server.rt) (BattleService.forks server)

end DanceSync
