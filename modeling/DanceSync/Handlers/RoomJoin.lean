import DanceSync.Handlers.SocketEvents
import DanceSync.Machine.Interfaces

/-!
# Joining a room

`room:join` of `src/infrastructure/ws/socketHandlers.ts`, the one event that binds its socket. It
reads and writes `socket.data`, so its requests are more than those of the other events.

## Main definitions

* `SocketEvents.ConnectionRequest`: what is asked of connections, graces and the random source.
* `SocketEvents.ServiceHandler`: a handler that may ask all of it.
* `SocketEvents.roomJoin`, `SocketEvents.join`.
-/

namespace DanceSync

namespace SocketEvents

open Bindings (Binding)

/-! ### More requests -/

/-- What is asked of connections, graces and the random source, beside what the client events
ask. -/
inductive ConnectionRequest where
  /-- `socket.data` of the socket whose event is handled. -/
  | ownData
  /-- `socket.data` is written, and the socket enters the channels of the room and the player. -/
  | bind (binding : Binding)
  /-- `unbindSocket` of the socket whose event is handled. -/
  | unbindOwn
  /-- The seat has a socket: `unboundSince` forgets it. -/
  | seen (roomCode playerId : JsString)
  | watchNewRoom (roomCode hostId : JsString)
  | leaveAfterPagehide (roomCode playerId : JsString)
  | randomBytes
  | listCodes
  /-- No timer will decide on the seat, and it had no socket for longer than the grace. -/
  | abandoned (roomCode playerId : JsString)

/-- What these requests are answered from. -/
structure Connections where
  ownData : Option Binding
  randomBytes : List.Vector UInt8 ROOM_CODE_LENGTH
  codes : List JsString
  abandoned : JsString → JsString → Bool

namespace ConnectionRequest

def Answer : ConnectionRequest → Type
  | ownData => Option Binding
  | randomBytes => List.Vector UInt8 ROOM_CODE_LENGTH
  | listCodes => List JsString
  | abandoned .. => Bool
  | _ => Unit

def answer : (r : ConnectionRequest) → Connections → r.Answer
  | ownData, c => c.ownData
  | randomBytes, c => c.randomBytes
  | listCodes, c => c.codes
  | abandoned roomCode playerId, c => c.abandoned roomCode playerId
  | bind _, _ | unbindOwn, _ | seen .., _ | watchNewRoom .., _ | leaveAfterPagehide .., _ => ()

end ConnectionRequest

abbrev ServiceRequest := Request ⊕ ConnectionRequest

abbrev ServiceRequest.Answer : ServiceRequest → Type :=
  Sum.elim Request.Answer ConnectionRequest.Answer

/-- What a request is answered from. -/
structure ServiceSurroundings (rt : Runtime) where
  surroundings : Surroundings rt
  connections : Connections

def ServiceRequest.answer (rt : Runtime) :
    (r : ServiceRequest) → ServiceSurroundings rt → ServiceRequest.Answer r
  | .inl r, s => r.answer rt s.surroundings
  | .inr r, s => r.answer s.connections

/-- A message, or the round on screen, sent to the socket whose event is handled. -/
abbrev ServiceSent := Sent ⊕ WordRoundStartedPayload

/-- A handler, or a part of one. -/
abbrev ServiceHandler := Program ServiceRequest ServiceRequest.Answer ServiceSent JsError

/-- A part of a handler that client events have too. -/
def lift {β : Type} (p : Handler β) : ServiceHandler β := p.lift

/-- Asks about connections, graces or the random source. -/
def askConnection (r : ConnectionRequest) : ServiceHandler r.Answer :=
  Program.ask (.inr r : ServiceRequest)

/-! ### The handler -/

/-- `JoinRoom.execute`. -/
def joinRoom (payload : JsValue) : Handler Room := do
  let roomCode ← .ofExcept (requireRoomCode (payload.field "roomCode"))
  update roomCode (.join (payload.field "playerId") (payload.field "displayName")) roomForm

/-- `GetActiveWordRound.execute`: the round currently on screen. -/
def getActiveWordRound (roomCode : JsString) : Handler (Option (WordRace × WordRound)) := do
  let race ← findRace roomCode
  let reading ← read
  return race.bind fun race =>
    (race.rounds.find? fun round =>
      round.status = .open ∧ (reading.now : Date) < round.closesAt).map
      (race, ·)

/-- A client that (re)joins mid-round gets the word on screen with the time actually left. -/
def resyncWordRound (roomCode : JsString) : ServiceHandler Unit := do
  match ← lift (getActiveWordRound roomCode) with
  | none => pure ()
  | some (race, round) => do
    let reading ← lift read
    .send (.inr (roundStartedPayload race round reading.now))

/-- Joining as someone else or somewhere else first releases the seat bound so far. -/
def leavePreviousBinding (previous : Binding) : ServiceHandler Unit := do
  lift (Program.attempt
    (do
      let _ ← leaveRoom previous.roomCode previous.playerId
      return ())
    fun
    -- Seat already released or room gone: only this socket's channels are left.
    | .domain .. => pure ()
    | error => .throw error)
  askConnection .unbindOwn

/-- The seat that the socket was bound to is released, if it is another one; returns the room that
the player is in then. -/
def switchSeat (server : Server) (payload : JsValue) (room : Room) (previous : Option Binding) :
    ServiceHandler Room :=
  match previous with
  | none => pure room
  | some previous =>
    let sameRoom := server.rt.toUpperCase previous.roomCode = server.rt.toUpperCase room.code
    if sameRoom ∧ previous.playerId = payload.text "playerId" then pure room
    else do
      leavePreviousBinding previous
      -- Same room under a new identity: the departure changed it again.
      if sameRoom then lift (joinRoom payload) else return room

/-- The last lines of `room:join`, after the seat is taken. -/
def bindSeat (server : Server) (playerId : JsString) (room : Room) : ServiceHandler Ack := do
  lift (effect (.cancelGrace room.code playerId))
  askConnection (.seen room.code playerId)
  askConnection (.bind ⟨room.code, playerId⟩)
  lift (publishRoom room)
  if room.status = .battling then resyncWordRound room.code else pure ()
  -- A spectator back after a refresh gets their vote again (privately).
  if room.battle.isSome ∧ playerId ∈ room.spectators.map (·.id) then
    lift (emit .sender
      (.voteMine room.code (RoomService.voteOf server.rt room playerId)))
  else pure ()
  return .room room

def roomJoin (server : Server) (payload : JsValue) : ServiceHandler Ack := do
  let taken ← lift (joinRoom payload)
  -- The new seat is taken first, so a failed join leaves the old binding intact.
  let previous ← askConnection .ownData
  let room ← switchSeat server payload taken previous
  bindSeat server (payload.text "playerId") room

/-- `room:join` arrives, with or without an ack function. -/
def join (server : Server) (payload : JsValue) (ack : Bool) : ServiceHandler Unit :=
  Program.attempt
    (do
      let data ← roomJoin server payload
      if ack then lift (emit .sender (.acked data)) else pure ())
    fun error => lift (emit .sender (.failed error))

end SocketEvents

end DanceSync
