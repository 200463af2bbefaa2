import DanceSync.Config.RoomDates
import DanceSync.Handlers.Bindings
import DanceSync.Handlers.Submissions
import DanceSync.Machine.Program

/-!
# The events of a socket

The handlers of `src/infrastructure/ws/socketHandlers.ts` for every client event but `room:join`, as
programs that call the stores, arm timers and send messages. A payload is any value; every field is
read from it when the code reads it, and `{ ...payload, roomCode }` is built as the code builds it.

A call of a store is one request. Calls that are not awaited come where they are made; each request
is answered in a state of its own, so that any handler may have run in between. Room timers, round
timers, graces and the match record are requests that change no stored data. The word race of a
battle that started is planned by a program of its own, for which its handler does not wait.

## Main definitions

* `SocketEvents.StoreOp`, `SocketEvents.Request`, `SocketEvents.Surroundings`.
* `SocketEvents.Sent`: a message and who gets it.
* `SocketEvents.forks`: what a request leaves running.
* `SocketEvents.asOwnSeat`: what every handler does first.
* `SocketEvents.ClientEvent`, `SocketEvents.handle`.
-/

namespace DanceSync

/-! ### Payloads -/

namespace JsValue

/-- `value?.name`; only an object has a field that a message names. -/
def field (value : JsValue) (name : String) : JsValue :=
  match value with
  | .object fields => (fields.lookup (js name)).getD .undefined
  | _ => .undefined

/-- `{ ...value, roomCode }`. -/
def withRoomCode (value : JsValue) (roomCode : JsString) : JsValue :=
  match value with
  | .object fields => .object ((js "roomCode", .string roomCode) :: fields)
  | _ => .object [(js "roomCode", .string roomCode)]

/-- A field that a use case takes for a text. -/
def text (value : JsValue) (name : String) : JsString := ((value.field name).string?).getD []

/-- `typeof value === "object" && value !== null`. -/
def isObject : JsValue → Bool
  | .object _ | .array _ => true
  | _ => false

end JsValue

namespace SocketEvents

open Bindings (BattleSocket Binding)

/-! ### Messages -/

def MAX_MESSAGE_LENGTH : ℕ := 500

structure ChatMessage where
  id : JsString
  roomCode : JsString
  senderId : JsString
  senderName : JsString
  content : JsString
  sentAt : Instant

structure WebRtcSessionDescription where
  type : JsString
  sdp : JsValue

structure WebRtcSignal where
  roomCode : JsString
  /-- The `from` field. -/
  sender : JsString
  recipient : JsString
  negotiationId : JsString
  description : Option WebRtcSessionDescription
  candidate : Option JsValue

/-- What a handler answers its own client. -/
inductive Ack where
  | room (room : Option Room)
  | word (outcome : SubmitWordOutcome) (winnerId : Option JsString)
  | submitted (room : Room) (outcome : SubmitOutcome)
  | chat (message : ChatMessage)
  | vote (dancerId : Lookup JsString)
  | null

/-- Who gets a message. -/
inductive Audience where
  /-- The socket whose event is handled. -/
  | sender
  | room (roomCode : JsString)
  /-- The room but for the sender. -/
  | others (roomCode : JsString)
  | player (playerId : JsString)
  | socket (socket : ℕ)

/-- A message; those that carry a room are named with the room they are made from. -/
inductive Message where
  | acked (data : Ack)
  /-- Through the ack or as an `error` event; any error but a domain error says
  `INTERNAL_ERROR`. -/
  | failed (error : JsError)
  | roomUpdated (room : Room)
  | battleStarted (room : Room)
  | battleFinished (room : Room)
  | roomKicked (roomCode : JsString)
  | voteMine (roomCode : JsString) (dancerId : Lookup JsString)
  | wordRoundEnded (payload : WordRoundEndedPayload)
  | chatMessage (message : ChatMessage)
  | peerReady (playerId : JsString)
  | signal (signal : WebRtcSignal)

structure Sent where
  audience : Audience
  message : Message

/-! ### The stores -/

/-- A call of a store. -/
inductive StoreOp where
  /-- A use case updates a room. -/
  | update (roomCode : JsString) (op : RoomOp)
  /-- `ChooseSong` with an id that is no text, by what the error prints: no song has it. -/
  | chooseUnlisted (roomCode playerId printed : JsString)
  | findRoom (roomCode : JsString)
  | findRace (roomCode : JsString)
  | saveRace (race : WordRace)
  | deleteRace (roomCode : JsString)
  | claimRound (roomCode roundId playerId : JsString) (now : Instant)

/-- The stored rooms and races; a race is kept under the code of its room in upper case. -/
structure Stores (rt : Runtime) where
  rooms : RoomStore rt
  races : JsString → Option WordRace

/-- Why an id that is no text cannot be chosen. -/
def unlistedError (slot : Option Room) (roomCode playerId printed : JsString) : JsError :=
  match slot with
  | none => .domain .roomNotFound (js "Room " ++ roomCode ++ js " does not exist")
  | some room =>
    match room.songSelection with
    | none => .domain .songSelectionNotActive (js "Nobody is choosing a song right now")
    | some selection =>
      if selection.phase ≠ .choosing then
        .domain .songSelectionNotActive (js "Nobody is choosing a song right now")
      else if selection.chooserId ≠ some playerId then
        .domain .notSongChooser
          (js "Only the player who won the challenge can choose the song")
      else .domain .invalidSong (js "Song " ++ printed ++ js " is not one of the options")

namespace StoreOp

def Answer : StoreOp → Type
  | update .. | chooseUnlisted .. => Except JsError Reply
  | findRoom _ => Option Room
  | findRace _ => Option WordRace
  | saveRace _ | deleteRace _ => Unit
  | claimRound .. => ClaimRoundResult

/-- The answer of a call, and the stores after it. -/
def perform {rt : Runtime} (s : Stores rt) : (op : StoreOp) → op.Answer × Stores rt
  | update roomCode op =>
    ((s.rooms.call roomCode op).2, { s with rooms := (s.rooms.call roomCode op).1 })
  | chooseUnlisted roomCode playerId printed =>
    (.error (unlistedError (s.rooms.room (rt.toUpperCase roomCode)) roomCode playerId printed), s)
  | findRoom roomCode => (s.rooms.room (rt.toUpperCase roomCode), s)
  | findRace roomCode => (s.races (rt.toUpperCase roomCode), s)
  | saveRace race =>
    ((), { s with races := Function.update s.races (rt.toUpperCase race.roomCode) (some race) })
  | deleteRace roomCode =>
    ((), { s with races := Function.update s.races (rt.toUpperCase roomCode) none })
  | claimRound roomCode roundId playerId now =>
    let (stored, result) := InMemoryWordRaceRepository.claimRound rt
      (s.races (rt.toUpperCase roomCode)) roundId playerId now
    (result, { s with races := Function.update s.races (rt.toUpperCase roomCode) stored })

end StoreOp

/-! ### Requests -/

/-- What is armed, cleared or recorded beside the stores. -/
inductive Effect where
  | cancelGrace (roomCode playerId : JsString)
  | armRoomTimers (room : Room)
  | forgetRoomTimers (roomCode : JsString)
  /-- The timers of the word race. -/
  | clearTimers (roomCode : JsString)
  | scheduleRounds (race : WordRace)
  /-- `WordRaceScheduler.start` has read the room, and goes on by itself. -/
  | planRace (roomCode : JsString) (room : Option Room)
  | recordMatch (room : Room)
  /-- The socket loses its binding and its channels. -/
  | unbindSocket (socket : ℕ)

inductive Request where
  | store (op : StoreOp)
  | effect (effect : Effect)
  /-- The clock, the random source and `randomUUID`. -/
  | read
  /-- The players of the sockets in the channel of a room. -/
  | fetchSockets (roomCode : JsString)
  /-- The local sockets that are bound to a seat. -/
  | boundSockets (roomCode playerId : JsString)

structure Reading where
  now : Instant
  random : ℕ → RandomIndex
  uuid : JsString

/-- What a request is answered from. -/
structure Surroundings (rt : Runtime) where
  stores : Stores rt
  reading : Reading
  channel : JsString → List (Option JsString)
  bound : SeatKey → List ℕ

namespace Request

def Answer : Request → Type
  | store op => op.Answer
  | effect _ => Unit
  | read => Reading
  | fetchSockets _ => List (Option JsString)
  | boundSockets .. => List ℕ

def answer (rt : Runtime) : (r : Request) → Surroundings rt → r.Answer
  | store op, s => (op.perform s.stores).1
  | effect _, _ => ()
  | read, s => s.reading
  | fetchSockets roomCode, s => s.channel roomCode
  | boundSockets roomCode playerId, s => s.bound (seatKey rt roomCode playerId)

end Request

/-- A handler, or a part of one. -/
abbrev Handler := Program Request Request.Answer Sent JsError

/-- The engine, the settings, and how a template literal prints a value that is no text. -/
structure Server where
  rt : Runtime
  env : Config.Env
  printed : JsValue → JsString

section Requests

def emit (audience : Audience) (message : Message) : Handler Unit :=
  .send ⟨audience, message⟩

def ask (r : Request) : Handler r.Answer := Program.ask r

def effect (effect : Effect) : Handler Unit := ask (.effect effect)

def read : Handler Reading := ask .read

def fetchSockets (roomCode : JsString) : Handler (List (Option JsString)) :=
  ask (.fetchSockets roomCode)

def boundSockets (roomCode playerId : JsString) : Handler (List ℕ) :=
  ask (.boundSockets roomCode playerId)

def findRoom (roomCode : JsString) : Handler (Option Room) := ask (.store (.findRoom roomCode))

def findRace (roomCode : JsString) : Handler (Option WordRace) := ask (.store (.findRace roomCode))

def saveRace (race : WordRace) : Handler Unit := ask (.store (.saveRace race))

def deleteRace (roomCode : JsString) : Handler Unit := ask (.store (.deleteRace roomCode))

def claimRound (roomCode roundId playerId : JsString) (now : Instant) : Handler ClaimRoundResult :=
  ask (.store (.claimRound roomCode roundId playerId now))

/-- Calls a use case of a room. Its replies have one form; there are no others. -/
def update {β : Type} (roomCode : JsString) (op : RoomOp) (form : Reply → Option β) :
    Handler β := do
  let returned : Except JsError Reply ← ask (.store (.update roomCode op))
  let reply ← .ofExcept returned
  match form reply with
  | some value => return value
  | none => .throw .diverges

end Requests

/-! ### What handlers share -/

/-- The stored room that a use case returns. -/
def roomForm : Reply → Option Room
  | .room room => some room
  | _ => none

/-- Single exit for every `room:updated`. -/
def publishRoom (room : Room) : Handler Unit := do
  emit (.room room.code) (.roomUpdated room)
  effect (.armRoomTimers room)

/-- `StartWordRace.execute` after it read the room. -/
def startWordRace (server : Server) (roomCode : JsString) (found : Option Room) :
    Handler WordRace :=
  match found with
  | none => .throw (.domain .roomNotFound (js "Room " ++ roomCode ++ js " does not exist"))
  | some room => do
    let reading ← read
    let race ← .ofExcept
      (WordRaceService.plan .double server.rt room server.env.planOptions reading.random)
    saveRace race
    return race

namespace WordRaceScheduler

/-- Plans the race of a battle that just started: up to the first `await`, where the room is
read. -/
def start (roomCode : JsString) : Handler Unit := do
  effect (.clearTimers roomCode)
  let found ← findRoom roomCode
  effect (.planRace roomCode found)

/-- The rest of `start`, which schedules every round opening. What it throws is logged. -/
def planned (server : Server) (roomCode : JsString) (found : Option Room) : Handler Unit :=
  Program.attempt
    (do
      let race ← startWordRace server roomCode found
      effect (.scheduleRounds race))
    fun _ => pure ()

/-- Cancels pending rounds and discards the race. -/
def stop (roomCode : JsString) : Handler Unit := do
  effect (.clearTimers roomCode)
  deleteRace roomCode

end WordRaceScheduler

/-- The programs that a request leaves running, for which nobody waits. -/
def forks (server : Server) : Request → List (Handler Unit)
  | .effect (.planRace roomCode found) => [WordRaceScheduler.planned server roomCode found]
  | _ => []

/-- The programs that something in a run leaves running. -/
def forked (server : Server) :
    Program.Entry Request (Surroundings server.rt) Sent → List (Handler Unit)
  | .asked r _ => forks server r
  | .sent _ => []

/-- Single exit for every path that starts a battle. -/
def announceBattleStarted (room : Room) : Handler Unit := do
  emit (.room room.code) (.battleStarted room)
  publishRoom room
  -- A failure planning the word race must not undo the battle.
  WordRaceScheduler.start room.code

/-- Single exit for every path that finishes a battle. -/
def announceBattleFinished (room : Room) : Handler Unit := do
  publishRoom room
  emit (.room room.code) (.battleFinished room)
  effect (.recordMatch room)
  WordRaceScheduler.stop room.code

def emitVoteMine (roomCode voterId : JsString) (dancerId : Lookup JsString) : Handler Unit :=
  emit (.player voterId) (.voteMine roomCode dancerId)

/-- Broadcasts the outcome of a departure. -/
def announceLeave (roomCode : JsString) (left : JoinRoom.LeaveRoomOutput) : Handler Unit :=
  match left.room with
  | none => do
    effect (.forgetRoomTimers roomCode)
    WordRaceScheduler.stop roomCode
  | some room => do
    Program.forEach (fun voterId => emitVoteMine room.code voterId .absent) left.discardedVoterIds
    if left.battleFinished then announceBattleFinished room
    else do
      publishRoom room
      if room.status ≠ .battling then WordRaceScheduler.stop room.code else pure ()

/-- Detaches every local socket bound to the seat. -/
def unbindPlayer (roomCode playerId : JsString) (beforeUnbind : ℕ → Handler Unit) :
    Handler Unit := do
  let sockets ← boundSockets roomCode playerId
  Program.forEach (fun socket => do
    beforeUnbind socket
    effect (.unbindSocket socket)) sockets

/-- Single path for every departure. -/
def leaveRoom (roomCode playerId : JsString) : Handler JoinRoom.LeaveRoomOutput := do
  let reading ← read
  let left ← update roomCode (.leave playerId (reading.random 0) reading.now) fun
    | .left output => some output
    | _ => none
  effect (.cancelGrace roomCode playerId)
  unbindPlayer roomCode playerId fun _ => pure ()
  announceLeave roomCode left
  return left

/-- Ensures the socket joined the room as the player, and returns the code of the joined room. -/
def requireOwnSeat (server : Server) (socket : BattleSocket) (roomCode playerId : JsValue) :
    Except JsError JsString :=
  match Bindings.requireOwnSeat server.rt socket roomCode playerId with
  | some binding => .ok binding.roomCode
  | none => .error (.domain .playerNotInRoom
      (js "The socket has not joined this room as this player"))

/-- What every handler does first: the player that its payload names in the field `identity` must
be the one bound to the socket. -/
def asOwnSeat (server : Server) (socket : BattleSocket) (payload : JsValue) (identity : String)
    (act : JsString → Handler Ack) : Handler Ack := do
  let roomCode ← .ofExcept
    (requireOwnSeat server socket (payload.field "roomCode") (payload.field identity))
  act roomCode

/-- Runs a handler, and reports what it returns or throws to the calling socket. -/
def guard (ack : Bool) (handler : Handler Ack) : Handler Unit :=
  Program.attempt
    (do
      let data ← handler
      if ack then emit .sender (.acked data) else pure ())
    fun error => emit .sender (.failed error)

/-! ### The handlers -/

section Handlers

variable (server : Server) (socket : BattleSocket) (payload : JsValue)

def roleSelect : Handler Ack :=
  asOwnSeat server socket payload "playerId" fun roomCode => do
    let input := payload.withRoomCode roomCode
    let room ← update (input.text "roomCode")
      (.selectRole (input.text "playerId") (input.field "role")) roomForm
    publishRoom room
    return .room room

def playerReady : Handler Ack :=
  asOwnSeat server socket payload "playerId" fun roomCode => do
    let input := payload.withRoomCode roomCode
    let room ← update (input.text "roomCode")
      (.setReady (input.text "playerId") (input.field "ready")) roomForm
    publishRoom room
    return .room room

def roomLeave : Handler Ack :=
  asOwnSeat server socket payload "playerId" fun roomCode => do
    let left ← leaveRoom roomCode (payload.text "playerId")
    return .room left.room

def playerKick : Handler Ack :=
  asOwnSeat server socket payload "requesterId" fun roomCode => do
    let input := payload.withRoomCode roomCode
    let reading ← read
    let room ← update (input.text "roomCode")
      (.kick (input.text "requesterId") (input.field "playerId") (reading.random 0) reading.now)
      roomForm
    let kickedId := payload.text "playerId"
    effect (.cancelGrace room.code kickedId)
    -- Tell every tab of the kicked player, then cut them off the room.
    unbindPlayer room.code kickedId fun kicked => emit (.socket kicked) (.roomKicked room.code)
    publishRoom room
    return .room room

def battleStart : Handler Ack :=
  asOwnSeat server socket payload "requesterId" fun roomCode => do
    let input := payload.withRoomCode roomCode
    let reading ← read
    let room ← update (input.text "roomCode")
      (.startBattle (input.text "requesterId") (input.field "dancerIds")
        (server.env.battleOptions reading.now reading.uuid)) roomForm
    announceBattleStarted room
    return .room room

/-- `SubmitWord.execute`. -/
def submitWord (input : SubmitWordInput) : Handler SubmitWordOutput :=
  match input.text.string?, input.roundId.string? with
  | some text, some roundId => do
    match ← findRace input.roomCode with
    | none => .throw (SubmitWord.notActive input.roomCode)
    | some race =>
      match race.round? roundId with
      | none => .throw (.domain .wordRoundNotOpen
          (js "Round " ++ roundId ++ js " does not exist"))
      | some round =>
        let reading ← read
        let now := reading.now
        let verdict ← .ofExcept
          (WordRaceService.judge server.rt round race.participantIds input.playerId text now)
        match verdict with
        | .incorrect => return ⟨.incorrect, round, race⟩
        | .expired => return ⟨.expired, round, race⟩
        | .correct =>
          -- The read above may already be stale: only the atomic claim decides the winner.
          match ← claimRound input.roomCode roundId input.playerId now with
          | .claimed won => do
            let updated ← findRace input.roomCode
            return ⟨.won, won, updated.getD race⟩
          | .refused none => .throw (SubmitWord.notActive input.roomCode)
          | .refused (some round) =>
            let expiredMeanwhile :=
              round.status = .expired ∨ (round.winnerId = none ∧ round.closesAt ≤ now)
            return ⟨if expiredMeanwhile then .expired else .late, round, race⟩
  | _, _ => .throw (.domain .invalidMessage
      (js "The typed word and the round id must be text"))

/-- Pays the word round bonus to the winner; `none` when it is not paid. -/
def awardWordBonus (roomCode playerId : JsString) : Handler (Option Room) :=
  Program.attempt
    (do
      let room ← update roomCode (.awardWordBonus playerId) roomForm
      return some room)
    fun _ => pure none

def wordSubmit : Handler Ack :=
  asOwnSeat server socket payload "playerId" fun roomCode => do
    let input := payload.withRoomCode roomCode
    let result ← submitWord server
      { roomCode := input.text "roomCode", playerId := input.text "playerId"
        roundId := input.field "roundId", text := input.field "text" }
    -- Only the submission whose atomic claim succeeded announces the winner.
    if result.outcome = .won then do
      let bonus ← awardWordBonus roomCode (payload.text "playerId")
      let points := ((bonus.bind (·.battle)).map (·.scoring.wordBonusPoints)).getD 0
      emit (.room roomCode)
        (.wordRoundEnded (roundEndedPayload server.rt result.race result.round points))
      match bonus with
      | some room => publishRoom room
      | none => pure ()
      return .word result.outcome result.round.winnerId
    else return .word result.outcome result.round.winnerId

def songChallengeStart : Handler Ack :=
  asOwnSeat server socket payload "requesterId" fun roomCode => do
    let input := payload.withRoomCode roomCode
    let reading ← read
    let room ← update (input.text "roomCode")
      (.startChallenge (input.text "requesterId")
        (server.env.challengeOptions reading.now reading.uuid (reading.random 0))) roomForm
    publishRoom room
    return .room room

def songChallengeSubmit : Handler Ack :=
  asOwnSeat server socket payload "playerId" fun roomCode => do
    let input := payload.withRoomCode roomCode
    let reading ← read
    let (room, outcome) ← update (input.text "roomCode")
      (.submitPhrase (input.text "playerId") (input.field "text") reading.now (reading.random 0))
      fun
      | .submitted room outcome => some (room, outcome)
      | _ => none
    publishRoom room
    return .submitted room outcome

/-- `ChooseSong.execute`. -/
def chooseSong (roomCode playerId : JsString) (songId : JsValue) : Handler (Room × Bool) :=
  match songId.string? with
  | some songId => do
    let reading ← read
    update roomCode
      (.chooseSong playerId songId (server.env.battleOptions reading.now reading.uuid)) fun
      | .chosen room battleStarted => some (room, battleStarted)
      | _ => none
  | none => do
    let returned : Except JsError Reply ←
      ask (.store (.chooseUnlisted roomCode playerId (server.printed songId)))
    match returned with
    | .error error => .throw error
    | .ok _ => .throw .diverges

def songChoose : Handler Ack :=
  asOwnSeat server socket payload "playerId" fun roomCode => do
    let input := payload.withRoomCode roomCode
    let (room, battleStarted) ← chooseSong server (input.text "roomCode") (input.text "playerId")
      (input.field "songId")
    if battleStarted then announceBattleStarted room else publishRoom room
    return .room room

/-- `SendChatMessage.execute`. -/
def sendChatMessage (roomCode senderId : JsString) (content : JsValue) : Handler ChatMessage := do
  match ← findRoom roomCode with
  | none => .throw (.domain .roomNotFound (js "Room " ++ roomCode ++ js " does not exist"))
  | some room =>
    match RoomService.playerOf room senderId with
    | none => .throw (.domain .playerNotInRoom
        (js "Player " ++ senderId ++ js " is not in room " ++ room.code))
    | some sender =>
      match content.string? with
      | none => .throw (.domain .invalidMessage (js "The message must be text"))
      | some content =>
        let content := content.trim
        if content.length = 0 ∨ MAX_MESSAGE_LENGTH < content.length then
          .throw (.domain .invalidMessage (js "Message must be between 1 and " ++
            JsString.decimal MAX_MESSAGE_LENGTH ++ js " characters"))
        else do
          let reading ← read
          return {
            id := reading.uuid
            roomCode := room.code
            senderId := sender.id
            senderName := sender.displayName
            content
            sentAt := reading.now }

def chatMessage : Handler Ack :=
  asOwnSeat server socket payload "senderId" fun roomCode => do
    let input := payload.withRoomCode roomCode
    let message ← sendChatMessage (input.text "roomCode") (input.text "senderId")
      (input.field "content")
    emit (.room message.roomCode) (.chatMessage message)
    return .chat message

def voteCast : Handler Ack :=
  asOwnSeat server socket payload "voterId" fun roomCode => do
    let reading ← read
    let result ← update roomCode
      (.castVote (payload.text "voterId") (payload.field "dancerId") reading.now) fun
      | .voted output => some output
      | _ => none
    -- Everyone gets the new totals; only the voter's own tabs learn the choice.
    if result.changed then publishRoom result.room else pure ()
    emitVoteMine result.room.code (payload.text "voterId") result.dancerId
    return .vote result.dancerId

def roomRematch : Handler Ack :=
  asOwnSeat server socket payload "requesterId" fun roomCode => do
    let (room, clearedVoterIds) ← update roomCode (.rematch (payload.text "requesterId")) fun
      | .rematched room clearedVoterIds => some (room, clearedVoterIds)
      | _ => none
    -- Back in the lobby: no word race, and `publishRoom` clears every battle deadline.
    WordRaceScheduler.stop room.code
    publishRoom room
    Program.forEach (fun voterId => emitVoteMine room.code voterId .absent) clearedVoterIds
    return .room room

def webrtcReady : Handler Ack :=
  asOwnSeat server socket payload "playerId" fun roomCode => do
    emit (.others roomCode) (.peerReady (payload.text "playerId"))
    return .null

/-- Validates the relay-relevant fields and rebuilds the payload with only the known keys. -/
def requireValidSignal : Except JsError WebRtcSignal :=
  let invalidSignal := JsError.domain .invalidMessage (js "Invalid WebRTC signaling message")
  let description := payload.field "description"
  let candidate := payload.field "candidate"
  match (payload.field "to").string?, (payload.field "negotiationId").string? with
  | some recipient, some negotiationId => do
    throwIf (recipient = [] ∨ (payload.field "from").string? = some recipient ∨
      negotiationId = [] ∨ description.isObject = candidate.isObject) invalidSignal
    let description ← if description.isObject then
        match (description.field "type").string? with
        | some type => .ok (some ⟨type, description.field "sdp"⟩)
        | none => .error invalidSignal
      else .ok none
    return {
      roomCode := payload.text "roomCode"
      sender := payload.text "from"
      recipient, negotiationId, description
      candidate := if candidate.isObject then some candidate else none }
  | _, _ => .error invalidSignal

def webrtcSignal : Handler Ack :=
  asOwnSeat server socket payload "from" fun roomCode => do
    let signal ← .ofExcept (requireValidSignal payload)
    let roomSockets ← fetchSockets roomCode
    if some signal.recipient ∈ roomSockets then do
      emit (.player signal.recipient) (.signal signal)
      return .null
    else .throw (.domain .playerNotInRoom (js "Player " ++ signal.recipient ++
      js " is not connected to room " ++ roomCode))

end Handlers

/-- The client events but for `room:join`. -/
inductive ClientEvent where
  | roleSelect
  | playerReady
  | roomLeave
  | playerKick
  | battleStart
  | wordSubmit
  | songChallengeStart
  | songChallengeSubmit
  | songChoose
  | chatMessage
  | voteCast
  | roomRematch
  | webrtcReady
  | webrtcSignal
  deriving DecidableEq, Repr

/-- The handler of an event. -/
def ClientEvent.handler (server : Server) (socket : BattleSocket) (payload : JsValue) :
    ClientEvent → Handler Ack
  | roleSelect => SocketEvents.roleSelect server socket payload
  | playerReady => SocketEvents.playerReady server socket payload
  | roomLeave => SocketEvents.roomLeave server socket payload
  | playerKick => SocketEvents.playerKick server socket payload
  | battleStart => SocketEvents.battleStart server socket payload
  | wordSubmit => SocketEvents.wordSubmit server socket payload
  | songChallengeStart => SocketEvents.songChallengeStart server socket payload
  | songChallengeSubmit => SocketEvents.songChallengeSubmit server socket payload
  | songChoose => SocketEvents.songChoose server socket payload
  | chatMessage => SocketEvents.chatMessage server socket payload
  | voteCast => SocketEvents.voteCast server socket payload
  | roomRematch => SocketEvents.roomRematch server socket payload
  | webrtcReady => SocketEvents.webrtcReady server socket payload
  | webrtcSignal => SocketEvents.webrtcSignal server socket payload

/-- A client event arrives, with or without an ack function. -/
def handle (server : Server) (socket : BattleSocket) (event : ClientEvent) (payload : JsValue)
    (ack : Bool) : Handler Unit :=
  guard ack (event.handler server socket payload)

end SocketEvents

end DanceSync
