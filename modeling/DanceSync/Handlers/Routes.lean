import DanceSync.Handlers.RoomJoin

/-!
# The routes of battle-service

`src/infrastructure/http/routes.ts` with `CreateRoom.execute`: a room is created or read, and a
player leaves at once or after the short grace of a `pagehide` beacon. Everything that a route
throws goes to `errorHandler`, and so does what the body parsers of Express throw before it.

`CreateRoom` draws codes until one is free; here it gives up after some draws. `JSON.parse` of a
body that is sent as text is a parameter. Leaving is wired, as `src/server.ts` does.

## Main definitions

* `Routes.Response`, `Routes.STATUS_BY_CODE`, `Routes.errorHandler`.
* `Routes.readLeaveRequest`.
* `Routes.Route`, `Routes.respond`.
-/

namespace DanceSync

/-- The number of a value whose `typeof` is `"number"`. -/
def JsValue.number? : JsValue → Option ℚ
  | .number n => some n
  | _ => none

namespace Routes

open SocketEvents

/-! ### Responses -/

inductive Body where
  | none
  | health
  /-- The room as `toRoomDto` prints it. -/
  | room (room : Room)
  | error (message : JsString) (code : Option DomainErrorCode)

structure Response where
  status : ℕ
  body : Body := .none
  location : Option JsString := Option.none

def STATUS_BY_CODE : DomainErrorCode → ℕ
  | .roomNotFound => 404
  | .roomFull => 409
  | .roomNotWaiting => 409
  | .roomNotBattling => 409
  | .battleNotStarted => 409
  | .playerAlreadyInRoom => 409
  | .playerNotInRoom => 403
  | .invalidPlayer => 400
  | .notEnoughPlayers => 409
  | .notEnoughDancers => 409
  | .invalidDancer => 400
  | .playersNotReady => 409
  | .songNotSelected => 409
  | .invalidVoter => 403
  | .battleFinished => 409
  | .roomNotFinished => 409
  | .notHost => 403
  | .invalidMessage => 400
  | .songSelectionInProgress => 409
  | .songSelectionNotActive => 409
  | .notChallengeParticipant => 403
  | .attemptAlreadyUsed => 409
  | .notSongChooser => 403
  | .invalidSong => 400
  | .wordRaceNotActive => 409
  | .wordRoundNotOpen => 409

/-- The 4xx status of a middleware error, or `none`. -/
def clientErrorStatus (error : JsValue) : Option ℕ :=
  if error.isObject then
    let code := (error.field "status").number?.or (error.field "statusCode").number?
    match code.filter fun code => code.isInt && 400 ≤ code && code < 500 with
    | some code => some code.num.toNat
    | none => if (error.field "type").string? = some (js "entity.parse.failed") then some 400
      else none
  else none

/-- What is thrown by the code, or by the middleware before it. -/
inductive Failure where
  | thrown (error : JsError)
  | middleware (error : JsValue)

def errorHandler : Failure → Response
  | .thrown (.domain code message) =>
    { status := STATUS_BY_CODE code, body := .error message (some code) }
  | .thrown _ => { status := 500, body := .error (js "Internal server error") none }
  | .middleware error =>
    match clientErrorStatus error with
    | some status =>
      let isParseError := (error.field "type").string? = some (js "entity.parse.failed")
      { status
        body := .error (if isParseError then js "Malformed JSON body" else js "Invalid request")
          none }
    | none => { status := 500, body := .error (js "Internal server error") none }

/-! ### The handlers -/

/-- Why the client is leaving. -/
inductive LeaveReason where
  | explicit
  | pagehide
  deriving DecidableEq, Repr

/-- The player id and reason of a leave request, from a parsed JSON body or JSON sent as text. -/
def readLeaveRequest (parse : JsString → Option JsValue) (body : JsValue) :
    Except JsError (JsString × LeaveReason) := do
  let parsed ← match body with
    | .string text => match parse text with
      | some value => .ok value
      | none => .error (.domain .invalidMessage
          (js "The body must be JSON: \x7b playerId \x7d"))
    | value => .ok value
  let playerError := JsError.domain .invalidPlayer (js "playerId must be 1-" ++
    JsString.decimal MAX_PLAYER_ID_LENGTH ++ js " characters without surrounding spaces")
  match (parsed.field "playerId").string? with
  | none => .error playerError
  | some playerId => do
    throwIf (playerId.length = 0 ∨ MAX_PLAYER_ID_LENGTH < playerId.length ∨
      playerId.trim ≠ playerId) playerError
    match parsed.field "reason" with
    | .undefined => return (playerId, .explicit)
    | reason =>
      if reason.string? = some (js "explicit") then return (playerId, .explicit)
      else if reason.string? = some (js "pagehide") then return (playerId, .pagehide)
      else .error (.domain .invalidMessage (js "reason must be \"explicit\" or \"pagehide\""))

/-- `CreateRoom.execute`: on the unlikely collision a new code is generated. -/
def createRoom (hostId displayName : JsValue) : ℕ → ServiceHandler Room
  | 0 => .throw .diverges
  | attempts + 1 => do
    let bytes ← askConnection .randomBytes
    let reading ← lift read
    let inserted ← lift (update (generateRoomCode bytes) (.create hostId displayName reading.now)
      fun
      | .room room => some (some room)
      | .codeTaken => some none
      | _ => none)
    match inserted with
    | some room => return room
    | none => createRoom hostId displayName attempts

/-- `POST /api/rooms`. -/
def postRoom (body : JsValue) (attempts : ℕ) : ServiceHandler Response := do
  let room ← createRoom (body.field "hostId") (body.field "displayName") attempts
  askConnection (.watchNewRoom room.code room.hostId)
  return { status := 201, body := .room room, location := some (js "/api/rooms/" ++ room.code) }

/-- `GET /api/rooms/:code`. -/
def getRoom (code : JsString) : ServiceHandler Response := do
  match ← lift (findRoom code) with
  | none => return {
      status := 404
      body := .error (js "Room " ++ code ++ js " does not exist") none }
  | some room => return { status := 200, body := .room room }

/-- `POST /api/rooms/:code/leave`. -/
def postLeave (server : Server) (parse : JsString → Option JsValue) (code : JsString)
    (body : JsValue) : ServiceHandler Response := do
  let required ← .ofExcept (requireRoomCode (.string code))
  let roomCode := server.rt.toUpperCase required
  let (playerId, reason) ← .ofExcept (readLeaveRequest parse body)
  match reason with
  | .explicit => do
    let _ ← lift (leaveRoom roomCode playerId)
    return { status := 204 }
  | .pagehide => do
    -- Answer 404 / 403 now, like an immediate leave, rather than arming a useless timer.
    match ← lift (findRoom roomCode) with
    | none => .throw (.domain .roomNotFound (js "Room " ++ roomCode ++ js " does not exist"))
    | some room =>
      if playerId ∈ room.playerIds then do
        askConnection (.leaveAfterPagehide roomCode playerId)
        return { status := 202 }
      else .throw (.domain .playerNotInRoom
        (js "Player " ++ playerId ++ js " is not in room " ++ roomCode))

inductive Route where
  /-- `GET /api/battles/health`. -/
  | health
  | postRoom
  | getRoom (code : JsString)
  | postLeave (code : JsString)

def Route.handler (server : Server) (parse : JsString → Option JsValue) (attempts : ℕ)
    (body : JsValue) : Route → ServiceHandler Response
  | health => return { status := 200, body := .health }
  | postRoom => Routes.postRoom body attempts
  | getRoom code => Routes.getRoom code
  | postLeave code => Routes.postLeave server parse code body

/-- A request arrives; the middleware parsed its body or threw. -/
def respond (server : Server) (parse : JsString → Option JsValue) (attempts : ℕ)
    (body : Except JsValue JsValue) (route : Route) : ServiceHandler Response :=
  match body with
  | .error error => return errorHandler (.middleware error)
  | .ok body =>
    (route.handler server parse attempts body).attempt fun error =>
      return errorHandler (.thrown error)

end Routes

end DanceSync
