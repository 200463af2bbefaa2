import DanceSync.Domain.Scoring
import DanceSync.Domain.SongSelection

/-!
# The rules of a room

`src/domain/services/RoomService.ts`: joining and leaving, roles and readiness, starting,
voting, finishing and replaying a battle.

A function that may return the very room it received returns `none` for it: callers tell the two
cases apart by identity.

## Main definitions

* `validatePlayer`, `uniqueDisplayName`, `requireRoomCode`.
* `RoomService.create`, `RoomService.join`, `RoomService.selectRole`, `RoomService.setReady`,
  `RoomService.leave`, `RoomService.kick`, `RoomService.startBattle`,
  `RoomService.awardWordBonus`, `RoomService.castVote`, `RoomService.finishBattle`,
  `RoomService.finishAtDeadline`, `RoomService.rematch`.

## Main results

One lemma for each function says what it does when it does not throw: `RoomService.create_eq_ok`,
`RoomService.join_eq_ok`, …, `RoomService.rematch_eq_ok`. A departure is split by what it does to
the battle in `RoomService.Settled`, and by what it does to the song selection in
`SongSelectionService.Passed`.
-/

namespace DanceSync

/-! ### Names and codes -/

def ROOM_CODE_ALPHABET : JsString := js "ABCDEFGHJKLMNPQRSTUVWXYZ23456789"

def ROOM_CODE_LENGTH : ℕ := 6

/-- The code that the random bytes make. -/
def generateRoomCode (bytes : List.Vector UInt8 ROOM_CODE_LENGTH) : JsString :=
  bytes.toList.map fun byte => ROOM_CODE_ALPHABET.getD (byte.toNat % ROOM_CODE_ALPHABET.length) 0

/-- Validates an identity sent by a client: the id is compared verbatim later and is refused
rather than trimmed, the display name is trimmed. -/
def validatePlayer (id displayName : JsValue) : Except JsError Identity :=
  let idError := JsError.domain .invalidPlayer (js "The player id must be 1-" ++
    JsString.decimal MAX_PLAYER_ID_LENGTH ++ js " characters without surrounding spaces")
  match id.string? with
  | none => .error idError
  | some id => do
    throwIf (id.length = 0 ∨ MAX_PLAYER_ID_LENGTH < id.length ∨ id.trim ≠ id) idError
    let name := (displayName.string?.map JsString.trim).getD []
    throwIf (name.length = 0 ∨ MAX_DISPLAY_NAME_LENGTH < name.length)
      (.domain .invalidPlayer (js "The display name must be 1-" ++
        JsString.decimal MAX_DISPLAY_NAME_LENGTH ++ js " characters"))
    return { id, displayName := name }

/-- The name with suffix `n`, shortened to fit. -/
def suffixedName (displayName : JsString) (n : ℕ) : JsString :=
  let suffix := js " " ++ JsString.decimal n
  JsString.trimEnd (displayName.take (MAX_DISPLAY_NAME_LENGTH - suffix.length)) ++ suffix

/-- The display name, or its first suffixed form, that no player uses, ignoring case. The players
take at most as many names as they are, so the search for a suffix ends among as many and one
more candidates with different lower case forms; an engine where it does not hangs. -/
def uniqueDisplayName (rt : Runtime) (players : List Player) (displayName : JsString) :
    Except JsError JsString :=
  let taken := players.map fun p => rt.toLocaleLowerCase p.displayName
  if rt.toLocaleLowerCase displayName ∉ taken then .ok displayName
  else
    let candidates := (List.range' 2 (players.length + 1)).map (suffixedName displayName)
    match candidates.find? (fun candidate => rt.toLocaleLowerCase candidate ∉ taken) with
    | some candidate => .ok candidate
    | none => .error .diverges

/-- A room code sent by a client, trimmed. -/
def requireRoomCode (code : JsValue) : Except JsError JsString :=
  let required := JsError.domain .roomNotFound (js "A room code is required")
  match code.string? with
  | some code => if code.trim.length = 0 then .error required else .ok code.trim
  | none => .error required

/-- The roles a player may choose. -/
def PLAYABLE_ROLES : List (JsString × PlayerRole) :=
  [(js "dancer", .dancer), (js "spectator", .spectator)]

/-- `StartBattleOptions`, with the id that `randomUUID` draws. -/
structure StartBattleOptions where
  now : Instant
  /-- Delay between the start command and `startedAt`, in milliseconds. -/
  countdownMs : ℚ := 0
  /-- Song length assumed when the battle has no song, in milliseconds. -/
  fallbackDurationMs : ℚ := 90000
  scoring : ScoringPoints := DEFAULT_SCORING
  battleId : JsString

namespace RoomService

/-! ### The lobby -/

/-- A room with its host alone in the lobby. -/
def newRoom (hostPlayer : Player) (code : JsString) (now : Instant) : Room where
  code
  hostId := hostPlayer.id
  players := [hostPlayer]
  dancers := none
  spectators := []
  status := .waiting
  battle := none
  songSelection := none
  selectedSong := none
  lastResult := none
  createdAt := now
  version := 0

def create (host : Identity) (code : JsString) (now : Instant) : Except JsError Room := do
  let valid ← validatePlayer (.string host.id) (.string host.displayName)
  return newRoom { valid with role := .undecided, ready := false } code now

def join (rt : Runtime) (room : Room) (player : Identity) : Except JsError Room := do
  throwIf (room.status ≠ .waiting)
    (.domain .roomNotWaiting (js "Room " ++ room.code ++ js " is not accepting players"))
  throwIf (player.id ∈ room.playerIds) (.domain .playerAlreadyInRoom
    (js "Player " ++ player.id ++ js " is already in room " ++ room.code))
  throwIf (MAX_PLAYERS ≤ room.players.length) (.domain .roomFull
    (js "Room " ++ room.code ++ js " already has " ++ JsString.decimal MAX_PLAYERS ++
      js " players"))
  let valid ← validatePlayer (.string player.id) (.string player.displayName)
  let displayName ← uniqueDisplayName rt room.players valid.displayName
  let joined : Player := { valid with displayName, role := .undecided, ready := false }
  return { room with players := room.players ++ [joined] }

/-- The room after changing one player in the lobby. -/
def withPlayer (room : Room) (playerId : JsString) (change : Player → Player) : Room :=
  let players := room.players.map fun p => if p.id = playerId then change p else p
  { room with players, spectators := Room.withRole .spectator players }

/-- Sets a player's chosen role while the room is still in the lobby. -/
def selectRole (room : Room) (playerId : JsString) (role : JsValue) : Except JsError Room :=
  match role.string?.bind fun name => PLAYABLE_ROLES.lookup name with
  | none => .error (.domain .invalidMessage (js "The role must be \"dancer\" or \"spectator\""))
  | some role => do
    throwIf (room.status ≠ .waiting)
      (.domain .roomNotWaiting (js "Room " ++ room.code ++ js " is not accepting role changes"))
    throwIf (playerId ∉ room.playerIds)
      (.domain .playerNotInRoom (js "Player " ++ playerId ++ js " is not in room " ++ room.code))
    return withPlayer room playerId fun p => { p with role }

/-- Marks a player as ready, or not ready, to dance. -/
def setReady (room : Room) (playerId : JsString) (ready : JsValue) : Except JsError Room :=
  match ready.boolean? with
  | none => .error (.domain .invalidMessage (js "ready must be true or false"))
  | some ready => do
    throwIf (room.status ≠ .waiting)
      (.domain .roomNotWaiting (js "Room " ++ room.code ++ js " is not accepting ready changes"))
    throwIf (playerId ∉ room.playerIds)
      (.domain .playerNotInRoom (js "Player " ++ playerId ++ js " is not in room " ++ room.code))
    return withPlayer room playerId fun p => { p with ready }

/-! ### The end of a battle -/

/-- A closed battle. -/
def closed (rt : Runtime) (battle : Battle) (reason : BattleEndReason) (now : Instant) : Battle :=
  { battle with
    finishedAt := some now
    endReason := some reason
    result := some (ScoringService.result rt battle) }

/-- The room after its battle is closed. -/
def finished (rt : Runtime) (room : Room) (battle : Battle) (reason : BattleEndReason)
    (now : Instant) : Room :=
  { room with
    status := .finished
    battle := some (closed rt battle reason now)
    lastResult := some (ScoringService.result rt battle) }

/-- Closes the battle: votes freeze and the result is computed over the dancers still in it. -/
def finishBattle (rt : Runtime) (room : Room) (reason : BattleEndReason) (now : Instant) :
    Except JsError Room :=
  match room.status, room.battle with
  | .battling, some battle => .ok (finished rt room battle reason now)
  | _, _ => .error (.domain .roomNotBattling
      (js "Room " ++ room.code ++ js " has no battle in progress"))

/-- Finishes a battle still running once the song clip ended; `none` is the very same room. -/
def finishAtDeadline (rt : Runtime) (room : Room) (now : Instant) : Except JsError (Option Room) :=
  match room.status, room.battle with
  | .battling, some battle =>
    if now < battle.endsAt then .ok none else some <$> finishBattle rt room .songEnd now
  | _, _ => .ok none

/-- The battle without a departed player: their own vote and the votes for them are discarded. -/
def withoutPlayer (battle : Battle) (playerId : JsString) : Battle :=
  { battle with
    dancerIds := battle.dancerIds.filter (· ≠ playerId)
    votes := battle.votes.filter fun voterId dancerId => voterId ≠ playerId ∧ dancerId ≠ playerId }

/-- Applies a departure, already made in the lists of players, to a running battle. -/
def settleBattleAfterLeave (rt : Runtime) (room : Room) (playerId : JsString) (now : Instant) :
    Except JsError Room :=
  match room.status, room.battle with
  | .battling, some battle =>
    let remaining := withoutPlayer battle playerId
    let continuing := { room with battle := some remaining }
    -- Not enough dancers left to keep competing: the battle ends early.
    if remaining.dancerIds.length < MIN_DANCERS_PER_BATTLE then
      finishBattle rt continuing .notEnoughDancers now
    else .ok continuing
  | _, _ => .ok room

/-! ### Departures -/

/-- The room without a player, their battle and song selection not settled yet. -/
def unseat (room : Room) (playerId : JsString) : Room :=
  let players := room.players.filter (·.id ≠ playerId)
  { room with
    players
    dancers := room.dancers.map fun dancers => dancers.filter (·.id ≠ playerId)
    spectators := room.spectators.filter (·.id ≠ playerId)
    hostId := if room.hostId = playerId then (players.head?.map (·.id)).getD room.hostId
      else room.hostId }

/-- Removes a player. -/
def leave (rt : Runtime) (room : Room) (playerId : JsString) (random : RandomIndex)
    (now : Instant) : Except JsError Room := do
  throwIf (playerId ∉ room.playerIds)
    (.domain .playerNotInRoom (js "Player " ++ playerId ++ js " is not in room " ++ room.code))
  let settled ← settleBattleAfterLeave rt (unseat room playerId) playerId now
  SongSelectionService.handlePlayerLeft settled playerId random now

/-- The host removes another player from the lobby. -/
def kick (rt : Runtime) (room : Room) (requesterId : JsString) (playerId : JsValue)
    (random : RandomIndex) (now : Instant) : Except JsError Room := do
  throwIf (room.hostId ≠ requesterId) (.domain .notHost (js "Only the host can remove players"))
  throwIf (room.status ≠ .waiting) (.domain .roomNotWaiting
    (js "Players can only be removed from room " ++ room.code ++ js " in the lobby"))
  let invalid := JsError.domain .invalidPlayer (js "Choose another player of the room to remove")
  match playerId.string? with
  | none => .error invalid
  | some playerId =>
    throwIf (playerId = requesterId) invalid
    throwIf (playerId ∉ room.playerIds)
      (.domain .playerNotInRoom (js "Player " ++ playerId ++ js " is not in room " ++ room.code))
    leave rt room playerId random now

/-! ### The start of a battle -/

/-- Refuses a time that is not 0 ms or more. -/
def requireNonnegative (rt : Runtime) (name : JsString) (value : ℚ) : Except JsError Unit :=
  throwIf (value < 0)
    (.range (js "The " ++ name ++ js " must be 0 ms or more, received " ++ rt.numberText value))

/-- Refuses points that are not a whole number of 0 or more. -/
def requireWhole (rt : Runtime) (name : JsString) (value : ℚ) : Except JsError Unit :=
  throwIf (¬value.isInt ∨ value < 0)
    (.range (name ++ js " must be a whole number of 0 or more, received " ++ rt.numberText value))

/-- The ids of the dancers: those given, or everyone who chose to dance. -/
def selectedIds (room : Room) (dancerIds : JsValue) : Except JsError (List JsString) :=
  if dancerIds.isNullish then .ok room.dancerRoleIds
  else match dancerIds.strings? with
    | some ids => .ok ids
    | none => .error (.domain .invalidDancer (js "dancerIds must be a list of player ids"))

/-- The first player with an id. -/
def playerOf (room : Room) (id : JsString) : Option Player := room.players.find? (·.id = id)

/-- The room whose battle starts with these dancers and this song. -/
def battling (room : Room) (selected : List Player) (song : Song) (options : StartBattleOptions) :
    Room :=
  let dancers := selected.map fun p => { p with role := .dancer }
  -- Anyone who is not dancing becomes a spectator.
  let players := room.players.map fun p =>
    if p.id ∈ dancers.map (·.id) then { p with role := .dancer }
    else { p with role := .spectator }
  let spectators := Room.withRole .spectator players
  let startedAt := Binary64.round (options.now + options.countdownMs)
  { room with
    players
    dancers := some dancers
    spectators
    status := .battling
    battle := some
      { id := options.battleId
        roomCode := room.code
        dancerIds := dancers.map (·.id)
        roster := dancers.map (·.toIdentity)
        audience := spectators.map (·.toIdentity)
        song := some song
        votes := .empty
        wordsWon := .ofEntries (dancers.map fun d => (d.id, Tally.number 0))
        scoring := options.scoring
        startedAt := Numerics.double.date startedAt
        -- The battle lasts exactly the song clip; votes count until then.
        endsAt := Numerics.double.date
          (Binary64.round (startedAt + Binary64.round (song.durationSeconds * 1000)))
        finishedAt := none
        endReason := none
        result := none } }

/-- Starts a battle with whoever chose to dance, unless explicit ids are given. -/
def startBattle (rt : Runtime) (room : Room) (dancerIds : JsValue) (options : StartBattleOptions) :
    Except JsError Room := do
  requireNonnegative rt (js "start countdown") options.countdownMs
  requireNonnegative rt (js "fallback song length") options.fallbackDurationMs
  requireWhole rt (js "votePoints") options.scoring.votePoints
  requireWhole rt (js "wordBonusPoints") options.scoring.wordBonusPoints
  throwIf (room.status ≠ .waiting)
    (.domain .roomNotWaiting (js "Room " ++ room.code ++ js " already started"))
  throwIf (isSelectionInProgress room)
    (.domain .songSelectionInProgress (js "Wait until the song has been chosen"))
  let ids ← selectedIds room dancerIds
  throwIf (¬ids.Nodup) (.domain .invalidDancer (js "Dancer ids must be unique"))
  throwIf (ids.length < MIN_DANCERS_PER_BATTLE)
    (.domain .notEnoughDancers (js "At least " ++ JsString.decimal MIN_DANCERS_PER_BATTLE ++
      js " dancers are required to start"))
  match ids.mapM (playerOf room) with
  | none => .error (.domain .invalidDancer (js "Selected dancers must be players in the room"))
  | some selected =>
    requireEveryoneReady room
    match room.selectedSong with
    | none => .error (.domain .songNotSelected (js "Choose the song before starting the battle"))
    -- With a song the fallback length is not used.
    | some song => return battling room selected song options

/-! ### During a battle -/

/-- The room with one more word round won by a dancer. -/
def awarded (rt : Runtime) (room : Room) (battle : Battle) (playerId : JsString) : Room :=
  let current := battle.wordsWon.get rt.proto playerId
  { room with
    battle := some { battle with
      wordsWon := battle.wordsWon.define playerId (Tally.succOf current) } }

/-- Counts a word round won by a dancer of the battle in progress. -/
def awardWordBonus (rt : Runtime) (room : Room) (playerId : JsString) : Except JsError Room :=
  match room.status, room.battle with
  | .battling, some battle => do
    throwIf (playerId ∉ battle.dancerIds) (.domain .invalidDancer
      (js "Player " ++ playerId ++ js " is not dancing in this battle"))
    return awarded rt room battle playerId
  | _, _ => .error (.domain .roomNotBattling
      (js "Room " ++ room.code ++ js " has no battle in progress"))

/-- The votes after `voterId` casts or moves their vote, or withdraws it. -/
def votesAfter (rt : Runtime) (votes : Record JsString JsString) (voterId : JsString) :
    Option JsString → Record JsString JsString
  | none => votes.erase voterId
  | some dancerId => votes.assign rt.proto voterId dancerId

/-- The dancer a client votes for; `some none` withdraws the vote. -/
def wantedDancer : JsValue → Option (Option JsString)
  | .null => some none
  | .string dancerId => some (some dancerId)
  | _ => none

/-- Whether `battle.votes[voterId] ?? null` is the wanted vote. -/
def isCurrentVote : Lookup JsString → Option JsString → Bool
  | .absent, wanted => wanted = none
  | .own dancerId, wanted => wanted = some dancerId
  | .inherited, _ => false

/-- The room after an accepted vote. -/
def voted (rt : Runtime) (room : Room) (battle : Battle) (voterId : JsString)
    (wanted : Option JsString) : Room :=
  { room with
    battle := some { battle with votes := votesAfter rt battle.votes voterId wanted } }

/-- A spectator casts, moves or withdraws their vote; `none` is the very same room. -/
def castVote (rt : Runtime) (room : Room) (voterId : JsString) (dancerId : JsValue)
    (now : Instant) : Except JsError (Option Room) :=
  match room.status, room.battle with
  | .finished, some _ =>
    .error (.domain .battleFinished (js "The battle is over; votes are closed"))
  | .battling, some battle => do
    throwIf (voterId ∉ room.spectators.map (·.id))
      (.domain .invalidVoter (js "Only the spectators of the battle can vote"))
    throwIf (now < battle.startedAt) (.domain .battleNotStarted
      (js "The battle has not started yet; vote once the dancing begins"))
    throwIf (battle.endsAt ≤ now)
      (.domain .battleFinished (js "The song is over; votes are closed"))
    match wantedDancer dancerId with
    | none => .error (.domain .invalidMessage
        (js "dancerId must be a dancer id, or null to withdraw the vote"))
    | some wanted =>
      throwIf (∃ id ∈ wanted, id ∉ battle.dancerIds) (.domain .invalidDancer
        (js "Player " ++ wanted.getD [] ++ js " is not dancing in this battle"))
      if isCurrentVote (battle.votes.get rt.proto voterId) wanted then return none
      else return some (voted rt room battle voterId wanted)
  | _, _ => .error (.domain .roomNotBattling
      (js "Room " ++ room.code ++ js " has no battle in progress"))

/-- The spectator's current vote in the room's battle. -/
def voteOf (rt : Runtime) (room : Room) (voterId : JsString) : Lookup JsString :=
  match room.battle with
  | some battle => battle.votes.get rt.proto voterId
  | none => .absent

/-- The room back in the lobby: roles are kept, everyone's ready flag resets. -/
def rematched (room : Room) : Room :=
  let players := room.players.map fun p => { p with ready := false }
  { room with
    players
    dancers := none
    spectators := Room.withRole .spectator players
    status := .waiting
    battle := none
    songSelection := none
    selectedSong := none
    lastResult := (room.battle.bind (·.result)).or room.lastResult }

/-- The host takes a finished room back to the lobby for another battle with the same players. -/
def rematch (room : Room) (requesterId : JsString) : Except JsError Room := do
  throwIf (room.hostId ≠ requesterId) (.domain .notHost (js "Only the host can start a rematch"))
  throwIf (room.status ≠ .finished) (.domain .roomNotFinished
    (js "Room " ++ room.code ++ js " has no finished battle to replay"))
  return rematched room

/-! ### What each operation does -/

variable {rt : Runtime} {room next : Room} {playerId requesterId : JsString} {random : RandomIndex}
  {now : Instant}

theorem validatePlayer_eq_ok {id displayName : JsValue} {identity : Identity}
    (h : validatePlayer id displayName = .ok identity) : id = .string identity.id := by
  unfold validatePlayer at h
  cases id with
  | string id =>
    simp only [JsValue.string?, bind_eq_ok, throwIf_eq_ok, pure_eq_ok] at h
    obtain ⟨-, -, -, -, rfl⟩ := h
    rfl
  | _ => simp [JsValue.string?] at h

theorem create_eq_ok {host : Identity} {code : JsString} (h : create host code now = .ok next) :
    ∃ p : Player, p.id = host.id ∧ p.role = .undecided ∧ p.ready = false ∧
      next = newRoom p code now := by
  simp only [create, bind_eq_ok, pure_eq_ok] at h
  obtain ⟨valid, hvalid, rfl⟩ := h
  exact ⟨_, (JsValue.string.inj (validatePlayer_eq_ok hvalid)).symm, rfl, rfl, rfl⟩

theorem join_eq_ok {player : Identity} (h : join rt room player = .ok next) :
    room.status = .waiting ∧ player.id ∉ room.playerIds ∧ room.players.length < MAX_PLAYERS ∧
      ∃ p : Player, p.id = player.id ∧ p.role = .undecided ∧ p.ready = false ∧
        next = { room with players := room.players ++ [p] } := by
  simp only [join, bind_eq_ok, throwIf_eq_ok, exists_const, pure_eq_ok, not_not, not_le] at h
  obtain ⟨hstatus, hnew, hspace, valid, hvalid, name, -, rfl⟩ := h
  exact ⟨hstatus, hnew, hspace, _, (JsValue.string.inj (validatePlayer_eq_ok hvalid)).symm, rfl,
    rfl, rfl⟩

theorem selectRole_eq_ok {role : JsValue} (h : selectRole room playerId role = .ok next) :
    room.status = .waiting ∧ playerId ∈ room.playerIds ∧ ∃ chosen : PlayerRole,
      next = withPlayer room playerId fun p => { p with role := chosen } := by
  unfold selectRole at h
  split at h
  next => simp at h
  next chosen hchosen =>
    simp only [bind_eq_ok, throwIf_eq_ok, exists_const, pure_eq_ok, not_not] at h
    exact ⟨h.1, h.2.1, chosen, h.2.2.symm⟩

theorem setReady_eq_ok {ready : JsValue} (h : setReady room playerId ready = .ok next) :
    room.status = .waiting ∧ playerId ∈ room.playerIds ∧ ∃ flag : Bool,
      next = withPlayer room playerId fun p => { p with ready := flag } := by
  unfold setReady at h
  split at h
  next => simp at h
  next flag hflag =>
    simp only [bind_eq_ok, throwIf_eq_ok, exists_const, pure_eq_ok, not_not] at h
    exact ⟨h.1, h.2.1, flag, h.2.2.symm⟩

theorem finishBattle_eq_ok {reason : BattleEndReason} :
    finishBattle rt room reason now = .ok next ↔ ∃ battle, room.status = .battling ∧
      room.battle = some battle ∧ next = finished rt room battle reason now := by
  unfold finishBattle
  split
  next battle hstatus hbattle => simp [hstatus, hbattle, eq_comm]
  next hnot =>
    simp only [reduceCtorEq, false_iff, not_exists, not_and]
    exact fun battle hstatus hbattle => absurd hbattle (hnot battle hstatus)

theorem finishAtDeadline_eq_some (h : finishAtDeadline rt room now = .ok (some next)) :
    ∃ battle, room.status = .battling ∧ room.battle = some battle ∧ ¬now < battle.endsAt ∧
      next = finished rt room battle .songEnd now := by
  unfold finishAtDeadline at h
  split at h
  next battle hstatus hbattle =>
    split_ifs at h with htime
    · simp at h
    · obtain ⟨battle', -, hbattle', rfl⟩ := finishBattle_eq_ok.mp (map_some_eq_ok h)
      obtain rfl : battle = battle' := Option.some.inj (hbattle.symm.trans hbattle')
      exact ⟨battle, hstatus, hbattle, htime, rfl⟩
  next => simp at h

/-- What a departure does to the battle: nothing when none runs; the dancers who stay go on, or
are too few and it ends. -/
inductive Settled (rt : Runtime) (room : Room) (playerId : JsString) (now : Instant) : Room → Prop
  | idle (h : ∀ battle, room.status = .battling → room.battle ≠ some battle) :
      Settled rt room playerId now (unseat room playerId)
  | continuing (battle : Battle) (hstatus : room.status = .battling)
      (hbattle : room.battle = some battle)
      (henough : MIN_DANCERS_PER_BATTLE ≤ (withoutPlayer battle playerId).dancerIds.length) :
      Settled rt room playerId now
        { unseat room playerId with battle := some (withoutPlayer battle playerId) }
  | ended (battle : Battle) (hstatus : room.status = .battling)
      (hbattle : room.battle = some battle)
      (hfew : (withoutPlayer battle playerId).dancerIds.length < MIN_DANCERS_PER_BATTLE) :
      Settled rt room playerId now
        (finished rt (unseat room playerId) (withoutPlayer battle playerId) .notEnoughDancers now)

theorem settleBattleAfterLeave_spec
    (h : settleBattleAfterLeave rt (unseat room playerId) playerId now = .ok next) :
    Settled rt room playerId now next := by
  unfold settleBattleAfterLeave at h
  split at h
  next battle hstatus hbattle =>
    by_cases hfew : (withoutPlayer battle playerId).dancerIds.length < MIN_DANCERS_PER_BATTLE
    · obtain ⟨battle', -, hbattle', rfl⟩ := finishBattle_eq_ok.mp ((if_pos hfew).symm.trans h)
      obtain rfl := Option.some.inj hbattle'
      exact .ended battle hstatus hbattle hfew
    · obtain rfl := Except.ok.inj ((if_neg hfew).symm.trans h)
      exact .continuing battle hstatus hbattle (not_lt.mp hfew)
  next hnot =>
    obtain rfl := Except.ok.inj h
    exact .idle fun battle hstatus hbattle => hnot battle hstatus hbattle

/-- What a departure does: the player is taken out of the room, then the battle and the song
selection are settled. -/
inductive Departed (rt : Runtime) (room : Room) (playerId : JsString) (now : Instant) : Room → Prop
  | mk {settled next : Room} (hseated : playerId ∈ room.playerIds)
      (hsettled : Settled rt room playerId now settled)
      (hpassed : SongSelectionService.Passed settled playerId now next) :
      Departed rt room playerId now next

/-- A departure settles the battle without touching the song selection. -/
theorem Settled.selection_eq (h : Settled rt room playerId now next) :
    next.songSelection = room.songSelection ∧ next.selectedSong = room.selectedSong := by
  cases h <;> exact ⟨rfl, rfl⟩

theorem Settled.waiting_iff (h : Settled rt room playerId now next) :
    next.status = .waiting ↔ room.status = .waiting := by
  cases h with
  | idle => exact Iff.rfl
  | continuing => exact Iff.rfl
  | ended battle hstatus => simp [finished, hstatus]

theorem Settled.song_eq (h : Settled rt room playerId now next) :
    next.battle.map (·.song) = room.battle.map (·.song) := by
  cases h with
  | idle => rfl
  | continuing battle hstatus hbattle => simp [hbattle, withoutPlayer]
  | ended battle hstatus hbattle => simp [hbattle, withoutPlayer, finished, closed]

theorem Settled.players_eq (h : Settled rt room playerId now next) :
    next.players = room.players.filter (·.id ≠ playerId) := by
  cases h <;> rfl

theorem Departed.players_eq (h : Departed rt room playerId now next) :
    next.players = room.players.filter (·.id ≠ playerId) := by
  obtain ⟨hseated, hsettled, hpassed⟩ := h
  obtain ⟨songSelection, rfl⟩ := hpassed.exists_eq
  exact hsettled.players_eq

theorem Departed.frame (h : Departed rt room playerId now next) :
    next.code = room.code ∧ next.version = room.version := by
  obtain ⟨hseated, hsettled, hpassed⟩ := h
  obtain ⟨songSelection, rfl⟩ := hpassed.exists_eq
  cases hsettled <;> exact ⟨rfl, rfl⟩

theorem Departed.version_eq (h : Departed rt room playerId now next) :
    next.version = room.version := h.frame.2

theorem leave_spec (h : leave rt room playerId random now = .ok next) :
    Departed rt room playerId now next := by
  simp only [leave, bind_eq_ok, throwIf_eq_ok, exists_const, not_not] at h
  obtain ⟨hseated, settled, hsettled, hleft⟩ := h
  exact .mk hseated (settleBattleAfterLeave_spec hsettled)
    (SongSelectionService.handlePlayerLeft_spec hleft)

/-- A player of the room may always leave. -/
theorem exists_leave (rt : Runtime) (random : RandomIndex) (now : Instant)
    (h : playerId ∈ room.playerIds) : ∃ next, leave rt room playerId random now = .ok next := by
  obtain ⟨settled, hsettled⟩ : ∃ settled,
      settleBattleAfterLeave rt (unseat room playerId) playerId now = .ok settled := by
    unfold settleBattleAfterLeave
    split
    next battle hstatus hbattle =>
      by_cases hfew : (withoutPlayer battle playerId).dancerIds.length < MIN_DANCERS_PER_BATTLE
      · exact ⟨_, (if_pos hfew).trans (finishBattle_eq_ok.mpr ⟨_, hstatus, rfl, rfl⟩)⟩
      · exact ⟨_, if_neg hfew⟩
    next => exact ⟨_, rfl⟩
  obtain ⟨next, hnext⟩ := SongSelectionService.exists_handlePlayerLeft settled playerId random now
  refine ⟨next, ?_⟩
  simp only [leave, bind_eq_ok, throwIf_eq_ok, exists_const, not_not]
  exact ⟨h, settled, hsettled, hnext⟩

theorem kick_eq_ok {playerId : JsValue}
    (h : kick rt room requesterId playerId random now = .ok next) :
    room.status = .waiting ∧ requesterId = room.hostId ∧ ∃ id, playerId = .string id ∧
      id ≠ requesterId ∧ Departed rt room id now next := by
  simp only [kick, bind_eq_ok, throwIf_eq_ok, exists_const, not_not] at h
  obtain ⟨hhost, hstatus, h⟩ := h
  cases playerId with
  | string id =>
    simp only [JsValue.string?, bind_eq_ok, throwIf_eq_ok, exists_const, not_not] at h
    exact ⟨hstatus, hhost.symm, id, rfl, h.1, leave_spec h.2.2⟩
  | _ => simp [JsValue.string?] at h

theorem mem_of_mapM_playerOf {ids : List JsString} {selected : List Player}
    (h : ids.mapM (playerOf room) = some selected) :
    selected.map (·.id) = ids ∧ ∀ p ∈ selected, p ∈ room.players := by
  induction ids generalizing selected with
  | nil => simp_all
  | cons id ids ih =>
    simp only [List.mapM_cons, Option.bind_eq_bind, Option.bind_eq_some_iff, Option.pure_def,
      Option.some.injEq] at h
    obtain ⟨p, hp, rest, hrest, rfl⟩ := h
    obtain ⟨hids, hmem⟩ := ih hrest
    have hid : p.id = id := by simpa using List.find?_some hp
    refine ⟨by rw [List.map_cons, hid, hids], ?_⟩
    exact List.forall_mem_cons.mpr ⟨List.mem_of_find?_eq_some hp, hmem⟩

/-- What the start of a battle does: some players of a lobby where everyone is ready and the song
is chosen become the dancers. -/
inductive Started (room : Room) (options : StartBattleOptions) : Room → Prop
  | mk (selected : List Player) (song : Song) (hstatus : room.status = .waiting)
      (hprogress : isSelectionInProgress room = false)
      (hready : ∀ p ∈ room.players, p.ready = true)
      (hnodup : (selected.map (·.id)).Nodup)
      (hlength : MIN_DANCERS_PER_BATTLE ≤ selected.length)
      (hmem : ∀ p ∈ selected, p ∈ room.players) (hsong : room.selectedSong = some song) :
      Started room options (battling room selected song options)

theorem Started.selection_eq {options : StartBattleOptions} (h : Started room options next) :
    next.songSelection = room.songSelection := by
  cases h
  rfl

theorem Started.waiting {options : StartBattleOptions} (h : Started room options next) :
    room.status = .waiting := by
  obtain ⟨selected, song, hstatus⟩ := h
  exact hstatus

theorem map_id_dancers (selected : List Player) :
    (selected.map fun p => { p with role := .dancer }).map (·.id) = selected.map (·.id) := by
  simp [Function.comp_def]

/-- At the start every player dances or watches. -/
theorem players_battling (selected : List Player) (song : Song) (options : StartBattleOptions) :
    (battling room selected song options).players = room.players.map fun p =>
      { p with role := if p.id ∈ selected.map (·.id) then .dancer else .spectator } := by
  simp only [battling, map_id_dancers]
  refine List.map_congr_left fun p _ => ?_
  split_ifs <;> rfl

theorem startBattle_spec {dancerIds : JsValue} {options : StartBattleOptions}
    (h : startBattle rt room dancerIds options = .ok next) : Started room options next := by
  simp only [startBattle, requireNonnegative, requireWhole, bind_eq_ok, throwIf_eq_ok,
    exists_const, not_not, not_lt] at h
  obtain ⟨-, -, -, -, hstatus, hprogress, ids, -, hnodup, hlength, h⟩ := h
  split at h
  next => simp at h
  next selected hselected =>
    obtain ⟨u, hready, h⟩ := bind_eq_ok.mp h
    obtain ⟨hids, hmem⟩ := mem_of_mapM_playerOf hselected
    split at h
    next => simp at h
    next song hsong =>
      obtain rfl := pure_eq_ok.mp h
      rw [← hids, List.length_map] at hlength
      exact .mk selected song hstatus (by simpa using hprogress)
        (requireEveryoneReady_eq_ok.mp hready) (by rwa [hids]) hlength hmem hsong

theorem awardWordBonus_eq_ok :
    awardWordBonus rt room playerId = .ok next ↔ ∃ battle, room.status = .battling ∧
      room.battle = some battle ∧ playerId ∈ battle.dancerIds ∧
      next = awarded rt room battle playerId := by
  unfold awardWordBonus
  split
  next battle hstatus hbattle =>
    simp only [bind_eq_ok, throwIf_eq_ok, exists_const, pure_eq_ok, not_not, hstatus, hbattle,
      Option.some.injEq, exists_eq_left', true_and]
    exact and_congr_right fun _ => eq_comm
  next hnot =>
    simp only [reduceCtorEq, false_iff, not_exists, not_and]
    exact fun battle hstatus hbattle => absurd hbattle (hnot battle hstatus)

/-- A vote is accepted exactly from a spectator of a running battle, while the song plays, for a
dancer of the battle or for nobody. -/
theorem castVote_eq_ok {voterId : JsString} {dancerId : JsValue} {reply : Option Room} :
    castVote rt room voterId dancerId now = .ok reply ↔ ∃ battle wanted,
      room.status = .battling ∧ room.battle = some battle ∧
      voterId ∈ room.spectators.map (·.id) ∧ ¬now < battle.startedAt ∧ ¬battle.endsAt ≤ now ∧
      wantedDancer dancerId = some wanted ∧ (∀ id ∈ wanted, id ∈ battle.dancerIds) ∧
      reply = if isCurrentVote (battle.votes.get rt.proto voterId) wanted then none
        else some (voted rt room battle voterId wanted) := by
  unfold castVote
  split
  next battle hstatus hbattle => simp [hstatus]
  next battle hstatus hbattle =>
    simp only [bind_eq_ok, throwIf_eq_ok, exists_const, not_not, hstatus, hbattle,
      Option.some.injEq, exists_and_left, exists_eq_left', true_and]
    refine and_congr_right fun _ => and_congr_right fun _ => and_congr_right fun _ => ?_
    split
    next hwanted => simp [hwanted]
    next wanted hwanted =>
      simp only [bind_eq_ok, throwIf_eq_ok, exists_const, not_exists, not_and, not_not, hwanted,
        Option.some.injEq, exists_eq_left']
      refine and_congr_right fun _ => ?_
      split_ifs <;> rw [pure_eq_ok, eq_comm]
  next hnot =>
    simp only [reduceCtorEq, false_iff, not_exists, not_and]
    exact fun battle wanted hstatus hbattle => absurd hbattle (hnot battle hstatus)

/-- The votes after an accepted vote are old ones or the accepted one. -/
theorem mem_entries_of_mem_votesAfter {votes : Record JsString JsString} {voterId : JsString}
    {wanted : Option JsString} {vote : JsString × JsString}
    (h : vote ∈ (votesAfter rt votes voterId wanted).entries) :
    vote ∈ votes.entries ∨ (vote.1 = voterId ∧ wanted = some vote.2) := by
  cases wanted with
  | none => exact Or.inl (Record.mem_entries_filter.mp h).1
  | some dancerId =>
    refine (Record.mem_entries_of_mem_assign h).imp_right ?_
    rintro rfl
    exact ⟨rfl, rfl⟩

theorem rematch_eq_ok (h : rematch room requesterId = .ok next) :
    requesterId = room.hostId ∧ room.status = .finished ∧ next = rematched room := by
  simp only [rematch, bind_eq_ok, throwIf_eq_ok, exists_const, not_not, pure_eq_ok] at h
  exact ⟨h.1.symm, h.2.1, h.2.2.symm⟩

end RoomService

end DanceSync
