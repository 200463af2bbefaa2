import DanceSync.Js.Date
import DanceSync.Js.Record

/-!
# The room aggregate

The data of `src/domain/model` of the battle service, with the errors of `src/domain/errors` and
the parts of the JavaScript engine that the services call.

## Main definitions

* `Runtime`: the prototype of plain objects, the Unicode tables, the printing of numbers and the
  room for arrays.
* `DomainErrorCode`, `JsError`: what an operation may throw.
* `Player`, `Song`, `Battle`, `SongSelection`, `Room`.
-/

namespace DanceSync

/-! ### The engine -/

/-- What the services take from the JavaScript engine. -/
structure Runtime where
  /-- `Object.prototype`. -/
  proto : Prototype JsString
  /-- `String.prototype.normalize("NFC")`. -/
  nfc : JsString → JsString
  toLowerCase : JsString → JsString
  toLocaleLowerCase : JsString → JsString
  toUpperCase : JsString → JsString
  /-- A number as a template literal prints it. -/
  numberText : ℚ → JsString
  /-- The longest array that there is room for. -/
  maxArrayLength : ℕ

/-! ### Errors -/

/-- `DomainErrorCode`. -/
inductive DomainErrorCode where
  | roomNotFound
  | roomFull
  | roomNotWaiting
  | roomNotBattling
  | battleNotStarted
  | playerAlreadyInRoom
  | playerNotInRoom
  | invalidPlayer
  | notEnoughPlayers
  | notEnoughDancers
  | invalidDancer
  | playersNotReady
  | songNotSelected
  | invalidVoter
  | battleFinished
  | roomNotFinished
  | notHost
  | invalidMessage
  | songSelectionInProgress
  | songSelectionNotActive
  | notChallengeParticipant
  | attemptAlreadyUsed
  | notSongChooser
  | invalidSong
  | wordRaceNotActive
  | wordRoundNotOpen
  deriving DecidableEq, Repr

/-- What a call may throw. -/
inductive JsError where
  /-- `new DomainError(code, message)`. -/
  | domain (code : DomainErrorCode) (message : JsString)
  /-- A `RangeError`, of the code itself or of `crypto.randomInt`. -/
  | range (message : JsString)
  /-- Any other `Error`. -/
  | other (message : JsString)
  /-- Not thrown: the call never returns. -/
  | diverges
  deriving DecidableEq, Repr

/-! ### Players -/

inductive PlayerRole where
  | undecided
  | dancer
  | spectator
  deriving DecidableEq, Repr

/-- Longest accepted player id. -/
def MAX_PLAYER_ID_LENGTH : ℕ := 64

/-- Longest accepted display name, counted after trimming. -/
def MAX_DISPLAY_NAME_LENGTH : ℕ := 32

/-- `Omit<Player, "role" | "ready">`: the identity of a player. -/
structure Identity where
  id : JsString
  displayName : JsString
  deriving DecidableEq, Repr

structure Player extends Identity where
  role : PlayerRole
  /-- Marked "ready to dance" in the lobby. -/
  ready : Bool
  deriving DecidableEq, Repr

/-! ### Songs -/

structure Song where
  id : JsString
  title : JsString
  artist : JsString
  /-- Length of the battle clip in seconds. -/
  durationSeconds : ℚ
  youtubeId : JsString
  deriving DecidableEq, Repr

/-! ### Battles -/

/-- A number of votes or of rounds won, kept in a plain object: a number, or the text that adding
one to an inherited property makes. -/
inductive Tally where
  | number (count : ℕ)
  | text
  deriving DecidableEq, Repr

/-- `(record[key] ?? 0) + 1`. -/
def Tally.succOf : Lookup Tally → Tally
  | .absent => .number 1
  | .own (.number n) => .number (n + 1)
  | .own .text => .text
  | .inherited => .text

/-- `record[key] ?? 0`; `none` is no number, but a text or what an inherited property holds. -/
def Tally.orZero : Lookup Tally → Option ℕ
  | .absent => some 0
  | .own (.number n) => some n
  | .own .text | .inherited => none

/-- How much each source of points is worth; snapshotted when the battle starts. -/
structure ScoringPoints where
  votePoints : ℚ
  wordBonusPoints : ℚ
  deriving DecidableEq, Repr

/-- Points of a vote and of a word round unless configured otherwise. -/
def DEFAULT_SCORING : ScoringPoints := { votePoints := 2, wordBonusPoints := 1 }

inductive BattleEndReason where
  /-- The song clip ended. -/
  | songEnd
  /-- Dancers left until too few remained. -/
  | notEnoughDancers
  deriving DecidableEq, Repr

/-- One dancer's line in the ranking. -/
structure Standing where
  dancerId : JsString
  displayName : JsString
  votes : ℕ
  /-- `none` is no number. -/
  wordsWon : Option ℕ
  /-- `none` is `NaN`. -/
  score : Option ℚ
  rank : ℕ
  deriving DecidableEq, Repr

structure BattleResult where
  standings : List Standing
  winnerId : Option JsString
  deriving DecidableEq, Repr

structure Battle where
  id : JsString
  roomCode : JsString
  /-- Dancers still competing. -/
  dancerIds : List JsString
  /-- Every dancer when the battle started, never shrunk. -/
  roster : List Identity
  /-- Every spectator when the battle started, never shrunk. -/
  audience : List Identity
  song : Option Song
  /-- Current vote of each spectator. -/
  votes : Record JsString JsString
  /-- Word race rounds won per dancer. -/
  wordsWon : Record JsString Tally
  scoring : ScoringPoints
  startedAt : Date
  endsAt : Date
  finishedAt : Option Date
  endReason : Option BattleEndReason
  result : Option BattleResult
  deriving DecidableEq

/-! ### Song selection -/

inductive SongSelectionPhase where
  | typing
  | choosing
  | done
  deriving DecidableEq, Repr

inductive ChooserReason where
  | typed
  | timeout
  | allFailed
  | chooserLeft
  deriving DecidableEq, Repr

structure SongChallenge where
  id : JsString
  phrase : JsString
  startedAt : Date
  expiresAt : Date
  deriving DecidableEq, Repr

structure SongSelection where
  phase : SongSelectionPhase
  challenge : SongChallenge
  /-- Players allowed to type, snapshotted when the challenge starts. -/
  participantIds : List JsString
  /-- Participants whose submission was rejected. -/
  failedIds : List JsString
  chooserId : Option JsString
  chooserReason : Option ChooserReason
  songOptions : List Song
  /-- Time each chooser gets to pick, in milliseconds. -/
  chooseMs : ℚ
  chooseDeadline : Option Date
  autoPicked : Bool
  deriving DecidableEq, Repr

/-! ### Rooms -/

def MAX_PLAYERS : ℕ := 7

/-- Minimum dancers required to start a battle. -/
def MIN_DANCERS_PER_BATTLE : ℕ := 2

inductive RoomStatus where
  | waiting
  | battling
  | finished
  deriving DecidableEq, Repr

structure Room where
  code : JsString
  hostId : JsString
  players : List Player
  dancers : Option (List Player)
  spectators : List Player
  status : RoomStatus
  battle : Option Battle
  songSelection : Option SongSelection
  selectedSong : Option Song
  /-- Result of the latest finished battle, kept across a rematch. -/
  lastResult : Option BattleResult
  createdAt : Date
  /-- 0 when created, one more on every stored change. -/
  version : ℕ
  deriving DecidableEq

namespace Room

/-- The ids of the players, in seating order. -/
def playerIds (room : Room) : List JsString := room.players.map (·.id)

/-- The players who chose a role, in seating order. -/
def withRole (role : PlayerRole) (players : List Player) : List Player :=
  players.filter (·.role = role)

theorem mem_playerIds {room : Room} {id : JsString} :
    id ∈ room.playerIds ↔ ∃ p ∈ room.players, p.id = id := by
  simp [playerIds]

end Room

end DanceSync
