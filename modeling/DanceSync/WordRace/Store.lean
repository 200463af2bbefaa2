import DanceSync.Domain.WordRaceService
import DanceSync.Machine.Run

/-!
# The word race store

`src/infrastructure/persistence/InMemoryWordRaceRepository.ts` on the race of one room. Opening,
claiming and expiring a round each read, check and write in one atomic step.

## Main definitions

* `InMemoryWordRaceRepository.openRound`, `InMemoryWordRaceRepository.claimRound`,
  `InMemoryWordRaceRepository.expireRound`.
* `RaceOp`, `raceMachine`: the store under these calls.
* `RoundStep`: the moves of a round. `RaceChange`: what a call does to the stored race.

## Main results

* `openRound_answered`, `claimRound_answered`, `expireRound_answered`: a call moves a round or
  changes nothing, and its result says which.
-/

namespace DanceSync

/-- `ClaimRoundResult`. -/
inductive ClaimRoundResult where
  | claimed (round : WordRound)
  /-- Not claimed; the round is `none` when there is no such round. -/
  | refused (round : Option WordRound)
  deriving DecidableEq

namespace WordRace

/-- A round after it opened. -/
def opened (round : WordRound) : WordRound := { round with status := .open }

/-- A round after `playerId` won it. -/
def won (round : WordRound) (playerId : JsString) : WordRound :=
  { round with status := .won, winnerId := some playerId }

/-- A round after its window closed. -/
def expired (round : WordRound) : WordRound := { round with status := .expired }

/-- The race after `playerId` won a round of it. -/
def claimedBy (rt : Runtime) (race : WordRace) (round : WordRound) (playerId : JsString) :
    WordRace :=
  { race.withRound (won round playerId) with
    wins := race.wins.define playerId (Tally.succOf (race.wins.get rt.proto playerId)) }

end WordRace

namespace InMemoryWordRaceRepository

/-- scheduled -> open. -/
def openRound (slot : Option WordRace) (roundId : JsString) :
    Option WordRace × Option WordRound :=
  match slot with
  | none => (none, none)
  | some race =>
    match race.round? roundId with
    | none => (some race, none)
    | some round =>
      if round.status ≠ .scheduled then (some race, none)
      else (some (race.withRound (WordRace.opened round)), some (WordRace.opened round))

/-- open -> won, before the window closes. -/
def claimRound (rt : Runtime) (slot : Option WordRace) (roundId playerId : JsString)
    (now : Instant) : Option WordRace × ClaimRoundResult :=
  match slot with
  | none => (none, .refused none)
  | some race =>
    match race.round? roundId with
    | none => (some race, .refused none)
    | some round =>
      if round.status = .open ∧ round.winnerId = none ∧ now < round.closesAt then
        (some (race.claimedBy rt round playerId), .claimed (WordRace.won round playerId))
      else (some race, .refused (some round))

/-- open -> expired, once the window closed. -/
def expireRound (slot : Option WordRace) (roundId : JsString) (now : Instant) :
    Option WordRace × Option WordRound :=
  match slot with
  | none => (none, none)
  | some race =>
    match race.round? roundId with
    | none => (some race, none)
    | some round =>
      if round.status = .open ∧ round.winnerId = none ∧ round.closesAt ≤ now then
        (some (race.withRound (WordRace.expired round)), some (WordRace.expired round))
      else (some race, none)

end InMemoryWordRaceRepository

/-! ### The store as a machine -/

/-- A call that moves a round of the stored race. -/
inductive RaceOp where
  | openRound (roundId : JsString)
  | claimRound (roundId playerId : JsString) (now : Instant)
  | expireRound (roundId : JsString) (now : Instant)

/-- What these calls return. -/
inductive RaceReply where
  | opened (round : Option WordRound)
  | claim (result : ClaimRoundResult)
  | expired (round : Option WordRound)
  deriving DecidableEq

/-- The id of the round that a call names. -/
def RaceOp.roundId : RaceOp → JsString
  | .openRound roundId | .claimRound roundId _ _ | .expireRound roundId _ => roundId

/-- The player for whom a call claims its round. -/
def RaceOp.claimant : RaceOp → Option JsString
  | .claimRound _ playerId _ => some playerId
  | _ => none

/-- The race of a room under the calls that move its rounds. -/
def raceMachine (rt : Runtime) : Machine (Option WordRace) RaceOp RaceReply where
  step slot
    | .openRound roundId =>
      let (stored, round) := InMemoryWordRaceRepository.openRound slot roundId
      (stored, .opened round)
    | .claimRound roundId playerId now =>
      let (stored, result) := InMemoryWordRaceRepository.claimRound rt slot roundId playerId now
      (stored, .claim result)
    | .expireRound roundId now =>
      let (stored, round) := InMemoryWordRaceRepository.expireRound slot roundId now
      (stored, .expired round)

/-! ### What a call does -/

/-- The moves of a round, with the call that makes them and what it returns. -/
inductive RoundStep (round : WordRound) : RaceOp → RaceReply → WordRound → Prop
  | opened (hstatus : round.status = .scheduled) :
      RoundStep round (.openRound round.id) (.opened (some (WordRace.opened round)))
        (WordRace.opened round)
  | won {playerId : JsString} {now : Instant} (hstatus : round.status = .open)
      (hwinner : round.winnerId = none) (htime : now < round.closesAt) :
      RoundStep round (.claimRound round.id playerId now)
        (.claim (.claimed (WordRace.won round playerId))) (WordRace.won round playerId)
  | expired {now : Instant} (hstatus : round.status = .open) (hwinner : round.winnerId = none)
      (htime : round.closesAt ≤ now) :
      RoundStep round (.expireRound round.id now) (.expired (some (WordRace.expired round)))
        (WordRace.expired round)

/-- What a call that moves a round does to the race: the round is replaced, and a won round is
counted for its winner. -/
inductive RaceChange (rt : Runtime) (race : WordRace) (op : RaceOp) (reply : RaceReply) :
    WordRace → Prop
  | mk {round round' : WordRound} (hround : race.round? op.roundId = some round)
      (hstep : RoundStep round op reply round') (wins : Record JsString Tally)
      (hwins : wins = match op.claimant with
        | some playerId =>
          race.wins.define playerId (Tally.succOf (race.wins.get rt.proto playerId))
        | none => race.wins) :
      RaceChange rt race op reply { race.withRound round' with wins }

/-- The reply says that the call moved its round. -/
def RaceReply.moved : RaceReply → Bool
  | .opened round | .expired round => round.isSome
  | .claim (.claimed _) => true
  | .claim (.refused _) => false

/-- A call moves a round and says so, or changes nothing and says so. -/
inductive RaceAnswered (rt : Runtime) (slot : Option WordRace) (op : RaceOp) :
    Option WordRace → RaceReply → Prop
  | unchanged {reply : RaceReply} (h : reply.moved = false) : RaceAnswered rt slot op slot reply
  | changed {race race' : WordRace} {reply : RaceReply} (hslot : slot = some race)
      (hmoved : reply.moved = true) (h : RaceChange rt race op reply race') :
      RaceAnswered rt slot op (some race') reply

theorem openRound_answered (rt : Runtime) (slot : Option WordRace) (roundId : JsString) :
    RaceAnswered rt slot (.openRound roundId)
      (InMemoryWordRaceRepository.openRound slot roundId).1
      (.opened (InMemoryWordRaceRepository.openRound slot roundId).2) := by
  cases slot with
  | none => exact .unchanged rfl
  | some race =>
    unfold InMemoryWordRaceRepository.openRound
    cases hround : race.round? roundId with
    | none =>
      simp only [hround]
      exact .unchanged rfl
    | some round =>
      simp only [hround]
      split_ifs with hstatus
      · exact .unchanged rfl
      · obtain rfl := (WordRace.mem_of_round? hround).2
        exact .changed rfl rfl (.mk hround (.opened (not_not.mp hstatus)) _ rfl)

theorem claimRound_answered (rt : Runtime) (slot : Option WordRace) (roundId playerId : JsString)
    (now : Instant) :
    RaceAnswered rt slot (.claimRound roundId playerId now)
      (InMemoryWordRaceRepository.claimRound rt slot roundId playerId now).1
      (.claim (InMemoryWordRaceRepository.claimRound rt slot roundId playerId now).2) := by
  cases slot with
  | none => exact .unchanged rfl
  | some race =>
    unfold InMemoryWordRaceRepository.claimRound
    cases hround : race.round? roundId with
    | none =>
      simp only [hround]
      exact .unchanged rfl
    | some round =>
      simp only [hround]
      split_ifs with hclaimable
      · obtain rfl := (WordRace.mem_of_round? hround).2
        obtain ⟨hstatus, hwinner, htime⟩ := hclaimable
        exact .changed rfl rfl (.mk hround (.won hstatus hwinner htime) _ rfl)
      · exact .unchanged rfl

theorem expireRound_answered (rt : Runtime) (slot : Option WordRace) (roundId : JsString)
    (now : Instant) :
    RaceAnswered rt slot (.expireRound roundId now)
      (InMemoryWordRaceRepository.expireRound slot roundId now).1
      (.expired (InMemoryWordRaceRepository.expireRound slot roundId now).2) := by
  cases slot with
  | none => exact .unchanged rfl
  | some race =>
    unfold InMemoryWordRaceRepository.expireRound
    cases hround : race.round? roundId with
    | none =>
      simp only [hround]
      exact .unchanged rfl
    | some round =>
      simp only [hround]
      split_ifs with hexpirable
      · obtain rfl := (WordRace.mem_of_round? hround).2
        obtain ⟨hstatus, hwinner, htime⟩ := hexpirable
        exact .changed rfl rfl (.mk hround (.expired hstatus hwinner htime) _ rfl)
      · exact .unchanged rfl

theorem raceAnswered (rt : Runtime) (slot : Option WordRace) (op : RaceOp) :
    RaceAnswered rt slot op ((raceMachine rt).next slot op) ((raceMachine rt).step slot op).2 := by
  cases op with
  | openRound roundId => exact openRound_answered rt slot roundId
  | claimRound roundId playerId now => exact claimRound_answered rt slot roundId playerId now
  | expireRound roundId now => exact expireRound_answered rt slot roundId now

end DanceSync
