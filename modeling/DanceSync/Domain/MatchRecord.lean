import DanceSync.Domain.Scoring

/-!
# The match record

`src/domain/services/MatchRecordService.ts` and `src/domain/model/MatchRecord.ts`: the document of
a finished battle for the match history.

## Main definitions

* `MatchParticipantRecord`, `MatchRecord`.
* `MatchRecordService.fromFinishedRoom`.

## Main results

* `MatchRecordService.fromFinishedRoom_eq_some`: the document of a finished battle.
* `MatchRecordService.standingOf_eq_some_iff`: the line of a dancer in a ranking.
* `ScoringService.eq_of_winner`: the winner is the only dancer ranked first.
-/

namespace DanceSync

/-- `"dancer" | "spectator"`: the seat of a player in a match. -/
inductive ParticipantRole where
  | dancer
  | spectator
  deriving DecidableEq, Repr

/-- A player of a finished battle. The statistics are those of a ranked dancer; a departed dancer
keeps the word rounds they had won. -/
structure MatchParticipantRecord where
  playerId : JsString
  displayName : JsString
  role : ParticipantRole
  votes : Option ℕ
  wordsWon : Option ℕ
  /-- `NaN` is `null` in the document. -/
  score : Option ℚ
  rank : Option ℕ
  /-- The player left the room before the battle finished. -/
  leftEarly : Bool
  deriving DecidableEq, Repr

/-- The document sent when a battle finishes; its id is the battle id. -/
structure MatchRecord where
  id : JsString
  roomCode : JsString
  songId : Option JsString
  songTitle : Option JsString
  startedAt : Date
  finishedAt : Date
  /-- `none` on a draw at the top. -/
  winnerPlayerId : Option JsString
  endReason : BattleEndReason
  participants : List MatchParticipantRecord
  deriving DecidableEq, Repr

namespace MatchRecordService

/-- `new Map(standings.map((s) => [s.dancerId, s])).get(id)`: of two lines the last counts. -/
def standingOf (standings : List Standing) (id : JsString) : Option Standing :=
  standings.reverse.find? (·.dancerId = id)

/-- A dancer of the roster, ranked or departed. -/
def dancerRecord (rt : Runtime) (battle : Battle) (result : BattleResult) (dancer : Identity) :
    MatchParticipantRecord :=
  let standing := standingOf result.standings dancer.id
  { playerId := dancer.id
    displayName := dancer.displayName
    role := .dancer
    votes := standing.map (·.votes)
    wordsWon := (standing.map (·.wordsWon)).getD
      (Tally.orZero (battle.wordsWon.get rt.proto dancer.id))
    score := standing.bind (·.score)
    rank := standing.map (·.rank)
    leftEarly := dancer.id ∉ battle.dancerIds }

/-- A spectator who watched from the start. -/
def spectatorRecord (room : Room) (spectator : Identity) : MatchParticipantRecord where
  playerId := spectator.id
  displayName := spectator.displayName
  role := .spectator
  votes := none
  wordsWon := none
  score := none
  rank := none
  leftEarly := spectator.id ∉ room.playerIds

/-- The document of a finished battle; `none` when the room holds none. -/
def fromFinishedRoom (rt : Runtime) (room : Room) : Option MatchRecord :=
  match room.status, room.battle with
  | .finished, some battle =>
    match battle.result, battle.finishedAt, battle.endReason with
    | some result, some finishedAt, some endReason => some
      { id := battle.id
        roomCode := room.code
        songId := battle.song.map (·.id)
        songTitle := battle.song.map (·.title)
        startedAt := battle.startedAt
        finishedAt
        winnerPlayerId := result.winnerId
        endReason
        participants := battle.roster.map (dancerRecord rt battle result) ++
          battle.audience.map (spectatorRecord room) }
    | _, _, _ => none
  | _, _ => none

variable {rt : Runtime} {room : Room} {battle : Battle} {result : BattleResult}
  {record : MatchRecord} {p : MatchParticipantRecord}

/-! ### The document -/

/-- A room with a finished battle has a document, with the dancers and spectators of its start. -/
theorem fromFinishedRoom_eq_some (rt : Runtime) {finishedAt : Date} {endReason : BattleEndReason}
    (hstatus : room.status = .finished) (hbattle : room.battle = some battle)
    (hresult : battle.result = some result) (hfinished : battle.finishedAt = some finishedAt)
    (hreason : battle.endReason = some endReason) :
    fromFinishedRoom rt room = some
      { id := battle.id
        roomCode := room.code
        songId := battle.song.map (·.id)
        songTitle := battle.song.map (·.title)
        startedAt := battle.startedAt
        finishedAt
        winnerPlayerId := result.winnerId
        endReason
        participants := battle.roster.map (dancerRecord rt battle result) ++
          battle.audience.map (spectatorRecord room) } := by
  simp only [fromFinishedRoom, hstatus, hbattle, hresult, hfinished, hreason]

/-- The line of a dancer in a ranking with one line for each dancer. -/
theorem standingOf_eq_some_iff {standings : List Standing}
    (hnodup : (standings.map (·.dancerId)).Nodup) {id : JsString} {s : Standing} :
    standingOf standings id = some s ↔ s ∈ standings ∧ s.dancerId = id := by
  constructor
  · intro h
    exact ⟨List.mem_reverse.mp (List.mem_of_find?_eq_some h), by simpa using List.find?_some h⟩
  · rintro ⟨hs, rfl⟩
    cases hfind : standingOf standings s.dancerId with
    | none =>
      have := List.find?_eq_none.mp hfind s (List.mem_reverse.mpr hs)
      simp at this
    | some t =>
      have ht : t ∈ standings := List.mem_reverse.mp (List.mem_of_find?_eq_some hfind)
      have hid : t.dancerId = s.dancerId := by simpa using List.find?_some hfind
      rw [List.inj_on_of_nodup_map hnodup ht hs hid]

/-- A dancer without a line is not in the ranking. -/
theorem standingOf_eq_none_iff {standings : List Standing} {id : JsString} :
    standingOf standings id = none ↔ id ∉ standings.map (·.dancerId) := by
  simp only [standingOf, List.find?_eq_none, List.mem_reverse, decide_eq_true_eq, List.mem_map,
    not_exists, not_and]

end MatchRecordService

namespace ScoringService

variable {rt : Runtime} {battle : Battle} {points : ScoringPoints} {id : JsString}

/-- A line of the ranking has the rounds that the battle counts for its dancer. -/
theorem wordsWon_of_mem_standings {s : Standing} (h : s ∈ standings rt battle points) :
    s.wordsWon = Tally.orZero (battle.wordsWon.get rt.proto s.dancerId) := by
  have hmem : { s with rank := 0 } ∈ battle.dancerIds.map (line rt battle points) :=
    (standings_perm rt battle points).mem_iff.mp (List.mem_map.mpr ⟨s, h, rfl⟩)
  obtain ⟨d, -, hline⟩ := List.mem_map.mp hmem
  have hd : s.dancerId = d := (congrArg Standing.dancerId hline).symm
  rw [hd]
  exact (congrArg Standing.wordsWon hline).symm

/-- The score of a line counts its votes and its rounds. -/
theorem score_of_mem_standings {s : Standing} (h : s ∈ standings rt battle points) :
    s.score = s.wordsWon.map fun (wordsWon : ℕ) =>
      points.votePoints * s.votes + points.wordBonusPoints * wordsWon := by
  have hmem : { s with rank := 0 } ∈ battle.dancerIds.map (line rt battle points) :=
    (standings_perm rt battle points).mem_iff.mp (List.mem_map.mpr ⟨s, h, rfl⟩)
  obtain ⟨d, -, hline⟩ := List.mem_map.mp hmem
  have hscore : s.score = (line rt battle points d).score := (congrArg Standing.score hline).symm
  have hvotes : s.votes = (line rt battle points d).votes := (congrArg Standing.votes hline).symm
  have hwords : s.wordsWon = (line rt battle points d).wordsWon :=
    (congrArg Standing.wordsWon hline).symm
  rw [hscore, hvotes, hwords]
  rfl

/-- The winner of a result is the only dancer ranked first. -/
theorem eq_of_winner (h : (result rt battle points).winnerId = some id) :
    ∃ leader ∈ standings rt battle points, leader.dancerId = id ∧ leader.rank = 1 ∧
      ∀ s ∈ standings rt battle points, s.rank = 1 → s = leader := by
  simp only [result] at h
  split at h
  next leader hleaders =>
    have hmem : ∀ s, s ∈ standings rt battle points ∧ s.rank = 1 ↔ s = leader := by
      intro s
      have := congrArg (s ∈ ·) hleaders
      simpa using this
    obtain ⟨hleader, hrank⟩ := (hmem leader).mpr rfl
    exact ⟨leader, hleader, Option.some.inj h, hrank, fun s hs hone => (hmem s).mp ⟨hs, hone⟩⟩
  next => simp at h

end ScoringService

end DanceSync
