import DanceSync.Lifecycle.RoomInvariant

/-!
# Room payloads

`src/infrastructure/serialization/roomDto.ts`: the single serializer of the rooms that the server
sends. It keeps every stored field but the raw votes, and adds times relative to the moment of
sending and the scoring of the battle.

## Main definitions

* `RoomDto`, `BattleDto`, `SongSelectionDto`, `toRoomDto`.
* `Room.withoutVotes`, `Room.SameTotals`: rooms that differ in who voted for whom only.

## Main results

* `toRoomDto_eq_of_sameTotals`: a payload depends on the totals of the votes only.
* `standings_toBattleDto`, `voteCounts_toBattleDto`: the scoring of a payload is that of the stored
  battle.
-/

namespace DanceSync

/-! ### The wire shape -/

structure SongChallengeDto extends SongChallenge where
  /-- Time left to type the phrase, never negative; `NaN` is `null` in the payload. -/
  expiresInMs : Option ℤ
  deriving DecidableEq

structure SongSelectionDto where
  phase : SongSelectionPhase
  challenge : SongChallengeDto
  participantIds : List JsString
  failedIds : List JsString
  chooserId : Option JsString
  chooserReason : Option ChooserReason
  songOptions : List Song
  chooseMs : ℚ
  chooseDeadline : Option Date
  autoPicked : Bool
  /-- Time the current chooser has left to pick while the phase is "choosing". -/
  chooseExpiresInMs : Option ℤ
  deriving DecidableEq

/-- The battle without `votes`: who voted for whom never leaves the server. -/
structure BattleDto where
  id : JsString
  roomCode : JsString
  dancerIds : List JsString
  roster : List Identity
  audience : List Identity
  song : Option Song
  wordsWon : Record JsString Tally
  scoring : ScoringPoints
  startedAt : Date
  endsAt : Date
  finishedAt : Option Date
  endReason : Option BattleEndReason
  result : Option BattleResult
  /-- Time until the dancing begins; negative once it began. -/
  startsInMs : Option ℤ
  /-- Time until the battle finishes on its own while it runs. -/
  endsInMs : Option ℤ
  /-- Ranking of the dancers still in the battle, best first. -/
  standings : List Standing
  /-- Votes per dancer still in the battle. -/
  voteCounts : Record JsString ℕ
  deriving DecidableEq

structure RoomDto where
  code : JsString
  hostId : JsString
  players : List Player
  dancers : Option (List Player)
  spectators : List Player
  status : RoomStatus
  battle : Option BattleDto
  songSelection : Option SongSelectionDto
  selectedSong : Option Song
  lastResult : Option BattleResult
  createdAt : Date
  version : ℕ
  deriving DecidableEq

/-! ### The serializer -/

def toSongSelectionDto (selection : SongSelection) (sentAt : Instant) : SongSelectionDto where
  phase := selection.phase
  challenge :=
    { selection.challenge with
      expiresInMs := (selection.challenge.expiresAt.msFrom sentAt).map (max 0) }
  participantIds := selection.participantIds
  failedIds := selection.failedIds
  chooserId := selection.chooserId
  chooserReason := selection.chooserReason
  songOptions := selection.songOptions
  chooseMs := selection.chooseMs
  chooseDeadline := selection.chooseDeadline
  autoPicked := selection.autoPicked
  chooseExpiresInMs := if selection.phase = .choosing
    then selection.chooseDeadline.bind fun deadline => (deadline.msFrom sentAt).map (max 0)
    else none

def toBattleDto (rt : Runtime) (battle : Battle) (running : Bool) (sentAt : Instant) : BattleDto :=
  -- A finished battle shows its frozen result; a running one is scored live.
  let standings := match battle.result with
    | some result => result.standings
    | none => ScoringService.standings rt battle
  { id := battle.id
    roomCode := battle.roomCode
    dancerIds := battle.dancerIds
    roster := battle.roster
    audience := battle.audience
    song := battle.song
    wordsWon := battle.wordsWon
    scoring := battle.scoring
    startedAt := battle.startedAt
    endsAt := battle.endsAt
    finishedAt := battle.finishedAt
    endReason := battle.endReason
    result := battle.result
    startsInMs := battle.startedAt.msFrom sentAt
    endsInMs := if running then battle.endsAt.msFrom sentAt else none
    standings
    voteCounts := .ofEntries (standings.map fun s => (s.dancerId, s.votes)) }

/-- The payload of a room sent at `now`. -/
def toRoomDto (rt : Runtime) (room : Room) (now : Instant) : RoomDto where
  code := room.code
  hostId := room.hostId
  players := room.players
  dancers := room.dancers
  spectators := room.spectators
  status := room.status
  battle := room.battle.map fun battle => toBattleDto rt battle (room.status = .battling) now
  songSelection := room.songSelection.map fun selection => toSongSelectionDto selection now
  selectedSong := room.selectedSong
  lastResult := room.lastResult
  createdAt := room.createdAt
  version := room.version

/-! ### Votes are secret -/

/-- Every field of a battle but its votes. -/
def Battle.withoutVotes (battle : Battle) : Battle := { battle with votes := .empty }

/-- Every field of a room but the votes of its battle. -/
def Room.withoutVotes (room : Room) : Room :=
  { room with battle := room.battle.map Battle.withoutVotes }

/-- Every dancer of the battle has as many voters in both rooms. -/
def Room.SameTotals (room other : Room) : Prop :=
  ∀ battle ∈ room.battle, ∀ battle' ∈ other.battle, ∀ id ∈ battle.dancerIds,
    (battle.votersOf id).ncard = (battle'.votersOf id).ncard

variable {rt : Runtime} {code : JsString} {room other : Room} {battle battle' : Battle}

/-- Battles that agree in every other field differ in their votes. -/
theorem Battle.exists_votes (h : battle.withoutVotes = battle'.withoutVotes) :
    ∃ votes, battle' = { battle with votes } := by
  refine ⟨battle'.votes, ?_⟩
  cases battle
  cases battle'
  simp_all [withoutVotes]

namespace ScoringService

variable {votes : Record JsString JsString}

/-- The line of a dancer depends on the number of their voters. -/
theorem line_withVotes (points : ScoringPoints) {id : JsString} (hid : id ∈ battle.dancerIds)
    (hvoters : (battle.votersOf id).ncard = ({ battle with votes }.votersOf id).ncard) :
    line rt { battle with votes } points id = line rt battle points id := by
  have hcount : battle.votes.values.count id = votes.values.count id := by
    rwa [Battle.ncard_votersOf, Battle.ncard_votersOf] at hvoters
  have htallies : Tally.orZero ((voteCounts rt { battle with votes }).get rt.proto id) =
      Tally.orZero ((voteCounts rt battle).get rt.proto id) := by
    have hvotes : Tally.orZero ((voteCounts rt { battle with votes }).get rt.proto id) =
        votes.values.count id := orZero_voteCounts rt hid
    rw [hvotes, orZero_voteCounts rt hid, hcount]
  simp only [line, htallies]

/-- So does the ranking. -/
theorem standings_withVotes (hvoters : ∀ id ∈ battle.dancerIds,
      (battle.votersOf id).ncard = ({ battle with votes }.votersOf id).ncard) :
    standings rt { battle with votes } battle.scoring = standings rt battle battle.scoring := by
  have hrows : rows rt { battle with votes } battle.scoring = rows rt battle battle.scoring := by
    refine List.map_congr_left fun d hd => ?_
    have hid : d.1 ∈ battle.dancerIds := (List.mem_zipIdx' hd).2 ▸ List.getElem_mem _
    rw [line_withVotes battle.scoring hid (hvoters d.1 hid)]
  rw [standings, standings, hrows]

end ScoringService

/-- The payload of a battle depends on the totals of its votes. -/
theorem toBattleDto_withVotes {votes : Record JsString JsString} (running : Bool) (sentAt : Instant)
    (hvoters : ∀ id ∈ battle.dancerIds,
      (battle.votersOf id).ncard = ({ battle with votes }.votersOf id).ncard) :
    toBattleDto rt { battle with votes } running sentAt = toBattleDto rt battle running sentAt := by
  simp only [toBattleDto, ScoringService.standings_withVotes hvoters]

/-- Payloads of rooms that differ in who voted for whom only are equal. -/
theorem toRoomDto_eq_of_sameTotals (h : other.withoutVotes = room.withoutVotes)
    (htotals : room.SameTotals other) (now : Instant) :
    toRoomDto rt other now = toRoomDto rt room now := by
  have hbattle : other.battle.map Battle.withoutVotes = room.battle.map Battle.withoutVotes :=
    (congrArg Room.battle h :)
  have hdto : other.battle.map (fun b => toBattleDto rt b (room.status = .battling) now) =
      room.battle.map fun b => toBattleDto rt b (room.status = .battling) now := by
    cases hroom : room.battle with
    | none => simpa [hroom] using hbattle
    | some b =>
      obtain ⟨b', hb', heq⟩ := Option.map_eq_some_iff.mp (hbattle.trans (by rw [hroom]; rfl))
      obtain ⟨votes, rfl⟩ := Battle.exists_votes heq.symm
      rw [hb', Option.map_some, Option.map_some,
        toBattleDto_withVotes _ _ (htotals b hroom _ hb')]
  cases room
  cases other
  simp_all [toRoomDto, Room.withoutVotes]

/-! ### The scoring of a payload -/

/-- The totals read off the ranking. -/
theorem own?_totals_standings (hnodup : battle.dancerIds.Nodup) (id : JsString) :
    (Record.ofEntries ((ScoringService.standings rt battle).map
      fun s => (s.dancerId, s.votes))).own? id =
      if id ∈ battle.dancerIds then some (battle.votes.values.count id) else none := by
  have hperm := ScoringService.map_dancerId_standings_perm rt battle battle.scoring
  have hkeys : (((ScoringService.standings rt battle).map
      fun s => (s.dancerId, s.votes)).map Prod.fst).Nodup := by
    rw [List.map_map]
    exact hperm.nodup_iff.mpr hnodup
  ext n
  rw [Record.own?_ofEntries_eq_some_iff hkeys]
  constructor
  · intro hmem
    obtain ⟨s, hs, hentry⟩ := List.mem_map.mp hmem
    obtain ⟨rfl, rfl⟩ := Prod.mk.inj hentry
    obtain ⟨hid, hvotes⟩ := ScoringService.votes_of_mem_standings hs
    rw [if_pos hid, hvotes]
  · intro h
    obtain ⟨hid, hn⟩ := Option.ite_none_right_eq_some.mp h
    obtain ⟨s, hs, rfl⟩ := List.mem_map.mp (hperm.mem_iff.mpr hid)
    have hvotes := (ScoringService.votes_of_mem_standings hs).2
    exact List.mem_map.mpr ⟨s, hs, by rw [hvotes, Option.some.inj hn]⟩

/-- The ranking of a payload is that of the stored battle, running or finished. -/
theorem standings_toBattleDto (hinv : RoomInvariant rt room) (hbattle : room.battle = some battle)
    (running : Bool) (sentAt : Instant) :
    (toBattleDto rt battle running sentAt).standings = ScoringService.standings rt battle := by
  match hstatus : room.status with
  | .waiting =>
    obtain ⟨hnone, -⟩ := hinv.waiting hstatus
    rw [hnone] at hbattle
    cases hbattle
  | .battling =>
    have hresult := (hinv.runs hstatus hbattle).result
    simp only [toBattleDto, hresult]
  | .finished =>
    obtain ⟨b, hb, hclosed⟩ := hinv.finished hstatus
    obtain rfl : battle = b := Option.some.inj (hbattle.symm.trans hb)
    simp only [toBattleDto, hclosed.result, ScoringService.result]

/-- The totals of a payload are the counted votes of the stored battle. -/
theorem voteCounts_toBattleDto (hinv : RoomInvariant rt room) (hbattle : room.battle = some battle)
    (running : Bool) (sentAt : Instant) (id : JsString) :
    ((toBattleDto rt battle running sentAt).voteCounts.own? id).map Tally.number =
      (ScoringService.voteCounts rt battle).own? id := by
  obtain ⟨hnodup, hvotes⟩ := hinv.dancers_and_votes hbattle
  have hdto : (toBattleDto rt battle running sentAt).voteCounts = Record.ofEntries
      ((ScoringService.standings rt battle).map fun s => (s.dancerId, s.votes)) := by
    rw [← standings_toBattleDto hinv hbattle running sentAt]
    rfl
  rw [hdto, own?_totals_standings hnodup, ScoringService.own?_voteCounts rt hvotes]
  split_ifs <;> rfl

/-- The payload of a room that calls make out of a free code depends on the votes through the
number of voters of each dancer only, and its totals and ranking are those of the stored battle. -/
theorem payload_reveals_totals (rt : Runtime) (code : JsString) (ops : List RoomOp) (room : Room)
    (now : Instant) (hrun : (roomMachine rt code).run none ops = some room) :
    (∀ other : Room, other.withoutVotes = room.withoutVotes → room.SameTotals other →
        toRoomDto rt other now = toRoomDto rt room now) ∧
      ∀ battle ∈ room.battle, ∃ dto ∈ (toRoomDto rt room now).battle,
        (∀ id, (dto.voteCounts.own? id).map Tally.number =
          (ScoringService.voteCounts rt battle).own? id) ∧
        dto.standings = ScoringService.standings rt battle := by
  refine ⟨fun other h htotals => toRoomDto_eq_of_sameTotals h htotals now,
    fun battle hbattle => ?_⟩
  have hinv := roomInvariant_run rt code ops (by simp) room hrun
  refine ⟨toBattleDto rt battle (room.status = .battling) now, ?_, ?_, ?_⟩
  · simp only [toRoomDto, Option.mem_def.mp hbattle, Option.map_some, Option.mem_def]
  · exact voteCounts_toBattleDto hinv hbattle _ now
  · exact standings_toBattleDto hinv hbattle _ now

/-- The same room with other votes. -/
def Room.withVotes (room : Room) (votes : Record JsString JsString) : Room :=
  { room with battle := room.battle.map fun battle => { battle with votes } }

/-- Eve's vote for Bob reads like one by Mia. -/
theorem payload_reveals_totals_sampleBattle :
    ∃ room ∈ (roomMachine .ascii (js "ROOM22")).run none
        (sampleBattle ++ [.castVote (js "eve") (.string (js "bob")) 4000]),
      toRoomDto .ascii (room.withVotes (Record.empty.define (js "mia") (js "bob"))) 5000 =
        toRoomDto .ascii room 5000 := by
  have hsample : ∃ room ∈ (roomMachine .ascii (js "ROOM22")).run none
      (sampleBattle ++ [.castVote (js "eve") (.string (js "bob")) 4000]),
      ∃ battle ∈ room.battle, battle.votes.values = [js "bob"] := by decide +kernel
  obtain ⟨room, hroom, battle, hbattle, hvotes⟩ := hsample
  refine ⟨room, hroom, (payload_reveals_totals .ascii (js "ROOM22") _ room 5000 hroom).1 _ ?_ ?_⟩
  · simp only [Room.withVotes, Room.withoutVotes, Option.map_map]
    rfl
  · intro b hb b' hb' id hid
    obtain rfl : battle = b := Option.some.inj (hbattle.symm.trans hb)
    obtain rfl : { battle with votes := Record.empty.define (js "mia") (js "bob") } = b' := by
      simpa [Room.withVotes, Option.mem_def.mp hbattle] using hb'
    rw [Battle.ncard_votersOf, Battle.ncard_votersOf, hvotes]
    rfl

end DanceSync
