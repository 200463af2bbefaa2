import DanceSync.Domain.SongSelection
import DanceSync.Model.WordRace

/-!
# Planning and judging the word race

`src/domain/services/WordRaceService.ts`: the rounds of a battle that just started, and the verdict
on a typed word. The timeline is computed with fractions, so the planner takes the rounding of its
operations as an argument; the engine has `Numerics.double`.

The random source is called several times for one plan; `random k` answers the call after `k`
others.

## Main definitions

* `WordRaceService.randomOffsets`, `WordRaceService.pickDistinct`, `WordRaceService.plan`.
* `WordRaceService.judge`.
* `WordRace.Planned`: a race before its first round.

## Main results

* `WordRaceService.plan_eq_ok`: a plan is a race before its first round, of the running battle.
-/

namespace DanceSync

/-- `random(length)` for any number: an index exists only below a whole number above 0. -/
def RandomIndex.draw (random : RandomIndex) (length : ℚ) : Except JsError ℕ :=
  if h : 0 < length.floor ∧ length.isInt then
    .ok (random.pick length.floor.toNat (Int.pos_iff_toNat_pos.mp h.1))
  else .error (.range (js "The value of max is out of range. It must be greater than 0"))

/-- `PlanWordRaceOptions`. -/
structure PlanWordRaceOptions where
  /-- Rounds wanted; fewer are planned when the song is too short to fit them. -/
  rounds : ℚ := DEFAULT_WORD_RACE_ROUNDS
  windowMs : ℚ := DEFAULT_WORD_WINDOW_MS
  minGapMs : ℚ := DEFAULT_WORD_MIN_GAP_MS
  /-- Song length used when the battle has no song. -/
  fallbackDurationMs : ℚ := DEFAULT_WORD_FALLBACK_DURATION_MS
  startMarginRatio : ℚ := DEFAULT_WORD_START_MARGIN_RATIO
  endMarginRatio : ℚ := DEFAULT_WORD_END_MARGIN_RATIO
  words : List JsString := WORD_RACE_WORDS
  /-- Explicit opening offsets in ms after the start of the battle. -/
  offsetsMs : Option (List ℚ) := none

inductive WordJudgement where
  | correct
  | incorrect
  | expired
  deriving DecidableEq, Repr

namespace WordRaceService

/-! ### The timeline -/

/-- `Math.min(rounds, Math.floor(span / step) + 1)`. A quotient by 0 is infinite, or not a number
and then no length at all; one that overflows stays above `rounds`, as an infinite one does. -/
def roundCount (num : Numerics) (rounds span step : ℚ) : ℚ :=
  if step = 0 then (if span = 0 then 0 else rounds)
  else min rounds (num.round ((num.round (span / step)).floor + 1))

/-- Spreads `rounds` openings over the usable part of the song. -/
def randomOffsets (num : Numerics) (songMs : ℚ) (options : PlanWordRaceOptions)
    (random : ℕ → RandomIndex) : Except JsError (List ℚ) :=
  let first : ℚ := (num.round (songMs * options.startMarginRatio)).ceil
  let lastOpen := num.round ((num.round (songMs * options.endMarginRatio)).floor - options.windowMs)
  let step := max options.minGapMs options.windowMs
  if options.rounds ≤ 0 ∨ lastOpen < first then .ok []
  else do
    let span := num.round (lastOpen - first)
    let count := roundCount num options.rounds span step
    -- Points in the slack left after reserving the gaps; the gaps are added back.
    let slack := num.round (span - num.round (num.round (count - 1) * step))
    let points ← (List.range count.floor.toNat).mapM fun k =>
      (random k).draw (num.round (slack + 1))
    return (points.insertionSort (· ≤ ·)).mapIdx fun i (point : ℕ) =>
      num.round (num.round (first + point) + num.round (i * step))

/-- `count` distinct entries, fewer if the pool is smaller. -/
def pickDistinct : (count : ℕ) → (pool : List JsString) → (random : ℕ → RandomIndex) →
    List JsString
  | 0, _, _ => []
  | _ + 1, [], _ => []
  | count + 1, word :: pool, random =>
    let index := (random 0).pick (word :: pool).length (Nat.succ_pos pool.length)
    (word :: pool).get index ::
      pickDistinct count ((word :: pool).eraseIdx index) fun k => random (k + 1)

/-- The openings, in ms after the start of the battle, and the calls of the random source. -/
def plannedOffsets (num : Numerics) (battle : Battle) (options : PlanWordRaceOptions)
    (random : ℕ → RandomIndex) : Except JsError (List ℚ × ℕ) :=
  match options.offsetsMs with
  | some offsets => .ok (offsets.insertionSort (· ≤ ·), 0)
  | none => do
    let songMs := match battle.song with
      | some song => num.round (song.durationSeconds * 1000)
      | none => options.fallbackDurationMs
    let planned ← randomOffsets num songMs options random
    return (planned, planned.length)

/-- `${battle.id}:${number}`. -/
def roundId (battleId : JsString) (number : ℕ) : JsString :=
  battleId ++ js ":" ++ JsString.decimal number

/-- The battle that a round id names: what stands before its last colon. -/
def battleOf (roundId : JsString) : JsString := (roundId.rdropWhile (· ≠ 58)).dropLast

/-- `new Date(date.getTime() + ms)`. -/
def opening (num : Numerics) (date : Date) (ms : ℚ) : Date :=
  match date with
  | .at time => num.date (num.round (time + ms))
  | .invalid => .invalid

/-- `new Date(date.getTime() + ms + windowMs)`, the sums from left to right. -/
def closing (num : Numerics) (date : Date) (ms windowMs : ℚ) : Date :=
  match date with
  | .at time => num.date (num.round (num.round (time + ms) + windowMs))
  | .invalid => .invalid

/-- A round before it opens. -/
def scheduledRound (num : Numerics) (battle : Battle) (windowMs : ℚ) (index : ℕ)
    (planned : JsString × ℚ) : WordRound where
  id := roundId battle.id (index + 1)
  number := index + 1
  word := planned.1
  opensAt := opening num battle.startedAt planned.2
  closesAt := closing num battle.startedAt planned.2 windowMs
  winnerId := none
  status := .scheduled

/-- The name of a dancer, as seated. -/
def participantName (room : Room) (id : JsString) : JsString :=
  ((room.players.find? (·.id = id)).map (·.displayName)).getD id

/-- The rounds of a battle that just started: distinct random words at random moments of the
song. -/
def plan (num : Numerics) (rt : Runtime) (room : Room) (options : PlanWordRaceOptions)
    (random : ℕ → RandomIndex) : Except JsError WordRace :=
  match room.status, room.battle with
  | .battling, some battle => do
    let (planned, calls) ← plannedOffsets num battle options random
    let picked := pickDistinct planned.length options.words fun k => random (calls + k)
    return {
      roomCode := room.code
      battleId := battle.id
      participantIds := battle.dancerIds
      participantNames := battle.dancerIds.foldl
        (fun names id => names.assign rt.proto id (participantName room id)) .empty
      rounds := (picked.zip planned).mapIdx (scheduledRound num battle options.windowMs)
      wins := battle.dancerIds.foldl (fun wins id => wins.assign rt.proto id (.number 0)) .empty }
  | _, _ => .error (.domain .roomNotBattling
      (js "Room " ++ room.code ++ js " has no battle in progress"))

/-! ### Verdicts -/

/-- Validates a typed attempt without deciding anything. -/
def judge (rt : Runtime) (round : WordRound) (participantIds : List JsString)
    (playerId text : JsString) (now : Instant) : Except JsError WordJudgement := do
  throwIf (playerId ∉ participantIds) (.domain .notChallengeParticipant
    (js "Only the dancers in this battle can type the word"))
  throwIf (round.status = .scheduled) (.domain .wordRoundNotOpen
    (js "Round " ++ JsString.decimal round.number ++ js " is not open yet"))
  if round.status = .expired ∨ round.closesAt ≤ now then return .expired
  else if rt.toLowerCase (normalizeAttempt rt text) = round.word then
    return .correct
  else return .incorrect

/-! ### What a plan is -/

theorem roundId_injective (battleId : JsString) : Function.Injective (roundId battleId) :=
  fun _ _ h => JsString.decimal_injective (List.append_cancel_left h)

@[simp] theorem battleOf_roundId (battleId : JsString) (number : ℕ) :
    battleOf (roundId battleId number) = battleId := by
  have hdecimal : ∀ u ∈ (JsString.decimal number).reverse, decide (u ≠ 58) = true := fun u hu =>
    decide_eq_true (JsString.ne_colon_of_mem_decimal (List.mem_reverse.mp hu))
  have hcolon : js ":" = [58] := by decide
  rw [battleOf, List.rdropWhile, roundId, hcolon, List.reverse_append,
    List.dropWhile_append_of_pos hdecimal]
  simp

/-- The ids of planned rounds are numbered from 1. -/
theorem map_id_mapIdx_scheduledRound (num : Numerics) (battle : Battle) (windowMs : ℚ)
    (planned : List (JsString × ℚ)) :
    (planned.mapIdx (scheduledRound num battle windowMs)).map (·.id) =
      (List.range planned.length).map fun i => roundId battle.id (i + 1) := by
  refine List.ext_getElem (by simp) fun i _ _ => ?_
  simp [scheduledRound]

/-- Every participant starts with no round won. -/
theorem own?_foldl_wins (rt : Runtime) {ids : List JsString} {wins : Record JsString Tally}
    {id : JsString} (hid : rt.proto.setter id = false) :
    (ids.foldl (fun wins id => wins.assign rt.proto id (.number 0)) wins).own? id =
      if id ∈ ids then some (.number 0) else wins.own? id := by
  induction ids generalizing wins with
  | nil => simp
  | cons d ids ih =>
    rw [List.foldl_cons, ih]
    by_cases hmem : id ∈ ids
    · simp [hmem]
    · by_cases hd : id = d
      · subst hd
        simp [hmem, Record.own?_assign_self _ (Or.inl hid)]
      · simp [hmem, hd, Record.own?_assign_of_ne rt.proto wins _ hd]

end WordRaceService

/-- A race before its first round: the rounds are numbered, none is open, nobody won any. -/
structure WordRace.Planned (rt : Runtime) (race : WordRace) : Prop where
  ids : ∃ n, race.rounds.map (·.id) =
    (List.range n).map fun i => WordRaceService.roundId race.battleId (i + 1)
  scheduled : ∀ round ∈ race.rounds, round.status = .scheduled
  winnerId : ∀ round ∈ race.rounds, round.winnerId = none
  wins : ∀ id, rt.proto.inherited id = false →
    race.wins.own? id = if id ∈ race.participantIds then some (.number 0) else none

/-- A plan is a race before its first round, of the running battle of the room. -/
theorem WordRaceService.plan_eq_ok {num : Numerics} {rt : Runtime} {room : Room}
    {options : PlanWordRaceOptions} {random : ℕ → RandomIndex} {race : WordRace}
    (h : plan num rt room options random = .ok race) :
    race.Planned rt ∧ ∃ battle, room.status = .battling ∧ room.battle = some battle ∧
      race.battleId = battle.id ∧ race.participantIds = battle.dancerIds := by
  unfold plan at h
  split at h
  next battle hstatus hbattle =>
    obtain ⟨⟨planned, calls⟩, -, hrace⟩ := bind_eq_ok.mp h
    obtain rfl := pure_eq_ok.mp hrace
    refine ⟨⟨⟨_, map_id_mapIdx_scheduledRound num battle options.windowMs _⟩, ?_, ?_, ?_⟩,
      battle, hstatus, hbattle, rfl, rfl⟩
    · intro round hround
      obtain ⟨i, hi, rfl⟩ := List.mem_mapIdx.mp hround
      rfl
    · intro round hround
      obtain ⟨i, hi, rfl⟩ := List.mem_mapIdx.mp hround
      rfl
    · intro id hid
      exact own?_foldl_wins rt (Prototype.setter_eq_false hid)
  next => simp at h

theorem WordRaceService.roomCode_of_plan {num : Numerics} {rt : Runtime} {room : Room}
    {options : PlanWordRaceOptions} {random : ℕ → RandomIndex} {race : WordRace}
    (h : plan num rt room options random = .ok race) :
    race.roomCode = room.code := by
  unfold plan at h
  split at h
  next =>
    obtain ⟨_, -, hrace⟩ := bind_eq_ok.mp h
    obtain rfl := pure_eq_ok.mp hrace
    rfl
  next => simp at h

/-- The rounds of a plan have different ids. -/
theorem WordRace.Planned.nodup {rt : Runtime} {race : WordRace} (h : race.Planned rt) :
    (race.rounds.map (·.id)).Nodup := by
  obtain ⟨n, hids⟩ := h.ids
  rw [hids]
  refine List.nodup_range.map fun i j hij => ?_
  have := WordRaceService.roundId_injective race.battleId hij
  omega

end DanceSync
