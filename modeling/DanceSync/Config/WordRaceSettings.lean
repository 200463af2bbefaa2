import DanceSync.Config.Env
import DanceSync.Domain.WordRaceTimeline

/-!
# The word race under the configuration

The settings of the word race are checked for their sign, and the number of rounds for being whole.
The window and the gap may be any fraction, and no setting has an upper limit. The planner asks the
random source for an index below the time that the openings leave of the song, which must be a whole
number of milliseconds. It adds and divides doubles, so a fraction may be lost, or appear, on the
way.

## Main definitions

* `Config.Env.planOptions`: what `server.ts` hands to the planner.
* `Config.Env.Plans`: a plan completes, with valid dates inside the song.
* `Config.Env.WordRaceWorks`: when it does.

## Main results

* `Config.insideSong_of_plan`: the rounds of a plan lie inside the song.
* `Config.plans_iff`.
-/

namespace DanceSync.Config

open WordRaceService

variable {env : Env} {battle : Battle} {room : Room} {song : Song} {now : Instant} {rt : Runtime}
  {random : ℕ → RandomIndex} {planned : List ℚ} {race : WordRace} {round : WordRound}

/-- The options of `StartWordRace`, as `server.ts` sets them. -/
def Env.planOptions (env : Env) : PlanWordRaceOptions where
  rounds := env.wordRaceRounds
  windowMs := env.wordRaceWindowMs
  minGapMs := env.wordRaceMinGapMs
  fallbackDurationMs := env.wordRaceFallbackDurationMs

/-- The length of the array of openings; there is none when no round is wanted or fits. -/
def drawn (options : PlanWordRaceOptions) (songMs : ℚ) : ℚ :=
  if options.rounds ≤ 0 ∨ options.lastOpen .double songMs < options.first .double songMs then 0
  else options.count .double songMs

/-- The plan of a battle completes: nothing throws, and the rounds open and close at valid dates
inside the song. -/
structure Env.Plans (env : Env) (rt : Runtime) (room : Room) (battle : Battle)
    (random : ℕ → RandomIndex) : Prop where
  array : drawn env.planOptions (env.planOptions.songMs .double battle) ≤ rt.maxArrayLength
  plan : ∃ race, plan .double rt room env.planOptions random = .ok race ∧ ∀ round ∈ race.rounds,
    round.opensAt.Valid ∧ round.closesAt.Valid ∧ battle.startedAt ≤ round.opensAt ∧
      (round.closesAt.ms : ℚ) ≤ battle.startedAt.ms + env.planOptions.songMs .double battle

namespace Env

/-- The least time between two openings. -/
def stepMs (env : Env) : ℚ := max env.wordRaceMinGapMs env.wordRaceWindowMs

/-- The latest opening, of a song of 90 seconds; its margins are at 9000 and 76500 ms. -/
def lastOpenMs (env : Env) : ℚ := Binary64.round (76500 - env.wordRaceWindowMs)

/-- The time in which rounds may open. -/
def spanMs (env : Env) : ℚ := Binary64.round (env.lastOpenMs - 9000)

/-- The openings that are wanted and fit. -/
def openings (env : Env) : ℚ :=
  min env.wordRaceRounds (Binary64.round (⌊Binary64.round (env.spanMs / env.stepMs)⌋ + 1))

/-- The time that the gaps between the openings take. -/
def gapsMs (env : Env) : ℚ := Binary64.round (Binary64.round (env.openings - 1) * env.stepMs)

/-- The length below which the random source is asked for a point. -/
def drawMs (env : Env) : ℚ := Binary64.round (Binary64.round (env.spanMs - env.gapsMs) + 1)

/-- The latest opening of a round. There are at most as many rounds as words. -/
def lastOpeningMs (env : Env) : ℚ :=
  Binary64.round (Binary64.round (9000 + (env.drawMs - 1)) +
    Binary64.round ((min ⌊env.openings⌋ WORD_RACE_WORDS.length - 1 : ℤ) * env.stepMs))

/-- The latest end of a round, of a battle that the command at `now` starts. -/
def lastClose (env : Env) (now : Instant) : Date :=
  closing .double (now.add env.battleStartCountdownMs) env.lastOpeningMs env.wordRaceWindowMs

/-- No round is wanted, no opening fits, or points are drawn below a whole number above 0, the array
of the openings is not too long and the rounds end at a valid date. -/
def WordRaceWorks (env : Env) (rt : Runtime) (now : Instant) : Prop :=
  env.wordRaceRounds = 0 ∨ env.lastOpenMs < 9000 ∨
    (0 < env.drawMs ∧ env.drawMs.isInt = true) ∧ env.openings ≤ rt.maxArrayLength ∧
      (env.lastClose now).Valid

end Env

/-! ### The openings of a song of the catalogue -/

theorem durationSeconds_of_mem (h : song ∈ SONG_CATALOG) : song.durationSeconds = 90 := by
  have hall : ∀ song ∈ SONG_CATALOG, song.durationSeconds = 90 := by decide +kernel
  exact hall song h

theorem songMs_eq (hsong : battle.song = some song) (hcatalog : song ∈ SONG_CATALOG) :
    env.planOptions.songMs .double battle = 90000 := by
  have hsongMs : Binary64.round (90 * 1000) = 90000 := by decide +kernel
  simp only [PlanWordRaceOptions.songMs, hsong, durationSeconds_of_mem hcatalog]
  exact hsongMs

theorem first_eq : env.planOptions.first .double 90000 = 9000 := by
  have hceil : (Binary64.round (90000 * DEFAULT_WORD_START_MARGIN_RATIO)).ceil = 9000 := by
    decide +kernel
  exact congrArg ((↑) : ℤ → ℚ) hceil

theorem lastOpen_eq : env.planOptions.lastOpen .double 90000 = env.lastOpenMs := by
  have hfloor : (Binary64.round (90000 * DEFAULT_WORD_END_MARGIN_RATIO)).floor = 76500 := by
    decide +kernel
  exact congrArg (fun z : ℤ => Binary64.round (z - env.wordRaceWindowMs)) hfloor

theorem span_eq : env.planOptions.span .double 90000 = env.spanMs := by
  rw [PlanWordRaceOptions.span, first_eq, lastOpen_eq]
  rfl

theorem stepMs_pos (hvalid : env.Valid) : 0 < env.stepMs :=
  lt_max_of_lt_right hvalid.wordRaceWindowMs.lower

theorem count_eq_openings (hvalid : env.Valid) :
    env.planOptions.count .double 90000 = env.openings := by
  rw [PlanWordRaceOptions.count, span_eq, roundCount]
  exact if_neg (stepMs_pos hvalid).ne'

theorem draw_eq (hvalid : env.Valid) :
    Numerics.double.round (env.planOptions.slack .double 90000 + 1) = env.drawMs := by
  rw [PlanWordRaceOptions.slack, span_eq, count_eq_openings hvalid]
  rfl

theorem offset_eq (index point : ℕ) : env.planOptions.offset .double 90000 index point =
    Binary64.round (Binary64.round (9000 + point) + Binary64.round (index * env.stepMs)) := by
  rw [PlanWordRaceOptions.offset, first_eq]
  rfl

theorem has_opening (hrounds : 0 < env.wordRaceRounds) (hlong : 9000 ≤ env.lastOpenMs) :
    ¬(env.planOptions.rounds ≤ 0 ∨
      env.planOptions.lastOpen .double 90000 < env.planOptions.first .double 90000) := by
  rw [first_eq, lastOpen_eq]
  rintro (h | h)
  · exact absurd hrounds (not_lt.mpr h)
  · exact absurd hlong (not_le.mpr h)

/-- Of the openings that are wanted, one fits. -/
theorem one_le_openings (hvalid : env.Valid) (hrounds : 0 < env.wordRaceRounds)
    (hlong : 9000 ≤ env.lastOpenMs) : 1 ≤ env.openings := by
  have hwhole : env.wordRaceRounds = env.wordRaceRounds.num :=
    (Rat.coe_int_num_of_den_eq_one
      (by simpa [Rat.isInt] using hvalid.wordRaceRounds.whole rfl)).symm
  refine le_min ?_ ?_
  · rw [hwhole] at hrounds ⊢
    exact_mod_cast Int.add_one_le_iff.mpr (Int.cast_pos.mp hrounds)
  · have hspan : 0 ≤ env.spanMs := Binary64.round_nonneg (by linarith)
    have hfloor : 0 ≤ ⌊Binary64.round (env.spanMs / env.stepMs)⌋ :=
      Int.floor_nonneg.mpr (Binary64.round_nonneg (div_nonneg hspan (stepMs_pos hvalid).le))
    have hfloor' : (0 : ℚ) ≤ ⌊Binary64.round (env.spanMs / env.stepMs)⌋ := by exact_mod_cast hfloor
    exact_mod_cast Binary64.intCast_le_round (n := 1) (by norm_num) (by push_cast; linarith)

/-! ### Drawing -/

/-- The source that always picks the last position. -/
def lastIndex : RandomIndex := ⟨fun n h => ⟨n - 1, Nat.sub_one_lt h.ne'⟩⟩

/-- An index is drawn below a whole number above 0 only. -/
theorem isInt_of_draw {random : RandomIndex} {length : ℚ} {index : ℕ}
    (h : random.draw length = .ok index) : 0 < length ∧ length.isInt = true := by
  unfold RandomIndex.draw at h
  split at h
  next hlength =>
    have hfloor : (0 : ℚ) < length.floor := by exact_mod_cast hlength.1
    exact ⟨hfloor.trans_le (Int.floor_le length), hlength.2⟩
  next => simp at h

/-- The first of several draws that all succeed. -/
theorem isInt_of_mapM_draw {n : ℕ} {length : ℚ} {points : List ℕ} (hn : 0 < n)
    (h : (List.range n).mapM (fun k => (random k).draw length) = .ok points) :
    0 < length ∧ length.isInt = true := by
  obtain ⟨m, rfl⟩ := Nat.exists_eq_succ_of_ne_zero hn.ne'
  rw [List.range_succ_eq_map, List.mapM_cons] at h
  obtain ⟨index, hindex, -⟩ := bind_eq_ok.mp h
  exact isInt_of_draw hindex

/-- Drawing the last index each time puts every point at the end of the slack. -/
theorem mapM_draw_lastIndex (slack n : ℕ) :
    (List.range n).mapM (fun _ => lastIndex.draw (slack + 1)) = .ok (List.replicate n slack) := by
  have hlast : lastIndex.draw (slack + 1) = .ok slack := draw_natCast lastIndex slack
  rw [hlast]
  refine (List.mapM_pure (m := Except JsError) (f := fun _ : ℕ => slack)).trans ?_
  rw [List.map_const', List.length_range]
  rfl

/-- A whole number above 0 is one more than a natural number. -/
theorem exists_eq_natCast_add_one {q : ℚ} (hpos : 0 < q) (hint : q.isInt = true) :
    ∃ n : ℕ, q = n + 1 := by
  have hden : q.den = 1 := by simpa [Rat.isInt] using hint
  obtain ⟨n, hn⟩ := Int.eq_ofNat_of_zero_le (Int.sub_nonneg_of_le (Rat.num_pos.mpr hpos))
  refine ⟨n, ?_⟩
  rw [← Rat.coe_int_num_of_den_eq_one hden]
  exact_mod_cast (eq_add_of_sub_eq hn)

section Planned

variable (hvalid : env.Valid) (hrounds : 0 < env.wordRaceRounds) (hlong : 9000 ≤ env.lastOpenMs)

include hvalid hrounds hlong

theorem openings_pos : 0 < env.openings.floor.toNat := by
  have hfloor : 1 ≤ env.openings.floor := Int.le_floor.mpr (by
    exact_mod_cast one_le_openings hvalid hrounds hlong)
  omega

/-- The points of a plan are drawn below a whole number above 0. -/
theorem isInt_drawMs (h : randomOffsets .double 90000 env.planOptions random = .ok planned) :
    0 < env.drawMs ∧ env.drawMs.isInt = true := by
  rw [randomOffsets_eq, if_neg (has_opening hrounds hlong), count_eq_openings hvalid,
    draw_eq hvalid] at h
  obtain ⟨points, hpoints, -⟩ := bind_eq_ok.mp h
  exact isInt_of_mapM_draw (openings_pos hvalid hrounds hlong) hpoints

/-- The openings of a plan: there are as many as fit, each at a point of the slack. -/
theorem exists_points {slack : ℕ} (hdraw : env.drawMs = slack + 1) (random : ℕ → RandomIndex) :
    ∃ points : List ℕ, points.length = env.openings.floor.toNat ∧
      (∀ point ∈ points, point ≤ slack) ∧
      randomOffsets .double 90000 env.planOptions random =
        .ok (points.mapIdx (env.planOptions.offset .double 90000)) := by
  obtain ⟨hsome, hroom⟩ := not_or.mp (has_opening hrounds hlong)
  obtain ⟨points, hlength, -, hle, hplanned⟩ := @randomOffsets_of_slack _ random _ _ _
    (not_le.mp hsome) (not_lt.mp hroom) ((draw_eq hvalid).trans hdraw)
  rw [count_eq_openings hvalid] at hlength
  exact ⟨points, hlength, hle, hplanned⟩

/-- The openings when every point is at the end of the slack. -/
theorem randomOffsets_lastIndex {slack : ℕ} (hdraw : env.drawMs = slack + 1) :
    randomOffsets .double 90000 env.planOptions (fun _ => lastIndex) =
      .ok ((List.replicate env.openings.floor.toNat slack).mapIdx
        (env.planOptions.offset .double 90000)) := by
  have hsorted : (List.replicate env.openings.floor.toNat slack).insertionSort (· ≤ ·) =
      List.replicate env.openings.floor.toNat slack :=
    List.perm_replicate.mp (List.perm_insertionSort _ _)
  rw [randomOffsets_eq, if_neg (has_opening hrounds hlong), count_eq_openings hvalid,
    draw_eq hvalid, hdraw, mapM_draw_lastIndex]
  refine congrArg Except.ok ?_
  rw [hsorted]

end Planned

/-! ### How late a round ends

Each rounding adds less than 1 to a number below `2 ^ 53`, so the openings overrun the end margin of
the song by a few milliseconds only. -/

section Late

variable {slack : ℕ}

/-- A sum that is rounded to a number above `-1` is above `-1`. -/
theorem neg_one_lt_of_round {x : ℚ} (h : -1 < Binary64.round x) : -1 < x := by
  refine not_le.mp fun hle => absurd h (not_lt.mpr ?_)
  exact_mod_cast Binary64.round_le_intCast (n := -1) (by norm_num) (by exact_mod_cast hle)

theorem round_le_add_one_of_mem {x : ℚ} (hlower : -100000 ≤ x) (hupper : x ≤ 100000) :
    Binary64.round x ≤ x + 1 :=
  Binary64.round_le_add_one (abs_le.mpr ⟨by linarith, by linarith⟩)

/-- The latest opening leaves the window before the end margin, but for one rounding. -/
theorem lastOpenMs_le (hvalid : env.Valid) (hlong : 9000 ≤ env.lastOpenMs) :
    env.lastOpenMs ≤ 76500 ∧ env.lastOpenMs + env.wordRaceWindowMs ≤ 76501 := by
  have hwindow : 0 < env.wordRaceWindowMs := hvalid.wordRaceWindowMs.lower
  have hpos : 0 < 76500 - env.wordRaceWindowMs := by
    refine not_le.mp fun hle => ?_
    have hround : env.lastOpenMs ≤ 0 := Binary64.round_nonpos hle
    linarith
  have hround : env.lastOpenMs ≤ 76500 - env.wordRaceWindowMs + 1 :=
    round_le_add_one_of_mem (by linarith) (by linarith)
  refine ⟨?_, by linarith⟩
  exact_mod_cast Binary64.round_le_intCast (n := 76500) (by norm_num) (by push_cast; linarith)

/-- The gaps and the slack fit into the time in which rounds may open, but for three roundings. -/
theorem gapsMs_add_slack_le (hvalid : env.Valid) (hrounds : 0 < env.wordRaceRounds)
    (hlong : 9000 ≤ env.lastOpenMs) (hdraw : env.drawMs = slack + 1) :
    0 ≤ env.gapsMs ∧ env.gapsMs + slack ≤ env.lastOpenMs - 9000 + 3 := by
  obtain ⟨hlast, -⟩ := lastOpenMs_le hvalid hlong
  have hgaps : 0 ≤ env.gapsMs := by
    refine Binary64.round_nonneg (mul_nonneg (Binary64.round_nonneg ?_) (stepMs_pos hvalid).le)
    linarith [one_le_openings hvalid hrounds hlong]
  have hspan : env.spanMs ≤ env.lastOpenMs - 9000 + 1 :=
    round_le_add_one_of_mem (by linarith) (by linarith)
  have hslack : (0 : ℚ) ≤ slack := Nat.cast_nonneg _
  -- The length of the draw is at least 1, so neither the slack nor what is rounded to it is `-1`.
  have hleft : -1 < Binary64.round (env.spanMs - env.gapsMs) := by
    refine not_le.mp fun hle => ?_
    have hround : env.drawMs ≤ 0 := Binary64.round_nonpos (by linarith)
    linarith
  have hleft' := neg_one_lt_of_round hleft
  have hround : Binary64.round (env.spanMs - env.gapsMs) ≤ env.spanMs - env.gapsMs + 1 :=
    round_le_add_one_of_mem (by linarith) (by linarith)
  have hdraw' : env.drawMs ≤ Binary64.round (env.spanMs - env.gapsMs) + 1 + 1 :=
    round_le_add_one_of_mem (by linarith) (by linarith)
  exact ⟨hgaps, by linarith⟩

/-- A round opens after the start of the song, and its window is over before the end. -/
theorem offset_mem (hvalid : env.Valid) (hrounds : 0 < env.wordRaceRounds)
    (hlong : 9000 ≤ env.lastOpenMs) (hdraw : env.drawMs = slack + 1) {index point : ℕ}
    (hindex : index < env.openings.floor.toNat) (hwords : index < WORD_RACE_WORDS.length)
    (hpoint : point ≤ slack) :
    0 ≤ env.planOptions.offset .double 90000 index point ∧
      env.planOptions.offset .double 90000 index point + env.wordRaceWindowMs ≤ 76505 := by
  obtain ⟨hlast, hwindow⟩ := lastOpenMs_le hvalid hlong
  obtain ⟨hgaps, hslack⟩ := gapsMs_add_slack_le hvalid hrounds hlong hdraw
  have hwindow0 : 0 < env.wordRaceWindowMs := hvalid.wordRaceWindowMs.lower
  have hstep : 0 ≤ env.stepMs := (stepMs_pos hvalid).le
  have hpoint' : (point : ℚ) ≤ slack := by exact_mod_cast hpoint
  have hpoint0 : (0 : ℚ) ≤ point := Nat.cast_nonneg _
  have hfirst : Binary64.round (9000 + point) = 9000 + point := by
    have habs : |(9000 + point : ℤ)| ≤ 2 ^ 53 := by
      have hsmall : (9000 + point : ℚ) ≤ 100000 := by linarith
      have hsmall' : (9000 + point : ℤ) ≤ 100000 := by exact_mod_cast hsmall
      rw [abs_of_nonneg (by positivity)]
      linarith
    exact_mod_cast Binary64.round_intCast habs
  -- The gaps before an opening are at most the gaps between all of them.
  have hbefore : Binary64.round (index * env.stepMs) ≤ env.gapsMs := by
    have hle : (index : ℚ) ≤ Binary64.round (env.openings - 1) := by
      have habs : |(index : ℤ)| ≤ 2 ^ 53 := by
        have hlength : WORD_RACE_WORDS.length ≤ 2 ^ 53 := by decide +kernel
        rw [Nat.abs_cast]
        exact_mod_cast (hwords.le.trans hlength)
      have hfloor : (index : ℤ) + 1 ≤ env.openings.floor := by omega
      have hfloor' : ((index + 1 : ℤ) : ℚ) ≤ env.openings := Int.le_floor.mp hfloor
      push_cast at hfloor'
      exact_mod_cast Binary64.intCast_le_round habs (by push_cast; linarith)
    exact Binary64.round_mono (mul_le_mul_of_nonneg_right hle hstep)
  have hbefore0 : 0 ≤ Binary64.round (index * env.stepMs) :=
    Binary64.round_nonneg (mul_nonneg (Nat.cast_nonneg _) hstep)
  rw [offset_eq, hfirst]
  refine ⟨Binary64.round_nonneg (by linarith), ?_⟩
  have hround := round_le_add_one_of_mem
    (x := 9000 + point + Binary64.round (index * env.stepMs)) (by linarith) (by linarith)
  linarith

end Late

/-- The rounds of a race lie inside a song of 90 seconds that starts at `startedAt`. -/
def InsideSong (startedAt : Instant) (round : WordRound) : Prop :=
  ∃ opens closes : ℚ, round.opensAt = Numerics.double.date opens ∧
    round.closesAt = Numerics.double.date closes ∧
    startedAt ≤ opens ∧ opens ≤ closes ∧ closes ≤ startedAt + 90000

/-- A window that is over in time opens and closes inside the song. -/
theorem closing_le {startedAt : Instant} (hstart : |startedAt| ≤ MAX_TIME_VALUE) {ms windowMs : ℚ}
    (hms : 0 ≤ ms) (hwindow : 0 ≤ windowMs) (hlate : ms + windowMs ≤ 76505) :
    startedAt ≤ Binary64.round (startedAt + ms) ∧
      Binary64.round (startedAt + ms) ≤
        Binary64.round (Binary64.round (startedAt + ms) + windowMs) ∧
      Binary64.round (Binary64.round (startedAt + ms) + windowMs) ≤ startedAt + 90000 := by
  obtain ⟨hlower, hupper⟩ := abs_le.mp hstart
  have hlower' : (-8640000000000000 : ℚ) ≤ startedAt := by exact_mod_cast hlower
  have hupper' : (startedAt : ℚ) ≤ 8640000000000000 := by exact_mod_cast hupper
  have hsmall : |startedAt| ≤ 2 ^ 53 := hstart.trans (by decide)
  have hopens : Binary64.round (startedAt + ms) ≤ startedAt + ms + 1 :=
    Binary64.round_le_add_one (abs_le.mpr ⟨by linarith, by linarith⟩)
  have hend : |startedAt + 90000| ≤ 2 ^ 53 := by
    simp only [MAX_TIME_VALUE] at hlower hupper
    exact abs_le.mpr ⟨by linarith, by linarith⟩
  refine ⟨Binary64.intCast_le_round hsmall (by linarith), ?_, ?_⟩
  · calc Binary64.round (startedAt + ms) = Binary64.round (Binary64.round (startedAt + ms)) :=
          (Binary64.round_round _).symm
      _ ≤ _ := Binary64.round_mono (by linarith)
  · exact_mod_cast Binary64.round_le_intCast hend (by push_cast; linarith)

/-! ### The rounds -/

/-- The rounds of a plan are the first of its openings, one for each word that was picked. -/
theorem exists_round (battle : Battle) (windowMs : ℚ) (random : ℕ → RandomIndex) {i : ℕ}
    (hi : i < min planned.length WORD_RACE_WORDS.length) :
    ∃ round ∈ ((pickDistinct planned.length WORD_RACE_WORDS random).zip planned).mapIdx
        (scheduledRound .double battle windowMs),
      ∃ h : i < planned.length,
        round.closesAt = closing .double battle.startedAt planned[i] windowMs := by
  have hplanned : i < planned.length := hi.trans_le (min_le_left _ _)
  have hzip : i < ((pickDistinct planned.length WORD_RACE_WORDS random).zip planned).length := by
    rw [List.length_zip, length_pickDistinct]
    omega
  refine ⟨_, List.getElem_mem (by rwa [List.length_mapIdx]), hplanned, ?_⟩
  rw [List.getElem_mapIdx, List.getElem_zip]
  rfl

theorem exists_index_of_mem {windowMs : ℚ} {random : ℕ → RandomIndex}
    (hround : round ∈ ((pickDistinct planned.length WORD_RACE_WORDS random).zip planned).mapIdx
      (scheduledRound .double battle windowMs)) :
    ∃ i, i < WORD_RACE_WORDS.length ∧ ∃ h : i < planned.length,
      round.opensAt = opening .double battle.startedAt planned[i] ∧
      round.closesAt = closing .double battle.startedAt planned[i] windowMs := by
  obtain ⟨i, hi, rfl⟩ := List.mem_mapIdx.mp hround
  have hi' := hi
  rw [List.length_zip, length_pickDistinct] at hi'
  refine ⟨i, by omega, by omega, ?_⟩
  rw [List.getElem_zip]
  exact ⟨rfl, rfl⟩

section Works

variable (hvalid : env.Valid) (hsong : battle.song = some song) (hcatalog : song ∈ SONG_CATALOG)

/-- The rounds of openings at points of a slack lie inside the song. -/
theorem insideSong_of_points {startedAt : Instant} (hstart : battle.startedAt = .at startedAt)
    (htime : |startedAt| ≤ MAX_TIME_VALUE) (hvalid : env.Valid) (hrounds : 0 < env.wordRaceRounds)
    (hlong : 9000 ≤ env.lastOpenMs) {slack : ℕ} (hdraw : env.drawMs = slack + 1)
    {points : List ℕ} (hlength : points.length = env.openings.floor.toNat)
    (hle : ∀ point ∈ points, point ≤ slack)
    (hplanned : planned = points.mapIdx (env.planOptions.offset .double 90000))
    (hround : round ∈ ((pickDistinct planned.length WORD_RACE_WORDS random).zip planned).mapIdx
      (scheduledRound .double battle env.wordRaceWindowMs)) :
    InsideSong startedAt round := by
  obtain ⟨i, hwords, hi, hopens, hcloses⟩ := exists_index_of_mem hround
  subst hplanned
  have hpoints : i < points.length := by simpa using hi
  rw [List.getElem_mapIdx, hstart] at hopens hcloses
  obtain ⟨hms, hlate⟩ := offset_mem hvalid hrounds hlong hdraw (hlength ▸ hpoints) hwords
    (hle _ (List.getElem_mem hpoints))
  exact ⟨_, _, hopens, hcloses, closing_le htime hms hvalid.wordRaceWindowMs.lower.le hlate⟩

include hvalid hsong hcatalog in
/-- The rounds of a plan lie inside the song. -/
theorem insideSong_of_plan (hbattle : room.battle = some battle)
    (hplan : plan .double rt room env.planOptions random = .ok race) {startedAt : Instant}
    (hstart : battle.startedAt = .at startedAt) (htime : |startedAt| ≤ MAX_TIME_VALUE)
    (hround : round ∈ race.rounds) : InsideSong startedAt round := by
  obtain ⟨-, _, hstatus, -⟩ := plan_eq_ok hplan
  obtain ⟨planned, hplanned, hrace⟩ := randomOffsets_of_plan hstatus hbattle rfl hplan
  rw [songMs_eq hsong hcatalog] at hplanned
  rw [hrace] at hround
  by_cases hnone : env.planOptions.rounds ≤ 0 ∨
      env.planOptions.lastOpen .double 90000 < env.planOptions.first .double 90000
  · rw [randomOffsets_eq, if_pos hnone] at hplanned
    obtain rfl := Except.ok.inj hplanned
    simp at hround
  obtain ⟨hsome, hroom⟩ := not_or.mp hnone
  have hrounds : 0 < env.wordRaceRounds := not_le.mp hsome
  have hlong : 9000 ≤ env.lastOpenMs := by
    rw [first_eq, lastOpen_eq] at hroom
    exact not_lt.mp hroom
  obtain ⟨hpos, hint⟩ := isInt_drawMs hvalid hrounds hlong hplanned
  obtain ⟨slack, hdraw⟩ := exists_eq_natCast_add_one hpos hint
  obtain ⟨points, hlength, hle, hpoints⟩ := exists_points hvalid hrounds hlong hdraw random
  exact insideSong_of_points hstart htime hvalid hrounds hlong hdraw hlength hle
    (Except.ok.inj (hplanned.symm.trans hpoints)) hround

variable (hstatus : room.status = .battling) (hbattle : room.battle = some battle)
  (hstarted : battle.startedAt = now.add env.battleStartCountdownMs)

include hsong hcatalog hstatus hbattle in
/-- Without openings there is nothing that could fail. -/
theorem plans_of_no_opening (hnone : env.planOptions.rounds ≤ 0 ∨
    env.planOptions.lastOpen .double 90000 < env.planOptions.first .double 90000) :
    env.Plans rt room battle random := by
  have hsongMs : env.planOptions.songMs .double battle = 90000 := songMs_eq hsong hcatalog
  have hplanned : randomOffsets .double (env.planOptions.songMs .double battle) env.planOptions
      random = .ok [] := by
    rw [hsongMs, randomOffsets_eq, if_pos hnone]
  obtain ⟨race, hplan, hrounds⟩ := exists_plan_of_randomOffsets rt hstatus hbattle rfl hplanned
  refine ⟨?_, race, hplan, ?_⟩
  · rw [hsongMs, drawn, if_pos hnone]
    exact Nat.cast_nonneg _
  · rw [hrounds]
    simp

theorem lastClose_eq (hstarted : battle.startedAt = now.add env.battleStartCountdownMs)
    {startedAt : Instant} (hstart : battle.startedAt = .at startedAt) :
    env.lastClose now = Numerics.double.date (Binary64.round
      (Binary64.round (startedAt + env.lastOpeningMs) + env.wordRaceWindowMs)) := by
  rw [Env.lastClose, ← hstarted, hstart]
  rfl

/-- The opening with the most gaps before it and all the slack is the latest one. -/
theorem offset_le_lastOpeningMs (hvalid : env.Valid) {slack index point : ℕ}
    (hdraw : env.drawMs = slack + 1) (hindex : index < env.openings.floor.toNat)
    (hwords : index < WORD_RACE_WORDS.length) (hpoint : point ≤ slack) :
    env.planOptions.offset .double 90000 index point ≤ env.lastOpeningMs := by
  have hpoint' : (point : ℚ) ≤ env.drawMs - 1 := by
    rw [hdraw]
    have h : (point : ℚ) ≤ slack := by exact_mod_cast hpoint
    linarith
  have hindex' : (index : ℚ) ≤ (min ⌊env.openings⌋ WORD_RACE_WORDS.length - 1 : ℤ) := by
    have h : (index : ℤ) ≤ min env.openings.floor WORD_RACE_WORDS.length - 1 := by omega
    exact_mod_cast h
  rw [offset_eq, Env.lastOpeningMs]
  refine Binary64.round_mono (add_le_add (Binary64.round_mono ?_) (Binary64.round_mono ?_))
  · linarith
  · exact mul_le_mul_of_nonneg_right hindex' (stepMs_pos hvalid).le

/-- With the last word of a plan whose points are all at the end of the slack, the bound is
reached. -/
theorem offset_eq_lastOpeningMs {slack : ℕ} (hdraw : env.drawMs = slack + 1)
    (hpos : 0 < env.openings.floor.toNat) :
    env.planOptions.offset .double 90000
      (min env.openings.floor.toNat WORD_RACE_WORDS.length - 1) slack = env.lastOpeningMs := by
  have hwords : 0 < WORD_RACE_WORDS.length := by decide +kernel
  have hindex : ((min env.openings.floor.toNat WORD_RACE_WORDS.length - 1 : ℕ) : ℤ) =
      min env.openings.floor WORD_RACE_WORDS.length - 1 := by omega
  have hindex' : ((min env.openings.floor.toNat WORD_RACE_WORDS.length - 1 : ℕ) : ℚ) =
      (min ⌊env.openings⌋ WORD_RACE_WORDS.length - 1 : ℤ) := by exact_mod_cast hindex
  rw [offset_eq, Env.lastOpeningMs, hdraw, add_sub_cancel_right, hindex']

include hvalid hsong hcatalog hstatus hbattle hstarted in
/-- Points that are drawn below a whole number and rounds that end at a valid date make a plan. -/
theorem plans_of_draw (hrounds : 0 < env.wordRaceRounds) (hlong : 9000 ≤ env.lastOpenMs)
    (hdraw : 0 < env.drawMs ∧ env.drawMs.isInt = true) (harray : env.openings ≤ rt.maxArrayLength)
    (hlast : (env.lastClose now).Valid) : env.Plans rt room battle random := by
  have hsongMs : env.planOptions.songMs .double battle = 90000 := songMs_eq hsong hcatalog
  obtain ⟨slack, hslack⟩ := exists_eq_natCast_add_one hdraw.1 hdraw.2
  obtain ⟨points, hlength, hle, hplanned⟩ := exists_points hvalid hrounds hlong hslack random
  rw [← hsongMs] at hplanned
  obtain ⟨race, hplan, hrace⟩ := exists_plan_of_randomOffsets rt hstatus hbattle rfl hplanned
  refine ⟨?_, race, hplan, fun round hround => ?_⟩
  · rw [hsongMs, drawn, if_neg (has_opening hrounds hlong), count_eq_openings hvalid]
    exact harray
  obtain ⟨startedAt, hstart, htime⟩ : ∃ startedAt : Instant,
      battle.startedAt = .at startedAt ∧ |startedAt| ≤ MAX_TIME_VALUE := by
    rcases hstart : battle.startedAt with startedAt | _
    · exact ⟨startedAt, rfl, Numerics.abs_le_of_date (hstarted.symm.trans hstart)⟩
    · rw [Env.lastClose, ← hstarted, hstart] at hlast
      exact absurd hlast Date.not_valid_invalid
  rw [hrace, hsongMs] at hround
  obtain ⟨i, hwords, hi, hopens, hcloses⟩ := exists_index_of_mem hround
  have hi' : i < points.length := by simpa using hi
  rw [List.getElem_mapIdx, hstart] at hopens hcloses
  obtain ⟨hms, hlate⟩ := offset_mem hvalid hrounds hlong hslack (hlength ▸ hi') hwords
    (hle _ (List.getElem_mem hi'))
  have hle' := offset_le_lastOpeningMs hvalid hslack (hlength ▸ hi') hwords
    (hle _ (List.getElem_mem hi'))
  obtain ⟨hfrom, hwindow, hend⟩ :=
    closing_le htime hms hvalid.wordRaceWindowMs.lower.le hlate
  -- The round closes before the latest one, whose date is valid.
  have hcloses' : (Numerics.double.date (Binary64.round (Binary64.round (startedAt +
      env.planOptions.offset .double 90000 i points[i]) + env.wordRaceWindowMs))).Valid := by
    rw [lastClose_eq hstarted hstart] at hlast
    refine Numerics.valid_of_between htime (hfrom.trans hwindow) ?_ hlast
    exact Binary64.round_mono (by gcongr; exact Binary64.round_mono (by gcongr))
  have hopens' := Numerics.valid_of_between htime hfrom hwindow hcloses'
  have hclosesMs := Numerics.ms_date_le (n := startedAt + 90000) (by exact_mod_cast hend) hcloses'
  refine ⟨hopens ▸ hopens', hcloses ▸ hcloses', ?_, ?_⟩
  · rw [hopens, hstart]
    exact Numerics.at_le_date hfrom hopens'
  · rw [hcloses, hstart, hsongMs]
    exact_mod_cast hclosesMs

include hvalid hsong hcatalog hstatus hbattle hstarted in
/-- The round that ends last, when every point is at the end of the slack. -/
theorem lastClose_valid (hrounds : 0 < env.wordRaceRounds) (hlong : 9000 ≤ env.lastOpenMs)
    (hdraw : 0 < env.drawMs ∧ env.drawMs.isInt = true)
    (h : env.Plans rt room battle fun _ => lastIndex) : (env.lastClose now).Valid := by
  obtain ⟨slack, hslack⟩ := exists_eq_natCast_add_one hdraw.1 hdraw.2
  obtain ⟨race, hplan, hvalidRounds⟩ := h.plan
  obtain ⟨planned, hplanned, hrace⟩ := randomOffsets_of_plan hstatus hbattle rfl hplan
  rw [songMs_eq hsong hcatalog, randomOffsets_lastIndex hvalid hrounds hlong hslack] at hplanned
  obtain rfl := Except.ok.inj hplanned
  have hpos := openings_pos hvalid hrounds hlong
  have hwords : 0 < WORD_RACE_WORDS.length := by decide +kernel
  have hindex : min env.openings.floor.toNat WORD_RACE_WORDS.length - 1 <
      min ((List.replicate env.openings.floor.toNat slack).mapIdx
        (env.planOptions.offset .double 90000)).length WORD_RACE_WORDS.length := by
    rw [List.length_mapIdx, List.length_replicate]
    omega
  obtain ⟨round, hround, hi, hcloses⟩ :=
    exists_round battle env.planOptions.windowMs (fun _ => lastIndex) hindex
  have hlast : round.closesAt = env.lastClose now := by
    rw [hcloses, List.getElem_mapIdx, List.getElem_replicate, offset_eq_lastOpeningMs hslack hpos,
      hstarted]
    rfl
  rw [← hlast]
  exact (hvalidRounds round (hrace ▸ hround)).2.1

end Works

/-- An accepted configuration plans the word race of every battle with a song of the catalogue
exactly when no opening is wanted or fits, or the points are drawn below a whole number, the
openings are not too many for an array and they end at a valid date. -/
theorem plans_iff (rt : Runtime) {source : Source} (henv : loadEnv source = .ok env)
    (hstatus : room.status = .battling) (hbattle : room.battle = some battle)
    (hsong : battle.song = some song) (hcatalog : song ∈ SONG_CATALOG)
    (hstarted : battle.startedAt = now.add env.battleStartCountdownMs) :
    (∀ random, env.Plans rt room battle random) ↔ env.WordRaceWorks rt now := by
  have hvalid := loadEnv_valid henv
  have hrounds0 : 0 ≤ env.wordRaceRounds := hvalid.wordRaceRounds.lower
  constructor
  · intro h
    by_cases hzero : env.wordRaceRounds = 0
    · exact Or.inl hzero
    by_cases hshort : env.lastOpenMs < 9000
    · exact Or.inr (Or.inl hshort)
    have hrounds : 0 < env.wordRaceRounds := lt_of_le_of_ne hrounds0 (Ne.symm hzero)
    have hlong := not_lt.mp hshort
    obtain ⟨race, hplan, -⟩ := (h fun _ => lastIndex).plan
    obtain ⟨planned, hplanned, -⟩ := randomOffsets_of_plan hstatus hbattle rfl hplan
    rw [songMs_eq hsong hcatalog] at hplanned
    have hdraw := isInt_drawMs hvalid hrounds hlong hplanned
    have harray := (h fun _ => lastIndex).array
    rw [songMs_eq hsong hcatalog, drawn, if_neg (has_opening hrounds hlong),
      count_eq_openings hvalid] at harray
    exact Or.inr (Or.inr ⟨hdraw, harray, lastClose_valid hvalid hsong hcatalog hstatus hbattle
      hstarted hrounds hlong hdraw (h fun _ => lastIndex)⟩)
  · intro hworks random
    by_cases hnone : env.planOptions.rounds ≤ 0 ∨
        env.planOptions.lastOpen .double 90000 < env.planOptions.first .double 90000
    · exact plans_of_no_opening hsong hcatalog hstatus hbattle hnone
    obtain ⟨hsome, hroom⟩ := not_or.mp hnone
    have hrounds : 0 < env.wordRaceRounds := not_le.mp hsome
    have hlong : 9000 ≤ env.lastOpenMs := by
      rw [first_eq, lastOpen_eq] at hroom
      exact not_lt.mp hroom
    rcases hworks with hzero | hshort | ⟨hdraw, harray, hlast⟩
    · exact absurd hzero hrounds.ne'
    · exact absurd hlong (not_le.mpr hshort)
    · exact plans_of_draw hvalid hsong hcatalog hstatus hbattle hstarted hrounds hlong hdraw harray
        hlast

/-- The settings when nothing is configured. -/
def defaultEnv : Env where
  port := 3000
  corsOrigin := js "http://localhost:5173"
  usersServiceUrl := js "http://localhost:8081"
  disconnectGraceMs := 15000
  pagehideGraceMs := 3000
  songChallengeMs := 15000
  songChooseMs := 20000
  battleStartCountdownMs := 5000
  wordRaceRounds := 3
  wordRaceWindowMs := 10000
  wordRaceMinGapMs := 12000
  votePoints := 2
  wordBonusPoints := 1
  wordRaceFallbackDurationMs := 90000

theorem loadEnv_default : loadEnv (fun _ => none) = .ok defaultEnv := rfl

theorem plans_iff_default :
    (∀ random, defaultEnv.Plans .ascii sampleRaceRoom WordRaceService.sampleRace random) ↔
      defaultEnv.WordRaceWorks .ascii (-2000) :=
  plans_iff .ascii loadEnv_default rfl rfl rfl (List.mem_cons_self ..) (by decide +kernel)

example : defaultEnv.drawMs = 33501 ∧ defaultEnv.openings = 3 ∧
    defaultEnv.lastClose (-2000) = 79500 := by decide +kernel

/-- A window of ten seconds and half a millisecond. -/
def fractionalWindow : Source := fun name =>
  if name = js "WORD_RACE_WINDOW_MS" then some (js "10000.5") else none

/-- A fraction in the window is accepted at startup, and then no battle has a word race. -/
theorem not_plans_fractionalWindow : ¬∀ (source : Source) (env : Env) (room : Room)
    (battle : Battle) (song : Song) (now : Instant), loadEnv source = .ok env →
      room.status = .battling → room.battle = some battle → battle.song = some song →
      song ∈ SONG_CATALOG → battle.startedAt = now.add env.battleStartCountdownMs →
      ∀ random, env.Plans .ascii room battle random := by
  intro h
  have henv : loadEnv fractionalWindow = .ok { defaultEnv with wordRaceWindowMs := 20001 / 2 } := by
    decide +kernel
  obtain ⟨race, hplan, -⟩ := (h fractionalWindow _ sampleRaceRoom WordRaceService.sampleRace _
    (-2000) henv rfl rfl rfl (List.mem_cons_self ..) (by decide +kernel) fun _ => .first).plan
  have hfails : (plan .double .ascii sampleRaceRoom
      ({ defaultEnv with wordRaceWindowMs := 20001 / 2 } : Env).planOptions
        fun _ => .first).isOk = false := by decide +kernel
  rw [hplan] at hfails
  exact absurd hfails (by rintro ⟨⟩)

/-- A window whose openings add up to whole milliseconds only without rounding. -/
example : ({ defaultEnv with
      wordRaceRounds := 10
      wordRaceWindowMs := Binary64.round (67001 / 10)
      wordRaceMinGapMs := 0 } : Env).drawMs.isInt = false := by decide +kernel

end DanceSync.Config
