import DanceSync.Domain.WordRaceService
import DanceSync.Model.Ascii
import DanceSync.Placement.Spacing

/-!
# The timeline of the word race

What `WordRaceService.plan` promises of the rounds when the settings are whole numbers of
milliseconds: they lie inside the margins of the song, they never overlap, and there are as many of
them as fit.

## Main definitions

* `PlanWordRaceOptions.first`, `PlanWordRaceOptions.lastOpen`, `PlanWordRaceOptions.step`.
* `WordRace.OnTimeline`: the rounds lie inside the margins and keep their distance.

## Main results

* `WordRaceService.randomOffsets_of_slack`: the openings are drawn points with the gaps added back.
* `WordRaceService.plan_timeline`.
-/

namespace DanceSync

namespace PlanWordRaceOptions

variable (options : PlanWordRaceOptions) (num : Numerics) (songMs : ℚ)

/-- The start margin of the song, in ms after the start of the battle. -/
def first : ℚ := (num.round (songMs * options.startMarginRatio)).ceil

/-- The latest opening whose window closes before the end margin. -/
def lastOpen : ℚ :=
  num.round ((num.round (songMs * options.endMarginRatio)).floor - options.windowMs)

/-- The least time between two openings. -/
def step : ℚ := max options.minGapMs options.windowMs

/-- The time in which rounds may open. -/
def span : ℚ := num.round (options.lastOpen num songMs - options.first num songMs)

/-- The openings that are drawn. -/
def count : ℚ :=
  WordRaceService.roundCount num options.rounds (options.span num songMs) options.step

/-- What the gaps between the openings leave of the song. -/
def slack : ℚ :=
  num.round (options.span num songMs -
    num.round (num.round (options.count num songMs - 1) * options.step))

/-- The opening at a drawn point, with the gaps before it added back. -/
def offset (index point : ℕ) : ℚ :=
  num.round (num.round (options.first num songMs + point) + num.round (index * options.step))

end PlanWordRaceOptions

/-- The length that a song is planned for. -/
def PlanWordRaceOptions.songMs (options : PlanWordRaceOptions) (num : Numerics) (battle : Battle) :
    ℚ :=
  match battle.song with
  | some song => num.round (song.durationSeconds * 1000)
  | none => options.fallbackDurationMs

/-- The rounds lie inside the margins of a song that starts at `startedAt` and keep their
distance. -/
structure WordRace.OnTimeline (race : WordRace) (startedAt : Instant) (songMs : ℚ)
    (options : PlanWordRaceOptions) : Prop where
  numbers : race.rounds.map (·.number) = List.range' 1 race.rounds.length
  ids : (race.rounds.map (·.id)).Nodup
  valid : ∀ round ∈ race.rounds, round.opensAt.Valid ∧ round.closesAt.Valid
  opensAt : ∀ round ∈ race.rounds,
    startedAt + ⌈songMs * options.startMarginRatio⌉ ≤ round.opensAt.ms
  window : ∀ round ∈ race.rounds,
    (round.closesAt.ms : ℚ) = round.opensAt.ms + options.windowMs
  closesAt : ∀ round ∈ race.rounds,
    round.closesAt.ms ≤ startedAt + ⌊songMs * options.endMarginRatio⌋
  spaced : Spaced (max options.minGapMs options.windowMs)
    (race.rounds.map fun round => (round.opensAt.ms : ℚ))
  disjoint : race.rounds.Pairwise fun round later => round.closesAt ≤ later.opensAt

namespace WordRaceService

variable {options : PlanWordRaceOptions} {random : ℕ → RandomIndex} {songMs : ℚ} {num : Numerics}

/-! ### Drawing -/

theorem pick_congr (random : RandomIndex) {m n : ℕ} (h : m = n) (hm : 0 < m) (hn : 0 < n) :
    (random.pick m hm : ℕ) = random.pick n hn := by
  subst h
  rfl

/-- An index below a whole number above 0 is drawn. -/
theorem draw_natCast (random : RandomIndex) (slack : ℕ) :
    random.draw (slack + 1) = .ok (random.pick (slack + 1) slack.succ_pos) := by
  have hcast : (slack : ℚ) + 1 = (slack + 1 : ℕ) := by push_cast; rfl
  have hfloor : ((slack + 1 : ℕ) : ℚ).floor = (slack + 1 : ℕ) := by
    rw [← Rat.intCast_natCast]
    exact Rat.floor_intCast _
  have hdraw : 0 < ((slack + 1 : ℕ) : ℚ).floor ∧ ((slack + 1 : ℕ) : ℚ).isInt = true := by
    rw [hfloor]
    exact ⟨by omega, rfl⟩
  rw [RandomIndex.draw, hcast, dif_pos hdraw]
  exact congrArg Except.ok (pick_congr random (by rw [hfloor, Int.toNat_natCast]) _ _)

/-- The points that are drawn in a slack of whole milliseconds. -/
theorem mapM_draw (random : ℕ → RandomIndex) (slack n : ℕ) : ∃ points : List ℕ,
    (List.range n).mapM (fun k => (random k).draw (slack + 1)) = .ok points ∧
      points.length = n ∧ ∀ point ∈ points, point ≤ slack := by
  refine ⟨(List.range n).map fun k => (random k).pick (slack + 1) slack.succ_pos, ?_, by simp, ?_⟩
  · simp only [draw_natCast]
    exact List.mapM_pure
  · intro point hpoint
    obtain ⟨k, -, rfl⟩ := List.mem_map.mp hpoint
    exact Nat.le_of_lt_succ (Fin.is_lt _)

/-! ### The openings -/

/-- The openings: the drawn points, sorted, with the gaps added back. -/
theorem randomOffsets_eq (num : Numerics) (songMs : ℚ) (options : PlanWordRaceOptions)
    (random : ℕ → RandomIndex) :
    randomOffsets num songMs options random =
      if options.rounds ≤ 0 ∨ options.lastOpen num songMs < options.first num songMs then .ok []
      else do
        let points ← (List.range (options.count num songMs).floor.toNat).mapM fun k =>
          (random k).draw (num.round (options.slack num songMs + 1))
        return (points.insertionSort (· ≤ ·)).mapIdx (options.offset num songMs) := rfl

/-- A slack of whole milliseconds is enough to draw in. -/
theorem randomOffsets_of_slack {slack : ℕ} (hrounds : 0 < options.rounds)
    (hroom : options.first num songMs ≤ options.lastOpen num songMs)
    (hslack : num.round (options.slack num songMs + 1) = slack + 1) :
    ∃ points : List ℕ, points.length = (options.count num songMs).floor.toNat ∧ points.SortedLE ∧
      (∀ point ∈ points, point ≤ slack) ∧
      randomOffsets num songMs options random =
        .ok (points.mapIdx (options.offset num songMs)) := by
  obtain ⟨points, hdrawn, hlength, hle⟩ :=
    mapM_draw random slack (options.count num songMs).floor.toNat
  refine ⟨points.insertionSort (· ≤ ·), by simpa using hlength,
    List.sortedLE_insertionSort, fun point hpoint => hle point (by simpa using hpoint), ?_⟩
  have hspan : ¬ (options.rounds ≤ 0 ∨ options.lastOpen num songMs < options.first num songMs) := by
    rintro (h | h) <;> linarith
  rw [randomOffsets_eq, if_neg hspan, hslack, hdrawn]
  rfl

@[simp] theorem round_exact (x : ℚ) : Numerics.exact.round x = x := rfl

theorem slack_exact (options : PlanWordRaceOptions) (songMs : ℚ) :
    options.slack .exact songMs = options.lastOpen .exact songMs - options.first .exact songMs -
      (options.count .exact songMs - 1) * options.step := rfl

/-- In exact arithmetic the openings are the points with the gaps added back. -/
theorem mapIdx_offset_exact (options : PlanWordRaceOptions) (songMs : ℚ) (points : List ℕ) :
    points.mapIdx (options.offset .exact songMs) =
      addGaps (options.first .exact songMs) options.step (points.map (↑)) := by
  refine List.ext_getElem (by simp) fun i hi _ => ?_
  have hi' : i < (points.map ((↑) : ℕ → ℚ)).length := by simpa using hi
  rw [List.getElem_mapIdx, getElem_addGaps hi', List.getElem_map, PlanWordRaceOptions.offset]
  simp only [round_exact]

/-! ### Whole settings -/

section Whole

variable {rounds minGapMs windowMs : ℕ}

/-- As many openings are drawn as are wanted and fit. -/
theorem count_eq (hrounds : options.rounds = rounds) (hstep : 0 < options.step)
    (hroom : options.first .exact songMs ≤ options.lastOpen .exact songMs) :
    options.count .exact songMs = (min rounds
      (maxSpaced (options.first .exact songMs) (options.lastOpen .exact songMs)
        options.step) : ℕ) := by
  have hspan : 0 ≤ (options.lastOpen .exact songMs - options.first .exact songMs) / options.step :=
    div_nonneg (by linarith) hstep.le
  have hfloor := natCast_floor_eq_intCast_floor hspan
  rw [PlanWordRaceOptions.count, roundCount, if_neg hstep.ne', maxSpaced, if_neg (by linarith),
    hrounds]
  push_cast
  rw [hfloor]
  rfl

/-- The openings for whole settings: they are whole, keep the distance and lie within the
margins. -/
theorem randomOffsets_spec (random : ℕ → RandomIndex) (songMs : ℚ)
    (hrounds : options.rounds = rounds) (hgap : options.minGapMs = minGapMs)
    (hwindow : options.windowMs = windowMs) (hpos : 0 < windowMs) :
    ∃ planned, randomOffsets .exact songMs options random = .ok planned ∧
      planned.length = min rounds
        (maxSpaced (options.first .exact songMs) (options.lastOpen .exact songMs) options.step) ∧
      Spaced options.step planned ∧
      ∀ x ∈ planned, options.first .exact songMs ≤ x ∧ x ≤ options.lastOpen .exact songMs ∧
        ∃ z : ℤ, x = z := by
  by_cases hnone : options.rounds ≤ 0 ∨ options.lastOpen .exact songMs < options.first .exact songMs
  · refine ⟨[], by rw [randomOffsets_eq, if_pos hnone], ?_, List.isChain_nil, by simp⟩
    rcases hnone with h | h
    · have : rounds = 0 := by
        rw [hrounds] at h
        exact_mod_cast le_antisymm h (Nat.cast_nonneg rounds)
      simp [this]
    · simp [maxSpaced, h]
  obtain ⟨hsome, hroom⟩ := not_or.mp hnone
  rw [not_le] at hsome
  rw [not_lt] at hroom
  have hstep : options.step = (max minGapMs windowMs : ℕ) := by
    rw [PlanWordRaceOptions.step, hgap, hwindow, Nat.cast_max]
  have hstep0 : 0 < options.step := by
    rw [hstep]
    exact_mod_cast lt_max_of_lt_right hpos
  have hcount := count_eq hrounds hstep0 hroom
  set n := min rounds
    (maxSpaced (options.first .exact songMs) (options.lastOpen .exact songMs) options.step)
  have hn : 0 < n := by
    refine lt_min (by rw [hrounds] at hsome; exact_mod_cast hsome) ?_
    rw [maxSpaced, if_neg (not_lt.mpr hroom)]
    exact Nat.succ_pos _
  have hfit : SpacedFits (options.first .exact songMs) (options.lastOpen .exact songMs)
      options.step n :=
    (spacedFits_iff_le_maxSpaced hstep0).mpr (min_le_right _ _)
  have hlast : options.first .exact songMs + (n - 1) * options.step ≤
      options.lastOpen .exact songMs :=
    ((spacedFits_iff hstep0.le).mp hfit).resolve_left hn.ne'
  -- The slack is a whole number: so are the margins, the window and the step.
  obtain ⟨slack, hslack⟩ : ∃ slack : ℕ, options.slack .exact songMs = slack := by
    have hint : options.slack .exact songMs = ((songMs * options.endMarginRatio).floor - windowMs -
        (songMs * options.startMarginRatio).ceil -
          ((n : ℤ) - 1) * (max minGapMs windowMs : ℕ) : ℤ) := by
      rw [slack_exact, hcount, PlanWordRaceOptions.lastOpen, PlanWordRaceOptions.first, hwindow,
        hstep]
      simp only [round_exact]
      push_cast
      ring
    have hnonneg : 0 ≤ options.slack .exact songMs := by
      rw [slack_exact, hcount]
      linarith
    rw [hint] at hnonneg ⊢
    obtain ⟨slack, hslack⟩ := Int.eq_ofNat_of_zero_le (Int.cast_nonneg_iff.mp hnonneg)
    exact ⟨slack, by rw [hslack, Int.cast_natCast]⟩
  obtain ⟨points, hlength, hsorted, hle, hplanned⟩ :=
    @randomOffsets_of_slack _ random _ _ _ hsome hroom (by rw [round_exact, hslack])
  rw [mapIdx_offset_exact] at hplanned
  rw [hcount, ← Rat.intCast_natCast, Rat.floor_intCast, Int.toNat_natCast] at hlength
  refine ⟨_, hplanned, by simp [hlength], ?_, fun x hx => ?_⟩
  · refine spaced_addGaps (List.Pairwise.sortedLE (List.pairwise_map.mpr ?_))
    exact hsorted.pairwise.imp fun hab => by exact_mod_cast hab
  have hpoints : ∀ y ∈ points.map ((↑) : ℕ → ℚ), 0 ≤ y ∧ y ≤ slack := by
    intro y hy
    obtain ⟨point, hpoint, rfl⟩ := List.mem_map.mp hy
    exact ⟨Nat.cast_nonneg _, by exact_mod_cast hle point hpoint⟩
  obtain ⟨hfirst, hx'⟩ := mem_addGaps hstep0.le hpoints hx
  rw [List.length_map, hlength, ← hslack, slack_exact, hcount] at hx'
  refine ⟨hfirst, by linarith, ?_⟩
  obtain ⟨i, hi, rfl⟩ := List.mem_iff_getElem.mp hx
  have hgaps : (i : ℚ) * options.step = (i * (max minGapMs windowMs : ℕ) : ℤ) := by
    rw [hstep]
    push_cast
    rfl
  have hi' : i < points.length := by simpa using hi
  rw [getElem_addGaps (by simpa using hi'), List.getElem_map, hgaps]
  exact ⟨(songMs * options.startMarginRatio).ceil + points[i] + i * (max minGapMs windowMs : ℕ),
    by push_cast; rfl⟩

end Whole

/-! ### The words -/

section Words

variable {pool : List JsString} {count : ℕ}

/-- As many words are picked as are wanted and there are. -/
theorem length_pickDistinct :
    (pickDistinct count pool random).length = min count pool.length := by
  fun_induction pickDistinct count pool random with
  | case1 => simp
  | case2 => simp
  | case3 count word pool random index ih =>
    rw [List.length_cons, ih, List.length_eraseIdx_of_lt index.isLt]
    simp only [List.length_cons]
    omega

theorem mem_of_mem_pickDistinct {word : JsString} (h : word ∈ pickDistinct count pool random) :
    word ∈ pool := by
  fun_induction pickDistinct count pool random with
  | case1 => simp at h
  | case2 => simp at h
  | case3 count head pool random index ih =>
    rcases List.mem_cons.mp h with rfl | h
    · exact List.get_mem _ _
    · exact List.mem_of_mem_eraseIdx (ih h)

/-- Different words give different picks. -/
theorem nodup_pickDistinct (hpool : pool.Nodup) : (pickDistinct count pool random).Nodup := by
  fun_induction pickDistinct count pool random with
  | case1 => exact List.nodup_nil
  | case2 => exact List.nodup_nil
  | case3 count head pool random index ih =>
    have hperm := List.getElem_cons_eraseIdx_perm index.isLt
    obtain ⟨hindex, hrest⟩ := List.nodup_cons.mp (hperm.nodup_iff.mpr hpool)
    exact List.nodup_cons.mpr ⟨fun hmem => hindex (mem_of_mem_pickDistinct hmem), ih hrest⟩

end Words

/-! ### The rounds -/

section Rounds

variable {battle : Battle} {startedAt : Instant} {windowMs : ℚ} {picked : List JsString}
  {planned : List ℚ}

/-- A round opens when it was planned. -/
theorem opensAt_scheduledRound (hstart : battle.startedAt = .at startedAt) (index : ℕ)
    (word : JsString) (z : ℤ) :
    (scheduledRound .exact battle windowMs index (word, z)).opensAt = .at (startedAt + z) := by
  rw [scheduledRound, hstart]
  change Date.at (truncate (startedAt + z)) = _
  rw [← Int.cast_add, truncate_intCast]

/-- A round closes a window after it opens. -/
theorem closesAt_scheduledRound (hstart : battle.startedAt = .at startedAt) (window : ℕ)
    (index : ℕ) (word : JsString) (z : ℤ) :
    (scheduledRound .exact battle window index (word, z)).closesAt =
      .at (startedAt + z + window) := by
  rw [scheduledRound, hstart]
  change Date.at (truncate (startedAt + z + window)) = _
  rw [← Int.cast_add, ← Int.cast_natCast, ← Int.cast_add, truncate_intCast]

/-- The rounds of a plan are planned at some of its openings. -/
theorem exists_of_mem_scheduled {round : WordRound}
    (hround : round ∈ (picked.zip planned).mapIdx (scheduledRound num battle windowMs)) :
    ∃ index word, ∃ x ∈ planned, round = scheduledRound num battle windowMs index (word, x) := by
  obtain ⟨i, hi, rfl⟩ := List.mem_mapIdx.mp hround
  exact ⟨i, _, _, (List.of_mem_zip (List.getElem_mem hi)).2, rfl⟩

/-- The rounds open at the planned times, as long as there are words. -/
theorem opensAt_getElem (hstart : battle.startedAt = .at startedAt) {i : ℕ}
    (hwhole : ∀ x ∈ planned, ∃ z : ℤ, x = z) (hi : i < planned.length)
    (hround : i < ((picked.zip planned).mapIdx (scheduledRound .exact battle windowMs)).length) :
    ((((picked.zip planned).mapIdx (scheduledRound .exact battle windowMs))[i]).opensAt.ms : ℚ) =
      startedAt + planned[i] := by
  obtain ⟨z, hz⟩ := hwhole _ (List.getElem_mem hi)
  rw [List.getElem_mapIdx, List.getElem_zip, hz, opensAt_scheduledRound hstart, Date.ms_at,
    Int.cast_add]

/-- Openings that keep their distance give rounds that do. -/
theorem spaced_opensAt (hstart : battle.startedAt = .at startedAt) {step : ℚ}
    (hwhole : ∀ x ∈ planned, ∃ z : ℤ, x = z) (hspaced : Spaced step planned) :
    Spaced step (((picked.zip planned).mapIdx (scheduledRound .exact battle windowMs)).map
      fun round => (round.opensAt.ms : ℚ)) := by
  refine List.isChain_iff_getElem.mpr fun i hi => ?_
  have hi' : i + 1 < planned.length := by
    simp only [List.length_map, List.length_mapIdx, List.length_zip] at hi
    omega
  have hgap : planned[i] + step ≤ planned[i + 1] := List.isChain_iff_getElem.mp hspaced i hi'
  rw [List.getElem_map, List.getElem_map, opensAt_getElem hstart hwhole (by omega),
    opensAt_getElem hstart hwhole hi']
  linarith

/-- Whole openings inside the margins give a race on the timeline. -/
theorem onTimeline_of_planned {race : WordRace} {songMs : ℚ} {window : ℕ}
    (hstart : battle.startedAt = .at startedAt)
    (hrounds : race.rounds =
      (picked.zip planned).mapIdx (scheduledRound .exact battle options.windowMs))
    (hids : (race.rounds.map (·.id)).Nodup) (hwindow : options.windowMs = window)
    (hspaced : Spaced options.step planned)
    (hbounds : ∀ x ∈ planned, options.first .exact songMs ≤ x ∧
      x ≤ options.lastOpen .exact songMs ∧ ∃ z : ℤ, x = z) :
    race.OnTimeline startedAt songMs options := by
  have hstep : (window : ℚ) ≤ options.step := hwindow ▸ le_max_right _ _
  have hspaced' : Spaced options.step (race.rounds.map fun round => (round.opensAt.ms : ℚ)) :=
    hrounds ▸ spaced_opensAt hstart (fun x hx => (hbounds x hx).2.2) hspaced
  have hround' : ∀ round ∈ race.rounds, ∃ z : ℤ, (z : ℚ) ∈ planned ∧
      round.opensAt = .at (startedAt + z) ∧ round.closesAt = .at (startedAt + z + window) := by
    intro round hround
    obtain ⟨index, word, x, hx, rfl⟩ := exists_of_mem_scheduled (hrounds ▸ hround)
    obtain ⟨-, -, z, rfl⟩ := hbounds x hx
    rw [hwindow]
    exact ⟨z, hx, opensAt_scheduledRound hstart .., closesAt_scheduledRound hstart ..⟩
  refine { numbers := ?_, ids := hids, valid := ?_, opensAt := ?_, window := ?_, closesAt := ?_,
           spaced := hspaced', disjoint := ?_ }
  · refine List.ext_getElem (by simp) fun i _ _ => ?_
    simp [hrounds, scheduledRound, Nat.add_comm]
  · intro round hround
    obtain ⟨z, -, hopens, hcloses⟩ := hround' round hround
    rw [hopens, hcloses]
    exact ⟨Date.valid_at, Date.valid_at⟩
  · intro round hround
    obtain ⟨z, hz, hopens, -⟩ := hround' round hround
    have hfirst : (⌈songMs * options.startMarginRatio⌉ : ℚ) ≤ z := by
      have := (hbounds z hz).1
      rwa [PlanWordRaceOptions.first, round_exact, Rat.ceil_eq_neg_floor_neg] at this
    rw [hopens, Date.ms_at]
    exact Int.add_le_add_left (by exact_mod_cast hfirst) _
  · intro round hround
    obtain ⟨z, -, hopens, hcloses⟩ := hround' round hround
    rw [hopens, hcloses, hwindow, Date.ms_at, Date.ms_at]
    push_cast
    rfl
  · intro round hround
    obtain ⟨z, hz, -, hcloses⟩ := hround' round hround
    have hlast : (z : ℚ) + window ≤ (songMs * options.endMarginRatio).floor := by
      have := (hbounds z hz).2.1
      rw [PlanWordRaceOptions.lastOpen, hwindow, round_exact, round_exact] at this
      linarith
    rw [hcloses, Date.ms_at, add_assoc]
    exact Int.add_le_add_left (by exact_mod_cast hlast) _
  · have hpairwise := hspaced'.pairwise ((Nat.cast_nonneg window).trans hstep)
    refine (List.pairwise_map.mp hpairwise).imp_of_mem fun {round later} hround hlater hle => ?_
    obtain ⟨z, -, hopens, hcloses⟩ := hround' round hround
    obtain ⟨z', -, hopens', -⟩ := hround' later hlater
    rw [hopens, hopens', Date.ms_at, Date.ms_at] at hle
    rw [hcloses, hopens', Date.at_le_at]
    have hcloses' : ((startedAt + z + window : ℤ) : ℚ) ≤ (startedAt + z' : ℤ) := by
      push_cast at hle ⊢
      linarith
    exact_mod_cast hcloses'

/-- Openings that are drawn make a plan. -/
theorem exists_plan_of_randomOffsets (rt : Runtime) {room : Room}
    (hstatus : room.status = .battling)
    (hbattle : room.battle = some battle) (hoffsets : options.offsetsMs = none)
    (hplanned : randomOffsets num (options.songMs num battle) options random = .ok planned) :
    ∃ race, plan num rt room options random = .ok race ∧
      race.rounds = ((pickDistinct planned.length options.words fun k =>
        random (planned.length + k)).zip planned).mapIdx
          (scheduledRound num battle options.windowMs) := by
  have hoffsets' : plannedOffsets num battle options random = .ok (planned, planned.length) := by
    rw [plannedOffsets, hoffsets]
    change (randomOffsets num (options.songMs num battle) options random >>= _) = _
    rw [hplanned]
    rfl
  rw [plan, hstatus, hbattle]
  simp only [hoffsets']
  exact ⟨_, rfl, rfl⟩

/-- The openings of a plan were drawn. -/
theorem randomOffsets_of_plan {rt : Runtime} {room : Room} {race : WordRace}
    (hstatus : room.status = .battling) (hbattle : room.battle = some battle)
    (hoffsets : options.offsetsMs = none) (hplan : plan num rt room options random = .ok race) :
    ∃ planned, randomOffsets num (options.songMs num battle) options random = .ok planned ∧
      race.rounds = ((pickDistinct planned.length options.words fun k =>
        random (planned.length + k)).zip planned).mapIdx
          (scheduledRound num battle options.windowMs) := by
  cases hplanned : randomOffsets num (options.songMs num battle) options random with
  | ok planned =>
    obtain ⟨race', hplan', hrace'⟩ :=
      exists_plan_of_randomOffsets rt hstatus hbattle hoffsets hplanned
    obtain rfl : race' = race := Except.ok.inj (hplan'.symm.trans hplan)
    exact ⟨planned, rfl, hrace'⟩
  | error e =>
    have hoffsets' : plannedOffsets num battle options random = .error e := by
      rw [plannedOffsets, hoffsets]
      change (randomOffsets num (options.songMs num battle) options random >>= _) = _
      rw [hplanned]
      rfl
    rw [plan, hstatus, hbattle] at hplan
    simp only [hoffsets'] at hplan
    exact absurd hplan (by rintro ⟨⟩)

end Rounds

/-- In exact arithmetic a plan with whole settings completes, so every index it asks the random
source for is below a whole number above 0; its rounds are on the timeline of the song, as many as
are wanted and fit. -/
theorem plan_timeline (rt : Runtime) {room : Room} {battle : Battle}
    {options : PlanWordRaceOptions} (random : ℕ → RandomIndex) {rounds minGapMs windowMs : ℕ}
    (hstatus : room.status = .battling) (hbattle : room.battle = some battle)
    (hoffsets : options.offsetsMs = none) (hrounds : options.rounds = rounds)
    (hgap : options.minGapMs = minGapMs) (hwindow : options.windowMs = windowMs)
    (hpos : 0 < windowMs) :
    ∃ race, plan .exact rt room options random = .ok race ∧
      (∀ startedAt, battle.startedAt = .at startedAt →
        race.OnTimeline startedAt (options.songMs .exact battle) options) ∧
      (∃ most, IsGreatest {n | SpacedFits (options.first .exact (options.songMs .exact battle))
          (options.lastOpen .exact (options.songMs .exact battle)) options.step n} most ∧
        race.rounds.length = min (min rounds most) options.words.length) ∧
      (options.words.Nodup → (race.rounds.map (·.word)).Nodup) := by
  have hstep : 0 < options.step := by
    rw [PlanWordRaceOptions.step, hwindow]
    exact lt_max_of_lt_right (by exact_mod_cast hpos)
  obtain ⟨planned, hplanned, hlength, hspaced, hbounds⟩ :=
    randomOffsets_spec random (options.songMs .exact battle) hrounds hgap hwindow hpos
  obtain ⟨race, hplan, hrace⟩ :=
    exists_plan_of_randomOffsets rt hstatus hbattle hoffsets hplanned
  have hpicked : (pickDistinct planned.length options.words fun k =>
      random (planned.length + k)).length ≤ planned.length := by
    rw [length_pickDistinct]
    exact min_le_left _ _
  refine ⟨race, hplan, fun _ hstart => onTimeline_of_planned hstart hrace
    (plan_eq_ok hplan).1.nodup hwindow hspaced hbounds, ⟨_, isGreatest_maxSpaced hstep, ?_⟩,
    fun hwords => ?_⟩
  · rw [hrace, List.length_mapIdx, List.length_zip, min_eq_left hpicked, length_pickDistinct,
      hlength]
  · have hwords' : race.rounds.map (·.word) =
        pickDistinct planned.length options.words fun k => random (planned.length + k) := by
      refine List.ext_getElem ?_ fun i _ _ => by simp [hrace, scheduledRound]
      rw [hrace, List.length_map, List.length_mapIdx, List.length_zip, min_eq_left hpicked]
    rw [hwords']
    exact nodup_pickDistinct hwords

/-- A battle of two dancers that starts three seconds after the epoch. -/
def sampleRace : Battle where
  id := js "b1"
  roomCode := js "ROOM22"
  dancerIds := [js "ana", js "bob"]
  roster := [⟨js "ana", js "Ana"⟩, ⟨js "bob", js "Bob"⟩]
  audience := []
  song := SONG_CATALOG.head?
  votes := .empty
  wordsWon := .empty
  scoring := DEFAULT_SCORING
  startedAt := 3000
  endsAt := 93000
  finishedAt := none
  endReason := none
  result := none

/-- The room of that battle. -/
def sampleRaceRoom : Room where
  code := js "ROOM22"
  hostId := js "ana"
  players := [⟨⟨js "ana", js "Ana"⟩, .dancer, true⟩, ⟨⟨js "bob", js "Bob"⟩, .dancer, true⟩]
  dancers := none
  spectators := []
  status := .battling
  battle := some sampleRace
  songSelection := none
  selectedSong := SONG_CATALOG.head?
  lastResult := none
  createdAt := 0
  version := 9

/-- The settings when nothing else is configured. -/
def sampleOptions : PlanWordRaceOptions := {}

theorem plan_timeline_sampleRaceRoom :
    ∃ race, plan .exact .ascii sampleRaceRoom sampleOptions (fun _ => .first) = .ok race ∧
      (∀ startedAt, sampleRace.startedAt = .at startedAt →
        race.OnTimeline startedAt (sampleOptions.songMs .exact sampleRace) sampleOptions) ∧
      (∃ most, IsGreatest {n | SpacedFits
          (sampleOptions.first .exact (sampleOptions.songMs .exact sampleRace))
          (sampleOptions.lastOpen .exact (sampleOptions.songMs .exact sampleRace))
          sampleOptions.step n} most ∧
        race.rounds.length = min (min 3 most) sampleOptions.words.length) ∧
      (sampleOptions.words.Nodup → (race.rounds.map (·.word)).Nodup) :=
  plan_timeline .ascii (fun _ => .first) rfl rfl rfl rfl
    (show DEFAULT_WORD_MIN_GAP_MS = (12000 : ℕ) from rfl)
    (show DEFAULT_WORD_WINDOW_MS = (10000 : ℕ) from rfl) (Nat.succ_pos 9999)

end WordRaceService

end DanceSync
