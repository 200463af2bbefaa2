import DanceSync.Config.WordRaceSettings
import DanceSync.Js.Timeout
import DanceSync.Lifecycle.MatchTimes

/-!
# The dates of a room under the configuration

The use cases are wired with the clock of the process, its durations and the songs of the catalogue.
So every date of a room lies at most one of the settings after the call that made it, up to the
rounding of the sum.

## Main definitions

* `Config.Env.configure`: a call as `server.ts` wires its use case.
* `Date.Within`: a date whose time value is bounded, also where it is too far away to be valid.
* `Config.Env.challengeEnd`, `Config.Env.chooseEnd`, `Config.Env.battleStart`,
  `Config.Env.battleEnd`: the bounds.
* `Room.Configured`: what the configuration says of the dates and the songs of a room.
* `Room.DatesValid`, `Instant.PresentDay`.

## Main results

* `Stored.configured`: a configured call stores a configured room.
* `WordRound.Configured.of_plan`: so are the rounds that are planned for such a room.
-/

namespace DanceSync

open Config

/-! ### Configured calls -/

/-- The options of a battle that starts at `now`. -/
def Config.Env.battleOptions (env : Env) (now : Instant) (battleId : JsString) :
    StartBattleOptions where
  now
  countdownMs := env.battleStartCountdownMs
  fallbackDurationMs := env.wordRaceFallbackDurationMs
  scoring := ⟨env.votePoints, env.wordBonusPoints⟩
  battleId

/-- The options of a challenge that starts at `now`; the phrases and songs are the default ones. -/
def Config.Env.challengeOptions (env : Env) (now : Instant) (challengeId : JsString)
    (random : RandomIndex) : StartChallengeOptions where
  now
  challengeId
  durationMs := env.songChallengeMs
  chooseMs := env.songChooseMs
  random

/-- The call with the clock and the options that the process has at `now`. -/
def Config.Env.configure (env : Env) (now : Instant) : RoomOp → RoomOp
  | .create hostId displayName _ => .create hostId displayName now
  | .leave playerId random _ => .leave playerId random now
  | .kick requesterId playerId random _ => .kick requesterId playerId random now
  | .startChallenge requesterId options =>
    .startChallenge requesterId (env.challengeOptions now options.challengeId options.random)
  | .submitPhrase playerId text _ random => .submitPhrase playerId text now random
  | .expireChallenge challengeId random _ => .expireChallenge challengeId random now
  | .chooseSong playerId songId options =>
    .chooseSong playerId songId (env.battleOptions now options.battleId)
  | .autoPick challengeId random options =>
    .autoPick challengeId random (env.battleOptions now options.battleId)
  | .startBattle requesterId dancerIds options =>
    .startBattle requesterId dancerIds (env.battleOptions now options.battleId)
  | .castVote voterId dancerId _ => .castVote voterId dancerId now
  | .finishAtDeadline battleId _ => .finishAtDeadline battleId now
  -- These read neither the clock nor a setting.
  | .join playerId displayName => .join playerId displayName
  | .selectRole playerId role => .selectRole playerId role
  | .setReady playerId ready => .setReady playerId ready
  | .awardWordBonus playerId => .awardWordBonus playerId
  | .rematch requesterId => .rematch requesterId

/-- The call has the clock and the options of the process. -/
structure RoomOp.Configured (op : RoomOp) (env : Env) (now : Instant) : Prop where
  clock : ∀ time ∈ op.clock?, time = now
  battle : ∀ options ∈ op.battleOptions?, options.countdownMs = env.battleStartCountdownMs
  challenge : ∀ requesterId options, op = .startChallenge requesterId options →
    options.durationMs = env.songChallengeMs ∧ options.chooseMs = env.songChooseMs ∧
      options.songs = SONG_CATALOG

/-! ### Configured rooms -/

/-- The date of a time value between the epoch and `last`. -/
def Date.Within (date : Date) (last : ℚ) : Prop :=
  ∃ ms : ℚ, date = Numerics.double.date ms ∧ 0 ≤ ms ∧ ms ≤ last

namespace Config.Env

/-- The end of a challenge that starts at `now`. -/
def challengeEnd (env : Env) (now : Instant) : ℚ := Binary64.round (now + env.songChallengeMs)

/-- The end of a turn to choose that starts at `now`. -/
def chooseEnd (env : Env) (now : Instant) : ℚ := Binary64.round (now + env.songChooseMs)

/-- The start of a battle that is called at `now`. -/
def battleStart (env : Env) (now : Instant) : ℚ :=
  Binary64.round (now + env.battleStartCountdownMs)

/-- The end of that battle. The songs of the catalogue last 90 seconds. -/
def battleEnd (env : Env) (now : Instant) : ℚ := Binary64.round (env.battleStart now + 90000)

end Config.Env

/-- What the configuration says of a song selection at `now`. -/
structure SongSelection.Configured (s : SongSelection) (env : Env) (now : Instant) : Prop where
  chooseMs : s.chooseMs = env.songChooseMs
  songs : ∀ song ∈ s.songOptions, song ∈ SONG_CATALOG
  expiresAt : s.challenge.expiresAt.Within (env.challengeEnd now)
  chooseDeadline : ∀ deadline ∈ s.chooseDeadline, deadline.Within (env.chooseEnd now)

/-- What the configuration says of a battle at `now`. -/
structure Battle.Configured (battle : Battle) (env : Env) (now : Instant) : Prop where
  song : ∃ song ∈ battle.song, song ∈ SONG_CATALOG
  startedAt : battle.startedAt.Within (env.battleStart now)
  endsAt : battle.endsAt.Within (env.battleEnd now)

/-- What the configuration says of a room at `now`. -/
structure Room.Configured (room : Room) (env : Env) (now : Instant) : Prop where
  selection : ∀ s ∈ room.songSelection, s.Configured env now
  selected : ∀ song ∈ room.selectedSong, song ∈ SONG_CATALOG
  battle : ∀ battle ∈ room.battle, battle.Configured env now

/-- What the configuration says of a round at `now`. -/
structure WordRound.Configured (round : WordRound) (env : Env) (now : Instant) : Prop where
  opensAt : round.opensAt.Within (env.battleEnd now)
  closesAt : round.closesAt.Within (env.battleEnd now)

/-! ### Valid dates -/

/-- A clock between 1970 and the year 10000. -/
def Instant.PresentDay (now : Instant) : Prop := 0 ≤ now ∧ now < 253402300800000

instance : DecidablePred Instant.PresentDay := fun now =>
  inferInstanceAs (Decidable (0 ≤ now ∧ now < 253402300800000))

namespace Instant.PresentDay

variable {now : Instant} (hnow : now.PresentDay)

include hnow

/-- Every timer of the present day fires at a valid date. -/
theorem add_timeout_le : now + TIMEOUT_MAX ≤ MAX_TIME_VALUE := by
  rw [TIMEOUT_MAX, MAX_TIME_VALUE]
  linarith [hnow.2]

theorem abs_add_timeout_le : |now + TIMEOUT_MAX| ≤ 2 ^ 53 := by
  rw [TIMEOUT_MAX]
  exact abs_le.mpr ⟨by linarith [hnow.1], by linarith [hnow.2]⟩

end Instant.PresentDay

/-- The dates of a song challenge, of the turn of its chooser and of a battle are valid. -/
structure Room.DatesValid (room : Room) : Prop where
  expiresAt : ∀ s ∈ room.songSelection, s.challenge.expiresAt.Valid
  chooseDeadline : ∀ s ∈ room.songSelection, ∀ deadline ∈ s.chooseDeadline, deadline.Valid
  startedAt : ∀ battle ∈ room.battle, battle.startedAt.Valid
  endsAt : ∀ battle ∈ room.battle, battle.endsAt.Valid

/-- The dates of a round are valid. -/
structure WordRound.DatesValid (round : WordRound) : Prop where
  opensAt : round.opensAt.Valid
  closesAt : round.closesAt.Valid

variable {rt : Runtime} {code : JsString} {env : Env} {room next : Room} {op : RoomOp}
  {playerId : JsString} {s : SongSelection} {now later : Instant} {date : Date} {ms last : ℚ}
  {battle : Battle}

theorem configured_configure (env : Env) (now : Instant) (op : RoomOp) :
    (env.configure now op).Configured env now := by
  cases op with
  | startChallenge =>
    refine ⟨by rintro time ⟨⟩; rfl, by rintro options ⟨⟩, ?_⟩
    rintro requesterId options ⟨⟩
    exact ⟨rfl, rfl, rfl⟩
  | chooseSong | autoPick | startBattle =>
    exact ⟨by rintro time ⟨⟩; rfl, by rintro options ⟨⟩; rfl, by rintro requesterId options ⟨⟩⟩
  | join | selectRole | setReady | awardWordBonus | rematch =>
    exact ⟨by rintro time ⟨⟩, by rintro options ⟨⟩, by rintro requesterId options ⟨⟩⟩
  | _ =>
    exact ⟨by rintro time ⟨⟩; rfl, by rintro options ⟨⟩, by rintro requesterId options ⟨⟩⟩

/-! ### Dates ahead -/

theorem Date.within_date (h0 : 0 ≤ ms) (h : ms ≤ last) : (Numerics.double.date ms).Within last :=
  ⟨ms, rfl, h0, h⟩

theorem Date.Within.mono {last' : ℚ} (h : date.Within last) (hle : last ≤ last') :
    date.Within last' := by
  obtain ⟨ms, hdate, h0, hlast⟩ := h
  exact ⟨ms, hdate, h0, hlast.trans hle⟩

/-- A bound that is not too far away makes the date valid. -/
theorem Date.Within.exists_le {n : ℤ} (h : date.Within last) (hlast : last ≤ n)
    (hn : n ≤ MAX_TIME_VALUE) : ∃ time, date = .at time ∧ 0 ≤ time ∧ time ≤ n := by
  obtain ⟨ms, rfl, h0, hms⟩ := h
  have hn' : (n : ℚ) ≤ MAX_TIME_VALUE := by exact_mod_cast hn
  have habs : |ms| ≤ MAX_TIME_VALUE := by
    rw [abs_of_nonneg h0]
    exact (hms.trans hlast).trans hn'
  rw [Numerics.date_double habs]
  exact ⟨_, rfl, (truncate_intCast 0).symm.trans_le (truncate_mono (by simpa using h0)),
    (truncate_mono (hms.trans hlast)).trans_eq (truncate_intCast n)⟩

/-- A sum of the clock and a time is not before the epoch. -/
theorem round_nonneg_of_instant (hnow : 0 ≤ now) (hms : 0 ≤ ms) :
    0 ≤ Binary64.round (now + ms) := by
  have hnow' : (0 : ℚ) ≤ now := by exact_mod_cast hnow
  exact Binary64.round_nonneg (by linarith)

namespace Config.Env

variable (env : Env)

theorem challengeEnd_mono : Monotone env.challengeEnd := fun _ _ h =>
  Binary64.round_mono (by gcongr)

theorem chooseEnd_mono : Monotone env.chooseEnd := fun _ _ h => Binary64.round_mono (by gcongr)

theorem battleStart_mono : Monotone env.battleStart := fun _ _ h => Binary64.round_mono (by gcongr)

theorem battleEnd_mono : Monotone env.battleEnd := fun _ _ h =>
  Binary64.round_mono (by gcongr; exact env.battleStart_mono h)

/-- A battle does not end before its start. -/
theorem battleStart_le_battleEnd (now : Instant) : env.battleStart now ≤ env.battleEnd now :=
  calc env.battleStart now = Binary64.round (env.battleStart now) := (Binary64.round_round _).symm
    _ ≤ env.battleEnd now := Binary64.round_mono (by linarith)

end Config.Env

/-! ### What a call stores -/

namespace SongSelection.Configured

theorem mono (h : s.Configured env now) (hlater : now ≤ later) : s.Configured env later :=
  ⟨h.chooseMs, h.songs, h.expiresAt.mono (env.challengeEnd_mono hlater),
    fun deadline hdeadline =>
      (h.chooseDeadline deadline hdeadline).mono (env.chooseEnd_mono hlater)⟩

/-- The chooser gets the whole time to pick. -/
theorem choosing (h : s.Configured env now) (hnow : 0 ≤ now) (hvalid : env.Valid)
    (chooserId : JsString) (reason : ChooserReason) :
    (SongSelectionService.choosing s chooserId reason now).Configured env now := by
  refine ⟨h.chooseMs, h.songs, h.expiresAt, ?_⟩
  rintro deadline ⟨⟩
  rw [h.chooseMs]
  exact Date.within_date (round_nonneg_of_instant hnow hvalid.songChooseMs.lower.le) le_rfl

/-- The selection of which a song was picked. -/
theorem done (h : s.Configured env now) (autoPicked : Bool) :
    { s with phase := .done, chooseDeadline := none, autoPicked }.Configured env now :=
  ⟨h.chooseMs, h.songs, h.expiresAt, by simp⟩

end SongSelection.Configured

namespace Room.Configured

theorem mono (h : room.Configured env now) (hlater : now ≤ later) : room.Configured env later where
  selection s hs := (h.selection s hs).mono hlater
  selected := h.selected
  battle battle hbattle := by
    obtain ⟨song, startedAt, endsAt⟩ := h.battle battle hbattle
    exact ⟨song, startedAt.mono (env.battleStart_mono hlater),
      endsAt.mono (env.battleEnd_mono hlater)⟩

/-- The room of a battle that goes on or ends, with its times and its song. -/
theorem ofBattle {battle' : Battle} (h : room.Configured env now)
    (hbattle : room.battle = some battle) (hnext : next.battle = some battle')
    (hsame : battle.SameTimes battle') (hsong : battle'.song = battle.song)
    (hselection : next.songSelection = room.songSelection)
    (hselected : next.selectedSong = room.selectedSong) :
    next.Configured env now where
  selection := by
    rw [hselection]
    exact h.selection
  selected := by
    rw [hselected]
    exact h.selected
  battle := by
    rw [hnext]
    rintro _ ⟨⟩
    have hbefore := h.battle battle hbattle
    refine ⟨?_, ?_, ?_⟩
    · rw [hsong]
      exact hbefore.song
    · rw [hsame.startedAt]
      exact hbefore.startedAt
    · rw [hsame.endsAt]
      exact hbefore.endsAt

variable (h : room.Configured env now) (hnow : 0 ≤ now) (hvalid : env.Valid)

include h

theorem ofSelection (hs : s.Configured env now) :
    { room with songSelection := some s }.Configured env now := by
  refine ⟨?_, h.selected, h.battle⟩
  rintro _ ⟨⟩
  exact hs

include hnow hvalid

theorem fallback {reason : ChooserReason} (hs : s.Configured env now)
    (hfallback : SongSelectionService.Fallback room s reason now next) :
    next.Configured env now := by
  cases hfallback with
  | cancelled => exact ⟨by simp, h.selected, h.battle⟩
  | assigned chooserId => exact h.ofSelection (hs.choosing hnow hvalid chooserId reason)

theorem departed (hdeparted : RoomService.Departed rt room playerId now next) :
    next.Configured env now := by
  obtain ⟨hseated, hsettled, hpassed⟩ := hdeparted
  rename_i settled
  have hsettledConfigured : settled.Configured env now := by
    cases hsettled with
    | idle => exact ⟨h.selection, h.selected, h.battle⟩
    | continuing battle _ hbattle => exact h.ofBattle hbattle rfl ⟨rfl, rfl, rfl⟩ rfl rfl rfl
    | ended battle _ hbattle => exact h.ofBattle hbattle rfl ⟨rfl, rfl, rfl⟩ rfl rfl rfl
  cases hpassed with
  | kept => exact hsettledConfigured
  | passed s hs _ _ hfallback =>
    exact hsettledConfigured.fallback hnow hvalid (hsettledConfigured.selection s hs) hfallback

omit hnow hvalid in
/-- The song that follows an open selection is one of its options. -/
theorem picked {song : Song} (hs : room.songSelection = some s) (hsong : song ∈ s.songOptions)
    (autoPicked : Bool) :
    { room with
      songSelection := some { s with phase := .done, chooseDeadline := none, autoPicked }
      selectedSong := some song }.Configured env now := by
  refine ⟨?_, ?_, h.battle⟩
  · rintro _ ⟨⟩
    exact (h.selection s hs).done autoPicked
  · rintro _ ⟨⟩
    exact (h.selection s hs).songs song hsong

/-- The battle of a song of the catalogue, which begins after the countdown. -/
theorem started {options : StartBattleOptions} (hclock : options.now = now)
    (hcountdown : options.countdownMs = env.battleStartCountdownMs)
    (hstarted : RoomService.Started room options next) : next.Configured env now := by
  have hstart : 0 ≤ env.battleStart now :=
    round_nonneg_of_instant hnow hvalid.battleStartCountdownMs.lower
  have hend : 0 ≤ env.battleEnd now := hstart.trans (env.battleStart_le_battleEnd now)
  have hsongMs : Binary64.round (90 * 1000) = 90000 := by decide +kernel
  obtain ⟨selected, song, -, -, -, -, -, -, hsong⟩ := hstarted
  have hcatalog := h.selected song hsong
  refine ⟨h.selection, h.selected, ?_⟩
  rintro _ ⟨⟩
  refine ⟨⟨song, rfl, hcatalog⟩, ?_, ?_⟩
  · rw [hclock, hcountdown]
    exact Date.within_date hstart le_rfl
  · rw [hclock, hcountdown, durationSeconds_of_mem hcatalog, hsongMs]
    exact Date.within_date hend le_rfl

theorem startedAfter {options : StartBattleOptions} (hclock : options.now = now)
    (hcountdown : options.countdownMs = env.battleStartCountdownMs)
    (hnext : next = room ∨ RoomService.Started room options next) : next.Configured env now := by
  rcases hnext with rfl | hstarted
  · exact h
  · exact h.started hnow hvalid hclock hcountdown hstarted

end Room.Configured

/-- A configured call keeps a room configured. -/
theorem Change.configured (hchange : Change rt room op next) (hop : op.Configured env now)
    (hnow : 0 ≤ now) (hvalid : env.Valid) (h : room.Configured env now) :
    next.Configured env now := by
  cases hchange with
  | left hdeparted =>
    obtain rfl := hop.clock _ rfl
    exact h.departed hnow hvalid hdeparted
  | kicked _ _ hdeparted =>
    obtain rfl := hop.clock _ rfl
    exact h.departed hnow hvalid hdeparted
  | challengeStarted phrase =>
    obtain rfl := hop.clock _ rfl
    obtain ⟨hduration, hchoose, hsongs⟩ := hop.challenge _ _ rfl
    refine ⟨?_, by simp [SongSelectionService.challenged], h.battle⟩
    rintro _ ⟨⟩
    refine ⟨hchoose, by simp [hsongs], ?_, by simp⟩
    rw [hduration]
    exact Date.within_date (round_nonneg_of_instant hnow hvalid.songChallengeMs.lower.le) le_rfl
  | submitted outcome hsubmitted =>
    obtain rfl := hop.clock _ rfl
    cases hsubmitted with
    | expired s hs _ _ _ _ hfallback =>
      exact h.fallback hnow hvalid (h.selection s hs) hfallback
    | allMisspelled s hs _ _ _ _ _ _ _ hfallback =>
      refine h.fallback hnow hvalid ?_ hfallback
      exact { h.selection s hs with }
    | accepted s hs => exact h.ofSelection ((h.selection s hs).choosing hnow hvalid _ _)
    | misspelled s hs => exact h.ofSelection { h.selection s hs with }
  | expired s hs _ _ hfallback =>
    obtain rfl := hop.clock _ rfl
    exact h.fallback hnow hvalid (h.selection s hs) hfallback
  | songChosen hchosen hnext =>
    obtain ⟨s, song, hs, -, -, hsong⟩ := hchosen
    exact (h.picked hs hsong s.autoPicked).startedAfter hnow hvalid (hop.clock _ rfl)
      (hop.battle _ rfl) hnext
  | songPicked hpicked hnext =>
    cases hpicked with
    | cancelled =>
      have hcancelled : { room with songSelection := none }.Configured env now :=
        ⟨by simp, h.selected, h.battle⟩
      exact hcancelled.startedAfter hnow hvalid (hop.clock _ rfl) (hop.battle _ rfl) hnext
    | picked s deadline song hs _ _ _ _ hsong =>
      exact (h.picked hs hsong true).startedAfter hnow hvalid (hop.clock _ rfl) (hop.battle _ rfl)
        hnext
  | battleStarted hstarted =>
    exact h.started hnow hvalid (hop.clock _ rfl) (hop.battle _ rfl) hstarted
  | voted battle _ _ hbattle => exact h.ofBattle hbattle rfl ⟨rfl, rfl, rfl⟩ rfl rfl rfl
  | awarded battle _ hbattle => exact h.ofBattle hbattle rfl ⟨rfl, rfl, rfl⟩ rfl rfl rfl
  | finished battle _ hbattle => exact h.ofBattle hbattle rfl ⟨rfl, rfl, rfl⟩ rfl rfl rfl
  | rematched =>
    exact ⟨by simp [RoomService.rematched], by simp [RoomService.rematched],
      by simp [RoomService.rematched]⟩
  | _ => exact ⟨h.selection, h.selected, h.battle⟩

theorem Stored.configured {slot slot' : Option Room} (hstored : Stored rt code slot op slot')
    (hop : op.Configured env now) (hnow : 0 ≤ now) (hvalid : env.Valid)
    (h : ∀ room ∈ slot, room.Configured env now) : ∀ room ∈ slot', room.Configured env now := by
  cases hstored with
  | unchanged => exact h
  | created =>
    rintro room ⟨⟩
    exact ⟨by simp [RoomService.newRoom], by simp [RoomService.newRoom],
      by simp [RoomService.newRoom]⟩
  | changed hchange =>
    rintro room ⟨⟩
    exact { hchange.configured hop hnow hvalid (h _ rfl) with }
  | deleted => simp

/-! ### The rounds of the word race -/

namespace WordRound.Configured

variable {round : WordRound}

theorem mono (h : round.Configured env now) (hlater : now ≤ later) :
    round.Configured env later :=
  ⟨h.opensAt.mono (env.battleEnd_mono hlater), h.closesAt.mono (env.battleEnd_mono hlater)⟩

/-- Inside the song of a battle that starts in time. -/
theorem of_insideSong {startedAt : Instant} (h0 : 0 ≤ startedAt)
    (htime : startedAt ≤ MAX_TIME_VALUE) (hstart : startedAt ≤ env.battleStart now)
    (h : InsideSong startedAt round) : round.Configured env now := by
  obtain ⟨opens, closes, hopens, hcloses, hfrom, hwindow, hto⟩ := h
  have h0' : (0 : ℚ) ≤ startedAt := by exact_mod_cast h0
  have hsmall : |startedAt + 90000| ≤ 2 ^ 53 := by
    rw [MAX_TIME_VALUE] at htime
    exact abs_le.mpr ⟨by linarith, by linarith⟩
  have hend : closes ≤ env.battleEnd now := by
    refine hto.trans ?_
    exact_mod_cast Binary64.intCast_le_round hsmall (by push_cast; linarith)
  exact ⟨⟨opens, hopens, h0'.trans hfrom, hwindow.trans hend⟩,
    ⟨closes, hcloses, h0'.trans (hfrom.trans hwindow), hend⟩⟩

/-- The rounds lie inside the song of the battle. -/
theorem of_plan {random : ℕ → RandomIndex} {race : WordRace} (hvalid : env.Valid)
    (h : room.Configured env now)
    (hplan : WordRaceService.plan .double rt room env.planOptions random = .ok race)
    (hround : round ∈ race.rounds) : round.Configured env now := by
  obtain ⟨-, battle, hstatus, hbattle, -⟩ := WordRaceService.plan_eq_ok hplan
  obtain ⟨⟨song, hsong, hcatalog⟩, ⟨ms, hstart, h0, hms⟩, -⟩ := h.battle battle hbattle
  rcases hdate : battle.startedAt with startedAt | _
  · have htime : |startedAt| ≤ MAX_TIME_VALUE := Numerics.abs_le_of_date (hstart.symm.trans hdate)
    have hvalidDate : (Numerics.double.date ms).Valid := by
      rw [← hstart, hdate]
      exact Date.valid_at
    have htruncate : startedAt = truncate ms := by
      rw [hdate, Numerics.date_double (Numerics.valid_date_double.mp hvalidDate)] at hstart
      exact Date.at.inj hstart
    have hround' := insideSong_of_plan hvalid hsong hcatalog hbattle hplan hdate htime hround
    rw [truncate_of_nonneg h0] at htruncate
    refine of_insideSong ?_ (abs_le.mp htime).2 ?_ hround'
    · rw [htruncate]
      exact Int.floor_nonneg.mpr h0
    · rw [htruncate]
      exact (Int.floor_le ms).trans hms
  -- Without a date to start at, no round has a date.
  · obtain ⟨planned, -, hrace⟩ := WordRaceService.randomOffsets_of_plan hstatus hbattle rfl hplan
    rw [hrace] at hround
    obtain ⟨index, word, x, -, rfl⟩ := WordRaceService.exists_of_mem_scheduled hround
    have hdates : Date.invalid.Within (env.battleEnd now) :=
      ⟨ms, hdate.symm.trans hstart, h0, hms.trans (env.battleStart_le_battleEnd now)⟩
    constructor
    · simpa only [WordRaceService.scheduledRound, WordRaceService.opening, hdate] using hdates
    · simpa only [WordRaceService.scheduledRound, WordRaceService.closing, hdate] using hdates

end WordRound.Configured

end DanceSync
