import DanceSync.Lifecycle.SelectionInvariant
import DanceSync.Lifecycle.Battles
import DanceSync.Domain.MatchRecord

/-!
# When a battle ends

A battle begins at `startedAt`, a countdown after the command that starts it, and it may end
before: a departure during the countdown that leaves too few dancers closes it at once. Any other
end comes at `startedAt` or later, and none before the command. A battle that begins or ends at an
`Invalid Date` may close at any time after the command.

## Main definitions

* `RoomOp.clock?`: the time that a call reads.
* `EndsInCountdown`: the calls hold a departure that closed the battle during its countdown.
* `Battle.Timeline`: what the calls so far say about the times of a battle.

## Main results

* `Stored.timeline`: a call keeps the timeline of the stored battle.
* `match_times`.
-/

namespace DanceSync

/-- The time that a call reads. -/
def RoomOp.clock? : RoomOp → Option Instant
  | .create _ _ now | .leave _ _ now | .kick _ _ _ now | .submitPhrase _ _ now _
  | .expireChallenge _ _ now | .castVote _ _ now | .finishAtDeadline _ now => some now
  | .startChallenge _ options => some options.now
  | .chooseSong _ _ options | .autoPick _ _ options | .startBattle _ _ options => some options.now
  | .join .. | .selectRole .. | .setReady .. | .awardWordBonus .. | .rematch .. => none

/-- The songs of a call have a positive length, and the countdown is 0 ms or more. -/
def RoomOp.Plays : RoomOp → Prop
  | .startChallenge _ options => ∀ song ∈ options.songs, 0 < song.durationSeconds
  | .chooseSong _ _ options | .autoPick _ _ options | .startBattle _ _ options =>
    0 ≤ options.countdownMs
  | _ => True

instance : DecidablePred RoomOp.Plays
  | .startChallenge _ options =>
    inferInstanceAs (Decidable (∀ song ∈ options.songs, 0 < song.durationSeconds))
  | .chooseSong _ _ options | .autoPick _ _ options | .startBattle _ _ options =>
    inferInstanceAs (Decidable (0 ≤ options.countdownMs))
  | .create .. | .join .. | .leave .. | .kick .. | .selectRole .. | .setReady ..
  | .submitPhrase .. | .expireChallenge .. | .castVote .. | .awardWordBonus ..
  | .finishAtDeadline .. | .rematch .. => inferInstanceAs (Decidable True)

/-- The songs that a room offers or has chosen have a positive length. -/
structure Room.Plays (room : Room) : Prop where
  options : ∀ s ∈ room.songSelection, ∀ song ∈ s.songOptions, 0 < song.durationSeconds
  selected : ∀ song ∈ room.selectedSong, 0 < song.durationSeconds

/-- One of the calls is a departure, at `finishedAt` and before the battle begins, that leaves the
running battle with too few dancers. -/
def EndsInCountdown (rt : Runtime) (code : JsString) (ops : List RoomOp) (battle : Battle)
    (finishedAt : Date) : Prop :=
  finishedAt < battle.startedAt ∧ ∃ pre playerId random now post, finishedAt = .at now ∧
    ops = pre ++ .leave playerId random now :: post ∧
      ∃ room ∈ (roomMachine rt code).run none pre, room.status = .battling ∧
        ∃ running ∈ room.battle, running.id = battle.id ∧ running.startedAt = battle.startedAt ∧
          (RoomService.withoutPlayer running playerId).dancerIds.length < MIN_DANCERS_PER_BATTLE

/-- One of the calls is the command that started the battle; it was read before any of `ends`. -/
def BegunBy (ops : List RoomOp) (battle : Battle) (ends : Option Date) : Prop :=
  ∃ op ∈ ops, ∃ options ∈ op.battleOptions?,
    battle.startedAt = options.now.add options.countdownMs ∧
      ∀ finishedAt ∈ ends, options.now ≤ finishedAt

/-- What the calls so far say about the times of a battle. -/
structure Battle.Timeline (rt : Runtime) (code : JsString) (ops : List RoomOp) (battle : Battle) :
    Prop where
  order : battle.Dated → battle.startedAt ≤ battle.endsAt
  begun : BegunBy ops battle battle.finishedAt
  ended : battle.Dated → ∀ finishedAt ∈ battle.finishedAt,
    battle.startedAt ≤ finishedAt ∨ EndsInCountdown rt code ops battle finishedAt

variable {rt : Runtime} {code : JsString} {room next : Room} {op : RoomOp} {playerId : JsString}
  {now : Instant} {battle battle' : Battle} {ops : List RoomOp} {slot slot' : Option Room}

/-! ### Songs -/

namespace Room.Plays

theorem fallback {s : SongSelection} {reason : ChooserReason} (h : room.Plays)
    (hoptions : ∀ song ∈ s.songOptions, 0 < song.durationSeconds)
    (hfallback : SongSelectionService.Fallback room s reason now next) : next.Plays := by
  cases hfallback with
  | cancelled => exact ⟨by simp, h.selected⟩
  | assigned chooserId =>
    refine ⟨?_, h.selected⟩
    rintro t ⟨⟩
    exact hoptions

theorem departed (h : room.Plays) (hdeparted : RoomService.Departed rt room playerId now next) :
    next.Plays := by
  obtain ⟨hseated, hsettled, hpassed⟩ := hdeparted
  obtain ⟨hselection, hsong⟩ := hsettled.selection_eq
  rename_i settled
  have hsettledPlays : settled.Plays :=
    ⟨by rw [hselection]; exact h.options, by rw [hsong]; exact h.selected⟩
  cases hpassed with
  | kept => exact hsettledPlays
  | passed s hs _ _ hfallback => exact hsettledPlays.fallback (hsettledPlays.options s hs) hfallback

/-- The song that follows an open selection is one of its options. -/
theorem picked {s : SongSelection} {song : Song} (h : room.Plays)
    (hs : room.songSelection = some s) (hsong : song ∈ s.songOptions) (autoPicked : Bool) :
    { room with
      songSelection := some { s with phase := .done, chooseDeadline := none, autoPicked }
      selectedSong := some song }.Plays := by
  refine ⟨?_, ?_⟩
  · rintro t ⟨⟩
    exact h.options s hs
  · rintro t ⟨⟩
    exact h.options s hs song hsong

theorem started {options : StartBattleOptions} {chosen : Room} (h : chosen.Plays)
    (hnext : next = chosen ∨ RoomService.Started chosen options next) : next.Plays := by
  rcases hnext with rfl | ⟨selected, song⟩
  · exact h
  · exact ⟨h.options, h.selected⟩

end Room.Plays

theorem Change.plays (hchange : Change rt room op next) (hop : op.Plays) (h : room.Plays) :
    next.Plays := by
  cases hchange with
  | left hdeparted | kicked _ _ hdeparted => exact h.departed hdeparted
  | challengeStarted phrase =>
    refine ⟨?_, by simp [SongSelectionService.challenged]⟩
    rintro s ⟨⟩
    exact hop
  | submitted outcome hsubmitted =>
    cases hsubmitted with
    | expired s hs _ _ _ _ hfallback => exact h.fallback (h.options s hs) hfallback
    | allMisspelled s hs _ _ _ _ _ _ _ hfallback =>
      refine h.fallback ?_ hfallback
      exact h.options s hs
    | accepted s hs | misspelled s hs =>
      refine ⟨?_, h.selected⟩
      rintro t ⟨⟩
      exact h.options s hs
  | expired s hs _ _ hfallback => exact h.fallback (h.options s hs) hfallback
  | songChosen hchosen hnext =>
    obtain ⟨s, song, hs, -, -, hsong⟩ := hchosen
    exact (h.picked hs hsong s.autoPicked).started hnext
  | songPicked hpicked hnext =>
    cases hpicked with
    | cancelled =>
      have hcancelled : { room with songSelection := none }.Plays := ⟨by simp, h.selected⟩
      exact hcancelled.started hnext
    | picked s deadline song hs _ _ _ _ hsong => exact (h.picked hs hsong true).started hnext
  | battleStarted hstarted => exact h.started (Or.inr hstarted)
  | rematched => exact ⟨by simp [RoomService.rematched], by simp [RoomService.rematched]⟩
  | _ => exact ⟨h.options, h.selected⟩

/-! ### The times of a battle -/

/-- The later battle has the times of the earlier one. -/
structure Battle.SameTimes (battle later : Battle) : Prop where
  id : later.id = battle.id
  startedAt : later.startedAt = battle.startedAt
  endsAt : later.endsAt = battle.endsAt

theorem Battle.SameTimes.dated {battle later : Battle} (h : battle.SameTimes later) :
    later.Dated ↔ battle.Dated := by
  rw [Battle.Dated, Battle.Dated, h.startedAt, h.endsAt]

/-- What a call does to the times of the battle: it keeps them, starts the battle, or closes it at
its own clock, when the song has ended or too few dancers remain. -/
inductive TimesChange (rt : Runtime) (room : Room) (op : RoomOp) (next : Room) : Prop
  | kept (h : ∀ later ∈ next.battle, ∃ battle ∈ room.battle, battle.SameTimes later ∧
      later.finishedAt = battle.finishedAt)
  | started {source : Room} (options : StartBattleOptions) (hop : op.battleOptions? = some options)
      (hsong : source.Plays) (h : RoomService.Started source options next)
  | closed (battle later : Battle) (now : Instant) (hop : op.clock? = some now)
      (hstatus : room.status = .battling) (hbattle : room.battle = some battle)
      (hnext : next.battle = some later) (hsame : battle.SameTimes later)
      (hfinished : later.finishedAt = some (.at now))
      (hend : ¬now < battle.endsAt ∨ ∃ playerId random, op = .leave playerId random now ∧
        (RoomService.withoutPlayer battle playerId).dancerIds.length < MIN_DANCERS_PER_BATTLE)

namespace TimesChange

theorem refl (hbattle : next.battle = room.battle) : TimesChange rt room op next :=
  .kept fun later hlater => ⟨later, hbattle ▸ hlater, ⟨rfl, rfl, rfl⟩, rfl⟩

/-- A battle that runs on with the same times. -/
theorem continued (hbattle : room.battle = some battle) (hnext : next.battle = some battle')
    (hsame : battle.SameTimes battle') (hfinished : battle'.finishedAt = battle.finishedAt) :
    TimesChange rt room op next :=
  .kept fun later hlater => by
    obtain rfl : battle' = later := Option.some.inj (hnext.symm.trans hlater)
    exact ⟨battle, hbattle, hsame, hfinished⟩

theorem startedAfter {chosen : Room} {options : StartBattleOptions} (hplays : chosen.Plays)
    (hnext : next = chosen ∨ RoomService.Started chosen options next)
    (hop : op.battleOptions? = some options) (hbattle : chosen.battle = room.battle) :
    TimesChange rt room op next := by
  rcases hnext with rfl | hstarted
  · exact .refl hbattle
  · exact .started options hop hplays hstarted

theorem fallback {s : SongSelection} {reason : ChooserReason}
    (hfallback : SongSelectionService.Fallback room s reason now next) :
    TimesChange rt room op next := by
  obtain ⟨songSelection, rfl⟩ := hfallback.exists_eq
  exact .refl rfl

end TimesChange

theorem Change.timesChange (hchange : Change rt room op next) (h : room.Plays) :
    TimesChange rt room op next := by
  cases hchange with
  | left hdeparted =>
    obtain ⟨hseated, hsettled, hpassed⟩ := hdeparted
    obtain ⟨songSelection, rfl⟩ := hpassed.exists_eq
    cases hsettled with
    | idle => exact .refl rfl
    | continuing battle hstatus hbattle => exact .continued hbattle rfl ⟨rfl, rfl, rfl⟩ rfl
    | ended battle hstatus hbattle hfew =>
      exact .closed battle _ _ rfl hstatus hbattle rfl ⟨rfl, rfl, rfl⟩ rfl
        (Or.inr ⟨_, _, rfl, hfew⟩)
  | kicked hwaiting hother hdeparted =>
    obtain ⟨hseated, hsettled, hpassed⟩ := hdeparted
    obtain ⟨songSelection, rfl⟩ := hpassed.exists_eq
    cases hsettled with
    | idle => exact .refl rfl
    | continuing battle hstatus | ended battle hstatus => simp [hwaiting] at hstatus
  | submitted outcome hsubmitted =>
    cases hsubmitted with
    | expired _ _ _ _ _ _ hfallback | allMisspelled _ _ _ _ _ _ _ _ _ hfallback =>
      exact .fallback hfallback
    | accepted | misspelled => exact .refl rfl
  | expired _ _ _ _ hfallback => exact .fallback hfallback
  | songChosen hchosen hnext =>
    obtain ⟨s, song, hs, -, -, hsong⟩ := hchosen
    exact .startedAfter (h.picked hs hsong s.autoPicked) hnext rfl rfl
  | songPicked hpicked hnext =>
    cases hpicked with
    | cancelled =>
      have hcancelled : { room with songSelection := none }.Plays := ⟨by simp, h.selected⟩
      exact .startedAfter hcancelled hnext rfl rfl
    | picked s deadline song hs _ _ _ _ hsong =>
      exact .startedAfter (h.picked hs hsong true) hnext rfl rfl
  | battleStarted hstarted => exact .started _ rfl h hstarted
  | voted battle wanted hstatus hbattle => exact .continued hbattle rfl ⟨rfl, rfl, rfl⟩ rfl
  | awarded battle hstatus hbattle => exact .continued hbattle rfl ⟨rfl, rfl, rfl⟩ rfl
  | finished battle hstatus hbattle htime =>
    exact .closed battle _ _ rfl hstatus hbattle rfl ⟨rfl, rfl, rfl⟩ rfl (Or.inl htime)
  | rematched => exact .kept (by simp [RoomService.rematched])
  | _ => exact .refl rfl

/-! ### Timelines -/

namespace Battle.Timeline

/-- More calls say as much about a battle that keeps its times. -/
theorem later (h : battle.Timeline rt code ops) (hsame : battle.SameTimes battle')
    (hfinished : battle'.finishedAt = battle.finishedAt) (op : RoomOp) :
    battle'.Timeline rt code (ops ++ [op]) where
  order hdated := by
    rw [hsame.startedAt, hsame.endsAt]
    exact h.order (hsame.dated.mp hdated)
  begun := by
    obtain ⟨opening, hmem, options, hoptions, hstart, hclock⟩ := h.begun
    refine ⟨opening, List.mem_append_left _ hmem, options, hoptions, ?_, ?_⟩
    · rw [hsame.startedAt, hstart]
    · rw [hfinished]
      exact hclock
  ended hdated := by
    rw [hfinished, hsame.startedAt]
    intro finishedAt ht
    refine (h.ended (hsame.dated.mp hdated) finishedAt ht).imp_right ?_
    rintro ⟨htime, pre, playerId, random, now, post, hnow, rfl, room, hroom, hstatus, running,
      hrunning, hid, hstart, hfew⟩
    refine ⟨by rwa [hsame.startedAt], pre, playerId, random, now, post ++ [op], hnow, by simp,
      room, hroom, hstatus, running, hrunning, ?_, ?_, hfew⟩
    · rw [hid, hsame.id]
    · rw [hstart, hsame.startedAt]

/-- The battle that a call starts. -/
theorem started {source : Room} {options : StartBattleOptions} (ops : List RoomOp)
    (hop : op.battleOptions? = some options) (hplays : op.Plays) (hsource : source.Plays)
    (h : RoomService.Started source options next) :
    ∀ battle ∈ next.battle, battle.Timeline rt code (ops ++ [op]) := by
  have hcountdown : 0 ≤ options.countdownMs := by
    cases op <;> cases hop <;> exact hplays
  obtain ⟨selected, song, -, -, -, -, -, -, hsong⟩ := h
  have hlength : 0 < song.durationSeconds := hsource.selected song hsong
  rintro battle ⟨⟩
  refine ⟨fun hdated => Numerics.date_double_le ?_ hdated.1 hdated.2,
    ⟨op, by simp, options, hop, rfl, by simp⟩, by simp⟩
  have hsongMs : 0 ≤ Binary64.round (song.durationSeconds * 1000) :=
    Binary64.round_nonneg (by positivity)
  calc Binary64.round (options.now + options.countdownMs)
      = Binary64.round (Binary64.round (options.now + options.countdownMs)) :=
        (Binary64.round_round _).symm
    _ ≤ _ := Binary64.round_mono (le_add_of_nonneg_right hsongMs)

/-- The battle that a call closes. -/
theorem closed (h : battle.Timeline rt code ops) (hsame : battle.SameTimes battle')
    (hfinished : battle'.finishedAt = some (.at now))
    (hclock : ∀ earlier ∈ ops, ∀ time ∈ earlier.clock?, time ≤ now)
    (hend : battle'.Dated → battle'.startedAt ≤ now ∨
      EndsInCountdown rt code (ops ++ [op]) battle' now) :
    battle'.Timeline rt code (ops ++ [op]) where
  order hdated := by
    rw [hsame.startedAt, hsame.endsAt]
    exact h.order (hsame.dated.mp hdated)
  begun := by
    obtain ⟨opening, hmem, options, hoptions, hstart, -⟩ := h.begun
    refine ⟨opening, List.mem_append_left _ hmem, options, hoptions, ?_, ?_⟩
    · rw [hsame.startedAt, hstart]
    · rw [hfinished]
      rintro time ⟨⟩
      refine hclock opening hmem options.now ?_
      cases opening <;> cases hoptions <;> rfl
  ended hdated := by
    rw [hfinished]
    rintro time ⟨⟩
    exact hend hdated

end Battle.Timeline

/-- What the calls so far say about a stored room. -/
structure Room.Timeline (rt : Runtime) (code : JsString) (ops : List RoomOp) (room : Room) :
    Prop where
  plays : room.Plays
  battle : ∀ battle ∈ room.battle, battle.Timeline rt code ops

/-- A call at or after the calls so far keeps the timeline of the stored room. -/
theorem Change.timeline (hchange : Change rt room op next) (h : room.Timeline rt code ops)
    (hrun : (roomMachine rt code).run none ops = some room) (hop : op.Plays)
    (hclock : ∀ earlier ∈ ops, ∀ time ∈ earlier.clock?, ∀ now ∈ op.clock?, time ≤ now) :
    next.Timeline rt code (ops ++ [op]) := by
  refine ⟨hchange.plays hop h.plays, ?_⟩
  cases hchange.timesChange h.plays with
  | kept hkept =>
    intro later hlater
    obtain ⟨battle, hbattle, hsame, hfinished⟩ := hkept later hlater
    exact (h.battle battle hbattle).later hsame hfinished op
  | started options hoptions hsource hstarted =>
    exact Battle.Timeline.started ops hoptions hop hsource hstarted
  | closed battle later now hnow hstatus hbattle hnext hsame hfinished hend =>
    intro later' hlater
    obtain rfl : later = later' := Option.some.inj (hnext.symm.trans hlater)
    refine (h.battle battle hbattle).closed hsame hfinished
      (fun earlier hearlier time htime => hclock earlier hearlier time htime now hnow) ?_
    intro hdated
    rcases hend with hsong | ⟨playerId, random, rfl, hfew⟩
    · left
      have hdated' := hsame.dated.mp hdated
      rw [hsame.startedAt]
      exact Date.le_trans ((h.battle battle hbattle).order hdated')
        (Date.le_of_not_lt hdated'.2 hsong)
    · rcases Date.lt_or_le hdated.1 now with hcountdown | hbegan
      · exact Or.inr ⟨hcountdown, ops, playerId, random, now, [], rfl, rfl, room, hrun, hstatus,
          battle, hbattle, hsame.id.symm, hsame.startedAt.symm, hfew⟩
      · exact Or.inl hbegan

theorem Stored.timeline (hstored : Stored rt code slot op slot')
    (hrun : (roomMachine rt code).run none ops = slot)
    (h : ∀ room ∈ slot, room.Timeline rt code ops)
    (hop : op.Plays)
    (hclock : ∀ earlier ∈ ops, ∀ time ∈ earlier.clock?, ∀ now ∈ op.clock?, time ≤ now) :
    ∀ room ∈ slot', room.Timeline rt code (ops ++ [op]) := by
  cases hstored with
  | unchanged =>
    intro room hroom
    refine ⟨(h room hroom).plays, fun battle hbattle => ?_⟩
    exact ((h room hroom).battle battle hbattle).later ⟨rfl, rfl, rfl⟩ rfl op
  | created =>
    rintro room ⟨⟩
    exact ⟨⟨by simp [RoomService.newRoom], by simp [RoomService.newRoom]⟩,
      by simp [RoomService.newRoom]⟩
  | changed hchange =>
    rintro room ⟨⟩
    have hnext := hchange.timeline (h _ rfl) hrun hop hclock
    exact ⟨{ hnext.plays with }, hnext.battle⟩
  | deleted => simp

/-- Along a run whose clocks never go back, every stored room has a timeline. -/
theorem timeline_run (rt : Runtime) (code : JsString) (ops : List RoomOp)
    (htimes : (ops.filterMap RoomOp.clock?).Pairwise (· ≤ ·)) (hops : ∀ op ∈ ops, op.Plays) :
    ∀ room ∈ (roomMachine rt code).run none ops, room.Timeline rt code ops := by
  -- By induction on the calls: the last one is at or after all others.
  induction ops using List.reverseRecOn with
  | nil => simp
  | append_singleton ops op ih =>
    rw [List.filterMap_append, List.pairwise_append] at htimes
    have hbefore := ih htimes.1 fun earlier hearlier =>
      hops earlier (List.mem_append_left _ hearlier)
    rw [Machine.run_append]
    refine (step_spec rt code _ op).timeline rfl hbefore (hops op (by simp)) ?_
    intro earlier hearlier time htime now hnow
    refine htimes.2.2 time (List.mem_filterMap.mpr ⟨earlier, hearlier, htime⟩) now ?_
    exact List.mem_filterMap.mpr ⟨op, by simp, hnow⟩

/-! ### Stored matches -/

/-- The document has the times of the battle. -/
theorem record_times {record : MatchRecord} (hbattle : room.battle = some battle)
    (h : MatchRecordService.fromFinishedRoom rt room = some record) :
    record.startedAt = battle.startedAt ∧ battle.finishedAt = some record.finishedAt := by
  unfold MatchRecordService.fromFinishedRoom at h
  split at h
  next running hstatus hrunning =>
    obtain rfl : battle = running := Option.some.inj (hbattle.symm.trans hrunning)
    split at h
    next result finishedAt endReason hresult hfinished hreason =>
      obtain rfl := Option.some.inj h
      exact ⟨rfl, hfinished⟩
    next => cases h
  next => cases h

/-- A finished battle of a run, of valid dates, ends at or after its beginning, unless a departure
closed it during its countdown. None ends before the command that started it, and the document has
the same times. -/
theorem match_times (rt : Runtime) (code : JsString) (ops : List RoomOp) (room : Room)
    (battle : Battle) (finishedAt : Date) (htimes : (ops.filterMap RoomOp.clock?).Pairwise (· ≤ ·))
    (hops : ∀ op ∈ ops, op.Plays) (hrun : (roomMachine rt code).run none ops = some room)
    (hbattle : room.battle = some battle) (hfinished : battle.finishedAt = some finishedAt) :
    (battle.Dated →
        battle.startedAt ≤ finishedAt ∨ EndsInCountdown rt code ops battle finishedAt) ∧
      BegunBy ops battle (some finishedAt) ∧
      ∀ record ∈ MatchRecordService.fromFinishedRoom rt room,
        record.startedAt = battle.startedAt ∧ record.finishedAt = finishedAt := by
  have h := (timeline_run rt code ops htimes hops room hrun).battle battle hbattle
  refine ⟨fun hdated => h.ended hdated finishedAt hfinished, hfinished ▸ h.begun,
    fun record hrecord => ?_⟩
  obtain ⟨hstart, hend⟩ := record_times hbattle hrecord
  exact ⟨hstart, Option.some.inj (hend.symm.trans hfinished)⟩

/-- Battle `b1` runs until the end of its song. -/
def sampleSongEnd : List RoomOp := sampleBattle ++ [.finishAtDeadline (js "b1") 93000]

theorem match_times_sampleSongEnd :
    ∃ room ∈ (roomMachine .ascii (js "ROOM22")).run none sampleSongEnd, ∃ battle ∈ room.battle,
      (battle.startedAt ≤ 93000 ∨
        EndsInCountdown .ascii (js "ROOM22") sampleSongEnd battle 93000) ∧
      BegunBy sampleSongEnd battle (some 93000) ∧
      ∀ record ∈ MatchRecordService.fromFinishedRoom .ascii room,
        record.startedAt = battle.startedAt ∧ record.finishedAt = 93000 := by
  have hsample : ∃ room ∈ (roomMachine .ascii (js "ROOM22")).run none sampleSongEnd,
      ∃ battle ∈ room.battle, battle.finishedAt = some 93000 ∧
        battle.startedAt.Valid ∧ battle.endsAt.Valid := by decide +kernel
  obtain ⟨room, hroom, battle, hbattle, hfinished, hdated⟩ := hsample
  have h := match_times .ascii (js "ROOM22") sampleSongEnd room battle 93000 (by decide +kernel)
    (by decide +kernel) hroom hbattle hfinished
  exact ⟨room, hroom, battle, hbattle, h.1 hdated, h.2⟩

/-- Ana leaves while the countdown of battle `b1` runs. -/
def sampleCountdown : List RoomOp :=
  sampleLobby ++
    [.chooseSong (js "bob") (js "song-1") { now := 3000, countdownMs := 5000, battleId := js "b1" },
      .leave (js "ana") .first 4000]

/-- The battle ends before it begins, and so does its document. -/
theorem countdown_cut_short :
    (sampleCountdown.filterMap RoomOp.clock?).Pairwise (· ≤ ·) ∧
      (∀ op ∈ sampleCountdown, op.Plays) ∧
      ∃ room ∈ (roomMachine .ascii (js "ROOM22")).run none sampleCountdown,
        (∃ battle ∈ room.battle, ∃ finishedAt ∈ battle.finishedAt,
          finishedAt < battle.startedAt) ∧
        ∃ record ∈ MatchRecordService.fromFinishedRoom .ascii room,
          record.finishedAt < record.startedAt := by
  decide +kernel

end DanceSync
