import DanceSync.Application.Refusals
import DanceSync.Lifecycle.RoomInvariant

/-!
# What a timer may change

A timer calls a use case with the id of what it was set for. The use case decides again on the
stored room whether the phase is still that one and whether its deadline has passed. The automatic
pick and the end of the battle give up before the deadline, which an `Invalid Date` never is; the
expiry of a challenge checks the phase alone.

## Main definitions

* `RoomOp.isTimer`: the calls that a timer makes.
* `Room.TimerDue`: the phase of the timer is on and its deadline has passed.
* `Room.Untimely`: the call takes effect although its deadline has not passed.

## Main results

* `next_ne_of_typing`, `next_ne_of_choosing`, `next_finishAtDeadline`: when a timer takes effect.
* `timerDue_iff`: a call of a timer that changes the room is due, exactly when it is not untimely.
-/

namespace DanceSync

/-- The calls that a timer makes. -/
def RoomOp.isTimer : RoomOp → Bool
  | .expireChallenge .. | .autoPick .. | .finishAtDeadline .. => true
  | _ => false

/-- The room is still in the phase that the timer was set for, and its deadline has passed. -/
def Room.TimerDue (room : Room) : RoomOp → Prop
  | .expireChallenge challengeId _ now => ∃ selection ∈ room.songSelection,
      selection.phase = .typing ∧ selection.challenge.id = challengeId ∧
        selection.challenge.expiresAt ≤ now
  | .autoPick challengeId _ options => ∃ selection ∈ room.songSelection,
      selection.phase = .choosing ∧ selection.challenge.id = challengeId ∧
        ∃ deadline ∈ selection.chooseDeadline, deadline ≤ options.now
  | .finishAtDeadline battleId now => room.status = .battling ∧ ∃ battle ∈ room.battle,
      battle.id = battleId ∧ battle.endsAt ≤ now
  | _ => False

/-- The call expires the challenge on screen while its countdown runs, or its deadline is an
`Invalid Date`: a pick for a chooser, the start after which is not thrown out, or the end of the
running battle. -/
def Room.Untimely (room : Room) : RoomOp → Prop
  | .expireChallenge challengeId _ now => ∃ selection ∈ room.songSelection,
      selection.phase = .typing ∧ selection.challenge.id = challengeId ∧
        ¬selection.challenge.expiresAt ≤ now
  | .autoPick challengeId _ options => ∃ selection ∈ room.songSelection,
      selection.phase = .choosing ∧ selection.challenge.id = challengeId ∧
        selection.chooseDeadline = some .invalid ∧
        (∃ chooserId ∈ selection.chooserId, chooserId ≠ []) ∧
        (selection.songOptions = [] ∨ options.Timed)
  | .finishAtDeadline battleId _ => room.status = .battling ∧ ∃ battle ∈ room.battle,
      battle.id = battleId ∧ battle.endsAt = .invalid
  | _ => False

variable {rt : Runtime} {code : JsString} {room next : Room} {op : RoomOp} {battle : Battle}
  {selection : SongSelection} {random : RandomIndex} {options : StartBattleOptions} {now : Instant}

/-- A timer that does not leave the room as it was changes it. -/
theorem change_of_next_ne (hop : op.isTimer)
    (h : (roomMachine rt code).next (some room) op ≠ some room) :
    ∃ next, Change rt room op next := by
  have hstored := step_spec rt code (some room) op
  generalize (roomMachine rt code).next (some room) op = slot' at h hstored
  cases hstored with
  | unchanged => exact absurd rfl h
  | changed hchange => exact ⟨_, hchange⟩
  | deleted => simp [RoomOp.isTimer] at hop

/-! ### When a timer takes effect -/

/-- The phase of the challenge is all that its expiry checks. -/
theorem next_ne_of_typing (hselection : room.songSelection = some selection)
    (hphase : selection.phase = .typing) :
    (roomMachine rt code).next (some room)
      (.expireChallenge selection.challenge.id random now) ≠ some room := by
  obtain ⟨next, hnext⟩ := SongSelectionService.exists_assignFallbackChooser room selection .timeout
    random now
  have hexpire : SongSelectionService.expire room selection.challenge.id random now =
      .ok (some next) := by
    simp [SongSelectionService.expire, hselection, hphase, hnext, Functor.map, Except.map]
  have hmutate : (StartSongChallenge.expire code selection.challenge.id random now).mutate
      (StartSongChallenge.expire code selection.challenge.id random now).initial room =
        (true, .ok (.room next)) := by
    simp [StartSongChallenge.expire, hexpire, Mutated.ofOption]
  obtain ⟨songSelection, rfl⟩ := (SongSelectionService.assignFallbackChooser_spec hnext).exists_eq
  have hstep : (roomMachine rt code).next (some room)
      (.expireChallenge selection.challenge.id random now) =
        some { room with songSelection, version := room.version + 1 } := by
    simp only [Machine.next, roomMachine, RoomOp.step, RoomOp.runUpdate,
      RoomUpdate.execute_of_room hmutate rfl]
  rw [hstep]
  exact fun h => absurd (congrArg Room.version (Option.some.inj h)) (Nat.succ_ne_self room.version)

/-- The chooser whose time is not still running gets a song. -/
theorem exists_autoPick (random : RandomIndex) {chooserId : JsString} {deadline : Date}
    (hselection : room.songSelection = some selection) (hphase : selection.phase = .choosing)
    (hchooser : selection.chooserId = some chooserId) (hid : chooserId ≠ [])
    (hdeadline : selection.chooseDeadline = some deadline) (hover : ¬now < deadline) :
    ∃ picked, SongSelectionService.autoPick room selection.challenge.id now random =
        .ok (some picked) ∧
      (selection.songOptions = [] → picked.songSelection = none) := by
  have hoverdue : SongSelectionService.overdueChooser selection now = some chooserId := by
    simp [SongSelectionService.overdueChooser, hchooser, hdeadline, hid, hover]
  by_cases hsongs : selection.songOptions = []
  · exact ⟨{ room with songSelection := none },
      by simp [SongSelectionService.autoPick, hselection, hphase, hoverdue, hsongs],
      fun _ => rfl⟩
  · obtain ⟨song, hsong⟩ := random.exists_choose hsongs
    have hmem : song ∈ selection.songOptions := RandomIndex.mem_of_choose hsong
    obtain ⟨found, hfound⟩ : ∃ found, selection.songOptions.find? (·.id = song.id) = some found :=
      Option.isSome_iff_exists.mp (List.find?_isSome.mpr ⟨song, hmem, by simp⟩)
    have hchosen : SongSelectionService.choose room chooserId song.id = .ok
        { room with
          songSelection := some { selection with phase := .done, chooseDeadline := none }
          selectedSong := some found } := by
      simp [SongSelectionService.choose, hselection, hphase, hchooser, hfound]
    refine ⟨_, by simp [SongSelectionService.autoPick, hselection, hphase, hoverdue, hsongs, hsong,
      hchosen, bind, Except.bind, pure, Except.pure]; rfl, fun hnil => absurd hnil hsongs⟩

/-- The time of the chooser, and options that pass their checks when there are songs, are all that
the automatic pick waits for. -/
theorem next_ne_of_choosing {chooserId : JsString} {deadline : Date}
    (hselection : room.songSelection = some selection) (hphase : selection.phase = .choosing)
    (hchooser : selection.chooserId = some chooserId) (hid : chooserId ≠ [])
    (hdeadline : selection.chooseDeadline = some deadline) (hover : ¬options.now < deadline)
    (htimed : selection.songOptions = [] ∨ options.Timed) :
    (roomMachine rt code).next (some room) (.autoPick selection.challenge.id random options) ≠
      some room := by
  obtain ⟨picked, hpicked, hnone⟩ :=
    exists_autoPick random hselection hphase hchooser hid hdeadline hover
  obtain ⟨⟨updated, started⟩, hstart⟩ : ∃ result,
      ChooseSong.startIfPossible rt picked options = .ok result := by
    rcases htimed with hnil | htimed
    · exact ⟨(picked, false), by rw [ChooseSong.startIfPossible, if_pos (hnone hnil)]⟩
    · exact exists_startIfPossible rt picked htimed
  have hmutate : (ChooseSong.autoPick rt code selection.challenge.id random options).mutate
      (ChooseSong.autoPick rt code selection.challenge.id random options).initial room =
        ((true, started), .ok (.room updated)) := by
    simp [ChooseSong.autoPick, hpicked, hstart]
  have hchange : Change rt room (.autoPick selection.challenge.id random options) updated :=
    (keeps_autoPick selection.challenge.id random options).change updated
      (congrArg Prod.snd hmutate)
  have hstep : (roomMachine rt code).next (some room)
      (.autoPick selection.challenge.id random options) =
        some { updated with version := room.version + 1 } := by
    simp only [Machine.next, roomMachine, RoomOp.step, RoomOp.runUpdate,
      RoomUpdate.execute_of_room hmutate hchange.frame.2]
  rw [hstep]
  exact stored_ne

/-- An automatic pick that changes the room found a chooser, and its start was not thrown out. -/
theorem picked_of_next_ne {challengeId : JsString}
    (hselection : room.songSelection = some selection)
    (h : (roomMachine rt code).next (some room) (.autoPick challengeId random options) ≠
      some room) :
    (∃ chooserId ∈ selection.chooserId, chooserId ≠ []) ∧
      (selection.songOptions = [] ∨ options.Timed) := by
  have hautoPick : Keeps rt (ChooseSong.autoPick rt code challengeId random options) room
      (.autoPick challengeId random options) := keeps_autoPick challengeId random options
  have hkeep := hautoPick.keep
  rcases (ChooseSong.autoPick rt code challengeId random options).fst_execute_cases code room with
    hsame | ⟨next, hnext, -⟩ | ⟨hnull, -⟩
  · exact absurd hsame h
  · simp only [RoomUpdate.decide, ChooseSong.autoPick] at hnext
    split at hnext
    next => simp at hnext
    next => simp at hnext
    next picked hpicked =>
      obtain ⟨hchooser, hnone⟩ := SongSelectionService.chooser_of_autoPick hpicked hselection
      refine ⟨hchooser, ?_⟩
      by_cases hsongs : picked.songSelection = none
      · exact Or.inl (hnone hsongs)
      · split at hnext
        next => simp at hnext
        next hstart => exact Or.inr (timed_of_startIfPossible hstart hsongs)
  · exact absurd hnull hkeep

/-- The timer ends a battle whose song is not still on. -/
theorem next_finishAtDeadline (hstatus : room.status = .battling)
    (hbattle : room.battle = some battle) (hover : ¬now < battle.endsAt) :
    (roomMachine rt code).next (some room) (.finishAtDeadline battle.id now) =
      some { RoomService.finished rt room battle .songEnd now with
        version := room.version + 1 } := by
  have hfinish : RoomService.finishAtDeadline rt room now =
      .ok (some (RoomService.finished rt room battle .songEnd now)) := by
    have hbattle' : RoomService.finishBattle rt room .songEnd now =
        .ok (RoomService.finished rt room battle .songEnd now) :=
      RoomService.finishBattle_eq_ok.mpr ⟨battle, hstatus, hbattle, rfl⟩
    simp [RoomService.finishAtDeadline, hstatus, hbattle, hover, hbattle', Functor.map, Except.map]
  have hmutate : (FinishBattleAtDeadline.execute rt code battle.id now).mutate
      (FinishBattleAtDeadline.execute rt code battle.id now).initial room =
        (true, .ok (.room (RoomService.finished rt room battle .songEnd now))) := by
    simp [FinishBattleAtDeadline.execute, hbattle, hfinish, Mutated.ofOption]
  simp only [Machine.next, roomMachine, RoomOp.step, RoomOp.runUpdate,
    RoomUpdate.execute_of_room hmutate rfl]

/-! ### When it is due -/

/-- A deadline that an instant is not before has passed, or is an `Invalid Date`. -/
theorem le_or_eq_invalid {deadline : Date} (h : ¬now < deadline) :
    deadline ≤ now ∨ deadline = .invalid := by
  cases deadline with
  | «at» ms => exact Or.inl (Date.le_of_not_lt Date.valid_at h)
  | invalid => exact Or.inr rfl

/-- A timer that changes the room is due, unless it is untimely. -/
theorem timerDue_of_next_ne (hop : op.isTimer)
    (h : (roomMachine rt code).next (some room) op ≠ some room) (htimely : ¬room.Untimely op) :
    room.TimerDue op := by
  obtain ⟨next, hchange⟩ := change_of_next_ne hop h
  cases hchange with
  | expired selection hselection hphase hid =>
    refine ⟨selection, hselection, hphase, hid, ?_⟩
    by_contra hlate
    exact htimely ⟨selection, hselection, hphase, hid, hlate⟩
  | songPicked hpicked =>
    obtain ⟨selection, deadline, hselection, hphase, hid, hdeadline, hover⟩ := hpicked.overdue
    refine ⟨selection, hselection, hphase, hid, deadline, hdeadline, ?_⟩
    refine (le_or_eq_invalid hover).resolve_right fun hinvalid => htimely ?_
    exact ⟨selection, hselection, hphase, hid, hinvalid ▸ hdeadline,
      picked_of_next_ne hselection h⟩
  | finished battle hstatus hbattle hover =>
    refine ⟨hstatus, battle, hbattle, rfl, ?_⟩
    refine (le_or_eq_invalid hover).resolve_right fun hinvalid => htimely ?_
    exact ⟨hstatus, battle, hbattle, rfl, hinvalid⟩
  | _ => simp [RoomOp.isTimer] at hop

/-- An untimely call takes effect, and is not due. -/
theorem next_ne_of_untimely (h : room.Untimely op) :
    (roomMachine rt code).next (some room) op ≠ some room ∧ ¬room.TimerDue op := by
  cases op with
  | expireChallenge challengeId random now =>
    obtain ⟨selection, hselection, hphase, rfl, hearly⟩ := h
    refine ⟨next_ne_of_typing hselection hphase, ?_⟩
    rintro ⟨s, hs, -, -, hlate⟩
    obtain rfl : s = selection := Option.some.inj (Eq.trans (Eq.symm hs) hselection)
    exact hearly hlate
  | autoPick challengeId random options =>
    obtain ⟨selection, hselection, hphase, rfl, hdeadline, ⟨chooserId, hchooser, hid⟩, htimed⟩ := h
    refine ⟨next_ne_of_choosing hselection hphase hchooser hid hdeadline (fun h => h) htimed, ?_⟩
    rintro ⟨s, hs, -, -, deadline, hdeadline', hlate⟩
    obtain rfl : s = selection := Option.some.inj (Eq.trans (Eq.symm hs) hselection)
    obtain rfl := Option.some.inj (hdeadline.symm.trans hdeadline')
    exact hlate
  | finishAtDeadline battleId now =>
    obtain ⟨hstatus, battle, hbattle, rfl, hinvalid⟩ := h
    have hover : ¬now < battle.endsAt := by rw [hinvalid]; exact fun h => h
    refine ⟨?_, ?_⟩
    · rw [next_finishAtDeadline hstatus hbattle hover]
      exact stored_ne
    · rintro ⟨-, b, hb, -, hlate⟩
      obtain rfl : b = battle := Option.some.inj (Eq.trans (Eq.symm hb) hbattle)
      rw [hinvalid] at hlate
      exact hlate
  | _ => exact h.elim

/-- A call of a timer that changes the room is due, exactly when it is not untimely. -/
theorem timerDue_iff (rt : Runtime) (code : JsString) (room : Room) (op : RoomOp)
    (hop : op.isTimer) :
    ((roomMachine rt code).next (some room) op ≠ some room → room.TimerDue op) ↔
      ¬room.Untimely op := by
  constructor
  · intro hdue huntimely
    obtain ⟨hchanged, hnot⟩ : (roomMachine rt code).next (some room) op ≠ some room ∧
        ¬room.TimerDue op := next_ne_of_untimely huntimely
    exact hnot (hdue hchanged)
  · exact fun htimely hchanged => timerDue_of_next_ne hop hchanged htimely

/-- The timer of the end of battle `b1` is due at 93000. -/
theorem timerDue_iff_sampleBattle :
    ∃ room ∈ (roomMachine .ascii (js "ROOM22")).run none sampleBattle,
      (roomMachine .ascii (js "ROOM22")).next (some room) (.finishAtDeadline (js "b1") 93000) ≠
        some room ∧ room.TimerDue (.finishAtDeadline (js "b1") 93000) := by
  have hsample : ∃ room ∈ (roomMachine .ascii (js "ROOM22")).run none sampleBattle,
      (roomMachine .ascii (js "ROOM22")).next (some room) (.finishAtDeadline (js "b1") 93000) ≠
        some room ∧ ∀ battle ∈ room.battle, battle.endsAt ≠ .invalid := by decide +kernel
  obtain ⟨room, hroom, hchanged, hends⟩ := hsample
  refine ⟨room, hroom, hchanged, (timerDue_iff .ascii (js "ROOM22") room
    (.finishAtDeadline (js "b1") 93000) rfl).mpr ?_ hchanged⟩
  rintro ⟨-, battle, hbattle, -, hinvalid⟩
  exact absurd hinvalid (hends battle hbattle)

/-- The challenge `c1` runs from 1000 to 16000; its expiry called at 2000 hands the choice over. -/
theorem early_expiry_changes_room :
    ∃ room ∈ (roomMachine .ascii (js "ROOM22")).run none (sampleLobby.take 9),
      (roomMachine .ascii (js "ROOM22")).next (some room)
        (.expireChallenge (js "c1") .first 2000) ≠ some room ∧
      ¬room.TimerDue (.expireChallenge (js "c1") .first 2000) := by
  have hsample : ∃ room ∈ (roomMachine .ascii (js "ROOM22")).run none (sampleLobby.take 9),
      (roomMachine .ascii (js "ROOM22")).next (some room)
        (.expireChallenge (js "c1") .first 2000) ≠ some room ∧
      room.songSelection.map (·.challenge.expiresAt) = some 16000 := by decide +kernel
  obtain ⟨room, hroom, hchanged, hexpires⟩ := hsample
  refine ⟨room, hroom, hchanged, ?_⟩
  rintro ⟨selection, hselection, -, -, htime⟩
  rw [show room.songSelection = some selection from hselection] at hexpires
  simp only [Option.map_some, Option.some.injEq] at hexpires
  rw [hexpires] at htime
  exact absurd htime (by decide)

end DanceSync
