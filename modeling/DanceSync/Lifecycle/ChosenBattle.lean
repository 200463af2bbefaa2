import DanceSync.Lifecycle.SongChallenge
import DanceSync.Lifecycle.WordsWon

/-!
# The chosen song starts the battle

`startBattle` checks once more what the start of the challenge checked, and `ChooseSong` keeps a
refusal to itself. In between, players can only go and the selection can only move on, so that
nothing is refused while two dancers are left.

## Main definitions

* `StartBattleOptions.Timed`: the settings that `startBattle` accepts.
* `RoomOp.settles`: the calls between the start of a challenge and the battle.
* `RoomOp.pickedSong?`, `Reply.picks`, `Reply.started?`: the song of a choice, and what it reports.
* `Room.StaysReady`: everyone is ready while a song is being selected.

## Main results

* `RoomService.startBattle_eq_ok`: what `startBattle` needs.
* `Change.staysReady`: no call in between breaks it.
* `chosen_song_starts_battle`.
-/

namespace DanceSync

/-- The times are 0 ms or more and the points are whole numbers of 0 or more. -/
structure StartBattleOptions.Timed (options : StartBattleOptions) : Prop where
  countdownMs : 0 ≤ options.countdownMs
  fallbackDurationMs : 0 ≤ options.fallbackDurationMs
  votePoints : options.scoring.votePoints.isInt = true ∧ 0 ≤ options.scoring.votePoints
  wordBonusPoints :
    options.scoring.wordBonusPoints.isInt = true ∧ 0 ≤ options.scoring.wordBonusPoints

variable {rt : Runtime} {code playerId : JsString} {room next chosen : Room} {op : RoomOp}
  {options : StartBattleOptions} {slot slot' : Option Room} {song : Song}

/-! ### What `startBattle` needs -/

namespace RoomService

theorem playerOf_id (hnodup : room.playerIds.Nodup) {p : Player} (hp : p ∈ room.players) :
    playerOf room p.id = some p := by
  obtain ⟨q, hq⟩ : ∃ q, playerOf room p.id = some q :=
    Option.isSome_iff_exists.mp (List.find?_isSome.mpr ⟨p, hp, by simp⟩)
  have hid : q.id = p.id := by simpa using List.find?_some hq
  rw [hq, List.inj_on_of_nodup_map hnodup (List.mem_of_find?_eq_some hq) hp hid]

theorem mapM_playerOf (hnodup : room.playerIds.Nodup) {selected : List Player}
    (hselected : ∀ p ∈ selected, p ∈ room.players) :
    (selected.map (·.id)).mapM (playerOf room) = some selected := by
  induction selected with
  | nil => rfl
  | cons p selected ih =>
    rw [List.forall_mem_cons] at hselected
    rw [List.map_cons, List.mapM_cons, playerOf_id hnodup hselected.1, ih hselected.2]
    rfl

/-- In a lobby where everyone is ready and the song is picked, two players who chose to dance are
enough. -/
theorem startBattle_eq_ok (htimed : options.Timed) (hstatus : room.status = .waiting)
    (hprogress : isSelectionInProgress room = false) (hnodup : room.playerIds.Nodup)
    (hdancers : MIN_DANCERS_PER_BATTLE ≤ room.dancerRoleIds.length)
    (hready : ∀ p ∈ room.players, p.ready = true) (hsong : room.selectedSong = some song) :
    startBattle rt room .undefined options =
      .ok (battling room (Room.withRole .dancer room.players) song options) := by
  have hids : room.dancerRoleIds.Nodup := hnodup.sublist (List.filter_sublist.map _)
  have hselected : room.dancerRoleIds.mapM (playerOf room) =
      some (Room.withRole .dancer room.players) :=
    mapM_playerOf hnodup fun p hp => List.mem_of_mem_filter hp
  simp only [startBattle, requireNonnegative, requireWhole, selectedIds, JsValue.isNullish, if_true,
    bind_eq_ok, throwIf_eq_ok, exists_const, not_not, not_lt, Except.ok.injEq, exists_eq_left']
  refine ⟨htimed.countdownMs, htimed.fallbackDurationMs, ?_, ?_, hstatus, by simpa using hprogress,
    hids, hdancers, ?_⟩
  · simpa using htimed.votePoints
  · simpa using htimed.wordBonusPoints
  · rw [hselected]
    refine bind_eq_ok.mpr ⟨(), requireEveryoneReady_eq_ok.mpr hready, ?_⟩
    rw [hsong]
    rfl

end RoomService

/-! ### The picked song -/

/-- The song that a call picks among the options: the first one with the id that the chooser names,
or with the id of the song that was drawn. -/
def RoomOp.pickedSong? (options : List Song) : RoomOp → Option Song
  | .chooseSong _ songId _ => options.find? (·.id = songId)
  | .autoPick _ random _ => do
    let drawn ← (random.choose options).toOption
    options.find? (·.id = drawn.id)
  | _ => none

theorem RoomOp.mem_of_pickedSong? {options : List Song} (h : op.pickedSong? options = some song) :
    song ∈ options := by
  cases op with
  | chooseSong => exact List.mem_of_find?_eq_some h
  | autoPick =>
    obtain ⟨drawn, -, hfind⟩ := Option.bind_eq_some_iff.mp h
    exact List.mem_of_find?_eq_some hfind
  | _ => cases h

/-- A call picks a song among the options of the selection. -/
inductive Room.PicksSong (room : Room) (op : RoomOp) (song : Song) : Room → Prop
  | mk (selection done : SongSelection) (hselection : room.songSelection = some selection)
      (hphase : selection.phase = .choosing) (hdone : done.phase = .done)
      (hsong : op.pickedSong? selection.songOptions = some song) :
      PicksSong room op song { room with songSelection := some done, selectedSong := some song }

theorem picksSong_of_choose {songId : JsString}
    (h : SongSelectionService.choose room playerId songId = .ok chosen) :
    ∃ song, room.PicksSong (.chooseSong playerId songId options) song chosen := by
  unfold SongSelectionService.choose at h
  split at h
  next selection hselection =>
    split_ifs at h with hphase hchooser
    split at h
    next song hfind =>
      obtain rfl := Except.ok.inj h
      exact ⟨song, .mk selection _ hselection (not_not.mp hphase) rfl hfind⟩
    next => cases h
  next => cases h

theorem picksSong_of_autoPick {challengeId : JsString} {random : RandomIndex} {now : Instant}
    (hoptions : ∀ selection ∈ room.songSelection, selection.songOptions ≠ [])
    (h : SongSelectionService.autoPick room challengeId now random = .ok (some chosen)) :
    ∃ song, room.PicksSong (.autoPick challengeId random options) song chosen := by
  unfold SongSelectionService.autoPick at h
  split at h
  next selection hselection =>
    by_cases hcond : selection.phase ≠ .choosing ∨ selection.challenge.id ≠ challengeId
    · rw [if_pos hcond] at h
      cases h
    · rw [if_neg hcond] at h
      split at h
      next => cases h
      next chooserId _ =>
        rw [if_neg (hoptions selection hselection)] at h
        obtain ⟨drawn, hdrawn, h⟩ := bind_eq_ok.mp h
        obtain ⟨picked, hpicked, h⟩ := bind_eq_ok.mp h
        obtain rfl := Option.some.inj (pure_eq_ok.mp h)
        obtain ⟨song, selection', done, hselection', hphase, hdone, hsong⟩ :
            ∃ song, room.PicksSong (.chooseSong chooserId drawn.id options) song picked :=
          picksSong_of_choose hpicked
        obtain rfl : selection = selection' := Option.some.inj (hselection.symm.trans hselection')
        refine ⟨song, .mk selection _ hselection hphase ?_ ?_⟩
        · exact hdone
        · simpa [RoomOp.pickedSong?, hdrawn, Except.toOption] using hsong
  next => cases h

/-! ### What a choice reports -/

namespace Reply

/-- A manual choice, or an automatic one that picked a song. -/
def picks : Reply → Bool
  | .chosen .. => true
  | .picked output => output.picked
  | _ => false

/-- The room of a choice that says that the battle started. -/
def started? : Reply → Option Room
  | .chosen room battleStarted => if battleStarted then some room else none
  | .picked output => if output.picked && output.battleStarted then some output.room else none
  | _ => none

end Reply

/-- The battle timing of a manual or automatic choice. -/
def RoomOp.timing? : RoomOp → Option StartBattleOptions
  | .chooseSong _ _ options | .autoPick _ _ options => some options
  | _ => none

section Replies

variable {reply : Reply}

theorem chosen_of_reply {songId : JsString}
    (h : ((RoomOp.chooseSong playerId songId options).step rt code (some room)).2 = .ok reply) :
    ∃ chosen next battleStarted, SongSelectionService.choose room playerId songId = .ok chosen ∧
      ChooseSong.startIfPossible rt chosen options = .ok (next, battleStarted) ∧
      ((RoomOp.chooseSong playerId songId options).step rt code (some room)).1 =
        some { next with version := room.version + 1 } ∧
      reply = .chosen { next with version := room.version + 1 } battleStarted := by
  obtain ⟨returned, hexecuted, rfl⟩ := RoomOp.executed_of_reply h
  have hmutated {flags : Bool} {m : Mutated}
      (hm : (ChooseSong.execute rt code playerId songId options).mutate false room =
        (flags, .ok m)) :
      ∃ chosen next, SongSelectionService.choose room playerId songId = .ok chosen ∧
        ChooseSong.startIfPossible rt chosen options = .ok (next, flags) ∧ m = .room next := by
    simp only [ChooseSong.execute] at hm
    split at hm
    next => simp at hm
    next chosen hchosen =>
      split at hm
      next => simp at hm
      next next battleStarted hstart =>
        obtain ⟨rfl, hroom⟩ := Prod.mk.inj hm
        exact ⟨chosen, next, hchosen, hstart, (Except.ok.inj hroom).symm⟩
  cases hexecuted with
  | rescued e he => simp [ChooseSong.execute] at he
  | same room' flags hslot hmutate | null room' flags hslot hmutate =>
    obtain rfl := Option.some.inj hslot
    obtain ⟨chosen, next, -, -, hm⟩ := hmutated hmutate
    cases hm
  | room room' next flags hslot hmutate hstored hresult =>
    obtain rfl := Option.some.inj hslot
    obtain ⟨chosen, next', hchosen, hstart, hm⟩ := hmutated hmutate
    obtain rfl := Mutated.room.inj hm
    obtain rfl := Except.ok.inj hresult
    exact ⟨chosen, next, flags, hchosen, hstart, hstored, rfl⟩

theorem autoPicked_of_reply {challengeId : JsString} {random : RandomIndex}
    (h : ((RoomOp.autoPick challengeId random options).step rt code (some room)).2 = .ok reply)
    (hpicks : reply.picks) :
    ∃ chosen next battleStarted,
      SongSelectionService.autoPick room challengeId options.now random = .ok (some chosen) ∧
      ChooseSong.startIfPossible rt chosen options = .ok (next, battleStarted) ∧
      ((RoomOp.autoPick challengeId random options).step rt code (some room)).1 =
        some { next with version := room.version + 1 } ∧
      reply = .picked { room := { next with version := room.version + 1 }
                        picked := true, battleStarted } := by
  obtain ⟨returned, hexecuted, rfl⟩ := RoomOp.executed_of_reply h
  have hmutated {flags : Bool × Bool} {m : Mutated}
      (hm : (ChooseSong.autoPick rt code challengeId random options).mutate (false, false) room =
        (flags, .ok m)) :
      (flags.1 = false ∧ m = .same) ∨ ∃ chosen next,
        SongSelectionService.autoPick room challengeId options.now random = .ok (some chosen) ∧
          ChooseSong.startIfPossible rt chosen options = .ok (next, flags.2) ∧ flags.1 = true ∧
            m = .room next := by
    simp only [ChooseSong.autoPick] at hm
    split at hm
    next => simp at hm
    next =>
      obtain ⟨rfl, hsame⟩ := Prod.mk.inj hm
      exact Or.inl ⟨rfl, (Except.ok.inj hsame).symm⟩
    next chosen hchosen =>
      split at hm
      next => simp at hm
      next next battleStarted hstart =>
        obtain ⟨rfl, hroom⟩ := Prod.mk.inj hm
        exact Or.inr ⟨chosen, next, hchosen, hstart, rfl, (Except.ok.inj hroom).symm⟩
  cases hexecuted with
  | rescued e he => simp [ChooseSong.autoPick] at he
  | same room' flags hslot hmutate hstored hresult =>
    obtain rfl := Option.some.inj hslot
    obtain rfl := Except.ok.inj hresult
    rcases hmutated hmutate with ⟨hflag, -⟩ | ⟨chosen, next, -, -, -, hm⟩
    · exact absurd (hflag.symm.trans hpicks) (by simp)
    · cases hm
  | null room' flags hslot hmutate =>
    obtain rfl := Option.some.inj hslot
    rcases hmutated hmutate with ⟨-, hm⟩ | ⟨chosen, next, -, -, -, hm⟩ <;> cases hm
  | room room' next flags hslot hmutate hstored hresult =>
    obtain rfl := Option.some.inj hslot
    rcases hmutated hmutate with ⟨-, hm⟩ | ⟨chosen, next', hchosen, hstart, hflag, hm⟩
    · cases hm
    · obtain rfl := Mutated.room.inj hm
      obtain rfl := Except.ok.inj hresult
      exact ⟨chosen, next, flags.2, hchosen, hstart, hstored, by simp [hflag]⟩

/-- A successful choice picks a song, and reports and stores what `startIfPossible` makes of it. -/
theorem picked_of_reply (hop : op.timing? = some options)
    (hoptions : ∀ selection ∈ room.songSelection, selection.songOptions ≠ [])
    (h : (op.step rt code (some room)).2 = .ok reply) (hpicks : reply.picks) :
    ∃ song chosen next battleStarted, room.PicksSong op song chosen ∧
      ChooseSong.startIfPossible rt chosen options = .ok (next, battleStarted) ∧
      (op.step rt code (some room)).1 = some { next with version := room.version + 1 } ∧
      (battleStarted → reply.started? = some { next with version := room.version + 1 }) := by
  cases op with
  | chooseSong playerId songId =>
    obtain rfl := Option.some.inj hop
    obtain ⟨chosen, next, battleStarted, hchosen, hstart, hstored, rfl⟩ := chosen_of_reply h
    obtain ⟨song, hpicked⟩ := picksSong_of_choose hchosen
    exact ⟨song, chosen, next, battleStarted, hpicked, hstart, hstored,
      fun hstarted => by simp [Reply.started?, hstarted]⟩
  | autoPick challengeId random =>
    obtain rfl := Option.some.inj hop
    obtain ⟨chosen, next, battleStarted, hchosen, hstart, hstored, rfl⟩ :=
      autoPicked_of_reply h hpicks
    obtain ⟨song, hpicked⟩ := picksSong_of_autoPick hoptions hchosen
    exact ⟨song, chosen, next, battleStarted, hpicked, hstart, hstored,
      fun hstarted => by simp [Reply.started?, hstarted]⟩
  | _ => cases hop

end Replies

/-! ### From the challenge to the choice -/

/-- The calls between the start of a challenge and the battle: submissions, the countdown,
departures and choices. -/
def RoomOp.settles : RoomOp → Bool
  | .submitPhrase .. | .expireChallenge .. | .leave .. | .kick .. | .chooseSong .. | .autoPick .. =>
    true
  | _ => false

theorem RoomOp.not_restarts_of_settles (h : op.settles) : op.restarts = false := by
  cases op <;> first | rfl | cases h

/-- Everyone is ready while a song is being selected. -/
def Room.StaysReady (room : Room) : Prop :=
  isSelectionInProgress room → ∀ p ∈ room.players, p.ready = true

theorem isSelectionInProgress_iff : isSelectionInProgress room = true ↔
    ∃ s ∈ room.songSelection, s.phase ≠ .done := by
  unfold isSelectionInProgress
  cases room.songSelection with
  | none => simp
  | some s => cases hs : s.phase <;> simp [hs]

/-- Without a new start, a selection in progress was in progress before. -/
theorem SelectionChange.inProgress_before (h : SelectionChange rt room op next)
    (hop : ¬op.restarts) (hnext : isSelectionInProgress next) : isSelectionInProgress room := by
  have hopen {s : SongSelection} (hs : room.songSelection = some s) (hphase : s.phase ≠ .done) :
      isSelectionInProgress room := isSelectionInProgress_iff.mpr ⟨s, hs, hphase⟩
  cases h with
  | kept h => rwa [isSelectionInProgress, ← h]
  | restarted h => exact absurd h hop
  | misspelled s _ hs hphase | typed s _ _ hs hphase | timedOut s _ hs hphase
  | allMisspelled s _ _ hs hphase | passedOn s _ _ _ hs hphase | cancelled s hs hphase =>
    exact hopen hs (by simp [hphase])
  | picked s _ hs hphase => exact hopen hs (by simp [hphase])

/-- No call in between joins a player or takes back that a player is ready. -/
theorem Change.staysReady (h : Change rt room op next) (hop : op.settles)
    (hready : room.StaysReady) : next.StaysReady := by
  intro hnext
  have hrestarts : ¬op.restarts := by simp [RoomOp.not_restarts_of_settles hop]
  have hroom := hready (h.selectionChange.inProgress_before hrestarts hnext)
  have hclosed {chosen : Room} {options : StartBattleOptions}
      (hstart : next = chosen ∨ RoomService.Started chosen options next)
      (hchosen : isSelectionInProgress chosen = false) : False := by
    rw [isSelectionInProgress, SelectionChange.selection_eq_of_started hstart] at hnext
    exact absurd (hchosen.symm.trans hnext) (by simp)
  cases h with
  | left hdeparted | kicked _ _ hdeparted =>
    rw [hdeparted.players_eq]
    exact fun p hp => hroom p (List.mem_of_mem_filter hp)
  | submitted _ hsubmitted =>
    cases hsubmitted with
    | expired _ _ _ _ _ _ hfallback | allMisspelled _ _ _ _ _ _ _ _ _ hfallback =>
      obtain ⟨songSelection, rfl⟩ := hfallback.exists_eq
      exact hroom
    | accepted | misspelled => exact hroom
  | expired _ _ _ _ hfallback =>
    obtain ⟨songSelection, rfl⟩ := hfallback.exists_eq
    exact hroom
  | songChosen hchosen hstart =>
    cases hchosen
    exact (hclosed hstart rfl).elim
  | songPicked hpicked hstart => cases hpicked <;> exact (hclosed hstart rfl).elim
  | _ => cases hop

theorem Stored.staysReady (h : Stored rt code slot op slot') (hop : op.settles)
    (hslot : ∀ room ∈ slot, room.StaysReady) : ∀ room ∈ slot', room.StaysReady := by
  cases h with
  | unchanged => exact hslot
  | created => cases hop
  | changed hchange =>
    rintro _ ⟨⟩
    exact hchange.staysReady hop (hslot _ rfl)
  | deleted => simp

/-- What holds from the start of challenge `c` to the choice. -/
structure Room.Settling (rt : Runtime) (c : SongSelection) (room : Room) : Prop where
  invariant : RoomInvariant rt room
  selection : SelectionInvariant room
  challenge : room.InChallenge c
  ready : room.StaysReady

/-- It holds when the challenge starts. -/
theorem settling_of_start {options : StartChallengeOptions} (version : ℕ)
    (hinvariant : RoomInvariant rt room) (hselection : SelectionInvariant room)
    (h : SongSelectionService.start rt room options = .ok next) :
    ∃ c, c.songOptions = options.songs ∧ { next with version }.Settling rt c := by
  obtain ⟨hstatus, hprogress, hdancers, hready, phrase, hphrase, rfl⟩ :=
    SongSelectionService.start_eq_ok h
  have hchange : Change rt room (.startChallenge room.hostId options)
      (SongSelectionService.challenged room options phrase) :=
    .challengeStarted phrase hstatus hprogress hdancers hready hphrase
  obtain ⟨c, hc⟩ : ∃ c, (SongSelectionService.challenged room options phrase).songSelection =
    some c := ⟨_, rfl⟩
  refine ⟨c, ?_, (hchange.roomInvariant hinvariant).withSelection _ _ _,
    { hchange.selectionInvariant hselection with }, ?_, fun _ => hready⟩
  · obtain rfl := Option.some.inj hc
    rfl
  · rintro s hs
    obtain rfl : c = s := Option.some.inj (hc.symm.trans hs)
    exact ⟨rfl, rfl, rfl⟩

/-- It holds until the choice. -/
theorem settling_run {ops : List RoomOp} {c : SongSelection} (hops : ∀ op ∈ ops, op.settles)
    (h : ∀ room ∈ slot, room.Settling rt c) :
    ∀ room ∈ (roomMachine rt code).run slot ops, room.Settling rt c := by
  refine Machine.run_invariant (P := fun slot => ∀ room ∈ slot, Room.Settling rt c room)
    (fun e he hbefore => ?_) h
  have hstored := stored_of_mem_trace he
  have hop := hops _ (Machine.input_mem_of_mem_trace he)
  have hquiet : RoomEvent.Quiet e := fun hrestarts =>
    absurd (hrestarts.symm.trans (RoomOp.not_restarts_of_settles hop)) (by simp)
  intro room hroom
  exact ⟨hstored.roomInvariant (fun r hr => (hbefore r hr).invariant) room hroom,
    hstored.selectionInvariant (fun r hr => (hbefore r hr).selection) room hroom,
    hstored.inChallenge hquiet (fun r hr => (hbefore r hr).challenge) room hroom,
    hstored.staysReady hop (fun r hr => (hbefore r hr).ready) room hroom⟩

/-! ### The start of the battle -/

/-- The stored battle after a song is picked: the players who chose to dance, in seating order,
dance to it, with no vote and no round won. -/
structure Room.StartsBattle (room stored : Room) (song : Song) (battle : Battle) : Prop where
  status : stored.status = .battling
  stored : stored.battle = some battle
  dancerIds : battle.dancerIds = room.dancerRoleIds
  song : battle.song = some song
  votes : battle.votes = .empty
  wordsWon : ∀ id ∈ battle.dancerIds, battle.wordsWon.own? id = some (.number 0)

theorem startIfPossible_of_started (hselection : chosen.songSelection ≠ none)
    (h : RoomService.startBattle rt chosen .undefined options = .ok next) :
    ChooseSong.startIfPossible rt chosen options = .ok (next, true) := by
  rw [ChooseSong.startIfPossible, if_neg hselection, h]

/-- A picked song is never kept without a battle while two dancers are left. -/
theorem startIfPossible_of_picksSong {c : SongSelection} (hroom : room.Settling rt c)
    (htimed : options.Timed) (hdancers : MIN_DANCERS_PER_BATTLE ≤ room.dancerRoleIds.length)
    (hpicked : room.PicksSong op song chosen) :
    ∃ next battle, ChooseSong.startIfPossible rt chosen options = .ok (next, true) ∧
      room.StartsBattle next song battle := by
  obtain ⟨selection, done, hselection, hphase, hdone, hsong⟩ := hpicked
  have hopen : selection.phase ≠ .done := by simp [hphase]
  have hready := hroom.ready (isSelectionInProgress_iff.mpr ⟨selection, hselection, hopen⟩)
  obtain ⟨hstatus, -⟩ := hroom.selection.waiting_of_open hselection hopen
  have hstart : RoomService.startBattle rt
      { room with songSelection := some done, selectedSong := some song } .undefined options = _ :=
    RoomService.startBattle_eq_ok htimed hstatus (by simp [isSelectionInProgress, hdone])
      hroom.invariant.seats.nodup hdancers hready rfl
  refine ⟨_, _, startIfPossible_of_started (by simp) hstart, rfl, rfl, ?_, rfl, rfl, ?_⟩
  · exact RoomService.map_id_dancers _
  · intro id hid
    rw [own?_wordsWon_of_started (RoomService.startBattle_spec hstart) rfl, if_pos hid]

/-- Once a challenge has started in a reachable room, every following choice that succeeds while two
dancers are left, manual or automatic, reports and stores a battle of these dancers to the picked
song. -/
theorem chosen_song_starts_battle (rt : Runtime) (code : JsString) (ops₀ ops : List RoomOp)
    (room started before : Room) (options : StartChallengeOptions) (version : ℕ) (op : RoomOp)
    (timing : StartBattleOptions) (reply : Reply)
    (hroom : (roomMachine rt code).run none ops₀ = some room)
    (hstart : SongSelectionService.start rt room options = .ok started)
    (hsongs : options.songs ≠ []) (hops : ∀ o ∈ ops, o.settles)
    (hbefore : (roomMachine rt code).run (some { started with version }) ops = some before)
    (hdancers : MIN_DANCERS_PER_BATTLE ≤ before.dancerRoleIds.length)
    (hop : op.timing? = some timing) (htimed : timing.Timed)
    (hreply : (op.step rt code (some before)).2 = .ok reply) (hpicks : reply.picks) :
    ∃ selection song stored battle, before.songSelection = some selection ∧
      op.pickedSong? selection.songOptions = some song ∧ song ∈ selection.songOptions ∧
      (op.step rt code (some before)).1 = some stored ∧ reply.started? = some stored ∧
      before.StartsBattle stored song battle := by
  obtain ⟨c, hc, hstarted⟩ := settling_of_start version
    (roomInvariant_run rt code ops₀ (by simp) room hroom)
    (selectionInvariant_run rt code ops₀ (by simp) room hroom) hstart
  have hsettling : before.Settling rt c := by
    refine settling_run hops ?_ before hbefore
    rintro _ ⟨⟩
    exact hstarted
  obtain ⟨song, chosen, next, battleStarted, hpicked, hchosen, hstored, hreports⟩ :=
    picked_of_reply hop (fun s hs => by rwa [(hsettling.challenge s hs).2.2, hc]) hreply hpicks
  obtain ⟨next', battle, hnext, hbattle⟩ :=
    startIfPossible_of_picksSong hsettling htimed hdancers hpicked
  obtain ⟨rfl, rfl⟩ := Prod.mk.inj (Except.ok.inj (hchosen.symm.trans hnext))
  obtain ⟨selection, done, hselection, -, -, hsong⟩ := hpicked
  exact ⟨selection, song, _, battle, hselection, hsong, RoomOp.mem_of_pickedSong? hsong, hstored,
    hreports rfl, { hbattle with }⟩

theorem eq_ok_of_toOption {α : Type} {x : Except JsError α} {a : α} (h : x.toOption = some a) :
    x = .ok a := by
  cases x with
  | error e => cases h
  | ok b => exact congrArg Except.ok (Option.some.inj h)

/-- Bob typed the phrase and lets the time to choose pass. -/
theorem chosen_song_starts_battle_sampleLobby : ∃ before stored song battle,
    before.dancerRoleIds = [js "ana", js "bob"] ∧
      ((RoomOp.autoPick (js "c1") .first { now := 30000, battleId := js "b1" }).step .ascii
        (js "ROOM22") (some before)).1 = some stored ∧
      before.StartsBattle stored song battle := by
  let options : StartChallengeOptions := { now := 1000, challengeId := js "c1", random := .first }
  let pick : RoomOp := .autoPick (js "c1") .first { now := 30000, battleId := js "b1" }
  have hrun : ((((roomMachine .ascii (js "ROOM22")).run none (sampleLobby.take 8)).bind fun room =>
      (SongSelectionService.start .ascii room options).toOption.bind fun started =>
        (roomMachine .ascii (js "ROOM22")).run (some { started with version := 8 })
          (sampleLobby.drop 9)).map fun before =>
            (before.dancerRoleIds,
              ((pick.step .ascii (js "ROOM22") (some before)).2.toOption).map Reply.picks)) =
      some ([js "ana", js "bob"], some true) := by decide +kernel
  obtain ⟨before, hbefore, hpair⟩ := Option.map_eq_some_iff.mp hrun
  obtain ⟨room, hroom, hbefore⟩ := Option.bind_eq_some_iff.mp hbefore
  obtain ⟨started, hstart, hbefore⟩ := Option.bind_eq_some_iff.mp hbefore
  obtain ⟨hdancers, hreply⟩ := Prod.mk.inj hpair
  obtain ⟨reply, hreply, hpicks⟩ := Option.map_eq_some_iff.mp hreply
  obtain ⟨selection, song, stored, battle, -, -, -, hstored, -, hbattle⟩ :=
    chosen_song_starts_battle .ascii (js "ROOM22") (sampleLobby.take 8) (sampleLobby.drop 9) room
      started before options 8 pick _ reply hroom (eq_ok_of_toOption hstart) (by decide)
      (by decide) hbefore (by rw [hdancers]; decide) rfl
      ⟨by decide, by decide, by decide, by decide⟩
      (eq_ok_of_toOption hreply) hpicks
  exact ⟨before, stored, song, battle, hdancers, hstored, hbattle⟩

end DanceSync
