import DanceSync.Lifecycle.RoomInvariant

/-!
# The lifecycle of a song selection

Neither choosing nor typing looks at the status of the room, and the start of a battle does not
look at the name of the phase. That a room never battles while its song is open is a fact about
all operations together.

## Main definitions

* `SongSelection.Valid`: what each phase says about the chooser.
* `SelectionInvariant`.

## Main results

* `Change.selectionInvariant`: every change preserves the invariant.
* `next_eq_of_selects`: while a battle runs or is shown, the selection cannot change.
* `selection_invariant`: both hold in every room that a run reaches.
-/

namespace DanceSync

/-- What each phase says about the chooser and the deadline. -/
structure SongSelection.Valid (s : SongSelection) : Prop where
  typing : s.phase = .typing → s.chooserId = none ∧ s.chooserReason = none ∧
    s.chooseDeadline = none ∧ s.autoPicked = false
  choosing : s.phase = .choosing →
    (∃ id ∈ s.participantIds, s.chooserId = some id) ∧ s.chooseDeadline.isSome
  done : s.phase = .done → s.chooseDeadline = none
  typed : s.chooserReason = some .typed → ∀ id ∈ s.chooserId, id ∉ s.failedIds
  nodup_failed : s.failedIds.Nodup
  failed_subset : s.failedIds ⊆ s.participantIds

/-- Whether the song of the next battle is chosen. -/
def Room.SongChosen (room : Room) : Prop :=
  ∃ s, room.songSelection = some s ∧ s.phase = .done

/-- The song selection agrees with the chosen song, the players and the battle. -/
structure SelectionInvariant (room : Room) : Prop where
  valid : ∀ s ∈ room.songSelection, s.Valid
  chosen : room.selectedSong.isSome ↔ room.SongChosen
  present : ∀ s ∈ room.songSelection, s.phase = .choosing →
    ∀ id ∈ s.chooserId, id ∈ room.playerIds
  playing : room.status ≠ .waiting →
    room.SongChosen ∧ ∃ battle, room.battle = some battle ∧ room.selectedSong = battle.song

variable {rt : Runtime} {code : JsString} {room next : Room} {playerId : JsString} {now : Instant}
  {battle : Battle} {selection : SongSelection}

/-! ### Phases -/

namespace SongSelection.Valid

theorem handedTo (h : selection.Valid) {reason : ChooserReason}
    (hchooser : playerId ∈ selection.participantIds)
    (htyped : reason = .typed → playerId ∉ selection.failedIds) :
    (SongSelectionService.choosing selection playerId reason now).Valid where
  typing hphase := by simp [SongSelectionService.choosing] at hphase
  choosing _ := ⟨⟨playerId, hchooser, rfl⟩, rfl⟩
  done hphase := by simp [SongSelectionService.choosing] at hphase
  typed hreason := by
    rintro id ⟨⟩
    exact htyped (Option.some.inj hreason)
  nodup_failed := h.nodup_failed
  failed_subset := h.failed_subset

theorem misspelled (h : selection.Valid) (hphase : selection.phase = .typing)
    (hparticipant : playerId ∈ selection.participantIds)
    (hattempt : playerId ∉ selection.failedIds) :
    (SongSelectionService.misspelled selection playerId).Valid where
  typing := h.typing
  choosing := h.choosing
  done := h.done
  typed hreason := by
    have hnone := (h.typing hphase).2.1
    exact absurd (hnone.symm.trans hreason) (by simp)
  nodup_failed := h.nodup_failed.append (List.nodup_singleton _) (by simpa using hattempt)
  failed_subset := List.append_subset.mpr
    ⟨h.failed_subset, List.cons_subset.mpr ⟨hparticipant, by simp⟩⟩

theorem picked (h : selection.Valid) (autoPicked : Bool) :
    { selection with phase := .done, chooseDeadline := none, autoPicked }.Valid where
  typing hphase := by simp at hphase
  choosing hphase := by simp at hphase
  done _ := rfl
  typed := h.typed
  nodup_failed := h.nodup_failed
  failed_subset := h.failed_subset

end SongSelection.Valid

theorem Room.not_songChosen (hselection : room.songSelection = some selection)
    (hphase : selection.phase ≠ .done) : ¬room.SongChosen := by
  rintro ⟨s, hs, hdone⟩
  obtain rfl : selection = s := Option.some.inj (hselection.symm.trans hs)
  exact hphase hdone

namespace SelectionInvariant

/-- A room whose song is open is in the lobby and has no song. -/
theorem waiting_of_open (h : SelectionInvariant room)
    (hselection : room.songSelection = some selection) (hphase : selection.phase ≠ .done) :
    room.status = .waiting ∧ room.selectedSong = none := by
  have hnot := Room.not_songChosen hselection hphase
  refine ⟨by_contra fun hstatus => hnot (h.playing hstatus).1, ?_⟩
  rw [← Option.not_isSome_iff_eq_none, h.chosen]
  exact hnot

/-- Changes that touch neither the selection nor the song keep the invariant when the chooser stays
and the battle keeps its song. -/
theorem congr (h : SelectionInvariant room) (hselection : next.songSelection = room.songSelection)
    (hsong : next.selectedSong = room.selectedSong)
    (hchooser : ∀ s ∈ room.songSelection, s.phase = .choosing → ∀ id ∈ s.chooserId,
      id ∈ room.playerIds → id ∈ next.playerIds)
    (hstatus : next.status ≠ .waiting → room.status ≠ .waiting)
    (hbattle : room.status ≠ .waiting →
      next.battle.map (·.song) = room.battle.map (·.song)) : SelectionInvariant next where
  valid := by rw [hselection]; exact h.valid
  chosen := by rw [hsong, h.chosen, Room.SongChosen, Room.SongChosen, hselection]
  present := by
    rw [hselection]
    exact fun s hs hphase id hid => hchooser s hs hphase id hid (h.present s hs hphase id hid)
  playing hnext := by
    obtain ⟨hchosen, battle, hroom, hplayed⟩ := h.playing (hstatus hnext)
    have hmap := hbattle (hstatus hnext)
    rw [hroom, Option.map_some, Option.map_eq_some_iff] at hmap
    obtain ⟨b, hb, hbsong⟩ := hmap
    refine ⟨?_, b, hb, by rw [hsong, hplayed, hbsong]⟩
    rwa [Room.SongChosen, hselection]

/-- The invariant of a lobby where the song is open or no selection was started. -/
theorem of_open (hstatus : room.status = .waiting) (hsong : room.selectedSong = none)
    (h : ∀ s ∈ room.songSelection, s.Valid ∧ s.phase ≠ .done ∧
      (s.phase = .choosing → ∀ id ∈ s.chooserId, id ∈ room.playerIds)) :
    SelectionInvariant room where
  valid s hs := (h s hs).1
  chosen := by
    refine iff_of_false (by simp [hsong]) ?_
    rintro ⟨s, hs, hdone⟩
    exact (h s hs).2.1 hdone
  present s hs := (h s hs).2.2
  playing hnot := absurd hstatus hnot

/-- The invariant of a lobby where the song is chosen. -/
theorem of_chosen (hstatus : room.status = .waiting) (hsong : room.selectedSong.isSome)
    (hselection : room.songSelection = some selection) (hphase : selection.phase = .done)
    (hvalid : selection.Valid) : SelectionInvariant room where
  valid s hs := by
    obtain rfl : selection = s := Option.some.inj (hselection.symm.trans hs)
    exact hvalid
  chosen := iff_of_true hsong ⟨selection, hselection, hphase⟩
  present s hs hchoosing := by
    obtain rfl : selection = s := Option.some.inj (hselection.symm.trans hs)
    simp [hphase] at hchoosing
  playing hnot := absurd hstatus hnot

/-! ### Changes of the room -/

theorem fallback {reason : ChooserReason} (hreason : reason ≠ .typed)
    (hstatus : room.status = .waiting) (hsong : room.selectedSong = none)
    (hvalid : selection.Valid)
    (hfallback : SongSelectionService.Fallback room selection reason now next) :
    SelectionInvariant next := by
  cases hfallback with
  | cancelled => exact of_open hstatus hsong (by simp)
  | assigned chooserId hcandidate =>
    obtain ⟨hparticipant, hpresent⟩ :=
      SongSelectionService.mem_of_mem_fallbackCandidates hcandidate
    refine of_open hstatus hsong ?_
    rintro s ⟨⟩
    refine ⟨hvalid.handedTo hparticipant (absurd · hreason), by simp, ?_⟩
    rintro - id ⟨⟩
    exact hpresent

theorem withPlayer {change : Player → Player} (h : SelectionInvariant room)
    (hid : ∀ p, (change p).id = p.id) :
    SelectionInvariant (RoomService.withPlayer room playerId change) := by
  refine h.congr rfl rfl (fun _ _ _ id _ hmem => ?_) (fun hstatus => hstatus) fun _ => rfl
  obtain ⟨p, hp, rfl⟩ := List.mem_map.mp hmem
  refine List.mem_map.mpr ⟨_, List.mem_map_of_mem hp, ?_⟩
  split_ifs
  · exact hid p
  · rfl

theorem departed (h : SelectionInvariant room)
    (hdeparted : RoomService.Departed rt room playerId now next) : SelectionInvariant next := by
  obtain ⟨hseated, hsettled, hpassed⟩ := hdeparted
  obtain ⟨hselection, hsong⟩ := hsettled.selection_eq
  cases hpassed with
  | kept hkept =>
    refine h.congr hselection hsong (fun s hs hphase id hid hmem => ?_)
      (mt hsettled.waiting_iff.mpr) fun _ => hsettled.song_eq
    have hid : id ≠ playerId := fun heq =>
      hkept s (hselection.trans hs) hphase (by rw [← heq]; exact hid)
    obtain ⟨p, hp, rfl⟩ := List.mem_map.mp hmem
    rw [Room.playerIds, hsettled.players_eq]
    exact List.mem_map_of_mem (List.mem_filter.mpr ⟨hp, by simpa using hid⟩)
  | passed s hs hphase hchooser hfallback =>
    have hroom : room.songSelection = some s := hselection.symm.trans hs
    obtain ⟨hstatus, hnone⟩ := h.waiting_of_open hroom (by simp [hphase])
    exact fallback (by decide) (hsettled.waiting_iff.mpr hstatus) (hsong.trans hnone)
      (h.valid s hroom)
      hfallback

theorem chosenBy {songId : JsString} (h : SelectionInvariant room)
    (hchosen : SongSelectionService.Chosen room playerId songId next) :
    SelectionInvariant next := by
  obtain ⟨s, song, hs, hphase⟩ := hchosen
  exact of_chosen (h.waiting_of_open hs (by simp [hphase])).1 rfl rfl rfl
    ((h.valid s hs).picked s.autoPicked)

theorem autoPicked {challengeId : JsString} (h : SelectionInvariant room)
    (hpicked : SongSelectionService.AutoPicked room challengeId now next) :
    SelectionInvariant next := by
  cases hpicked with
  | cancelled s deadline hs hphase =>
    obtain ⟨hstatus, hsong⟩ := h.waiting_of_open hs (by simp [hphase])
    exact of_open hstatus hsong (by simp)
  | picked s deadline song hs hphase =>
    exact of_chosen (h.waiting_of_open hs (by simp [hphase])).1 rfl rfl rfl
      ((h.valid s hs).picked true)

theorem started {options : StartBattleOptions} (h : SelectionInvariant room)
    (hstarted : RoomService.Started room options next) : SelectionInvariant next := by
  obtain ⟨selected, song, hstatus, hprogress, hready, hnodup, hlength, hmem, hsong⟩ := hstarted
  obtain ⟨s, hs, hdone⟩ := h.chosen.mp (by simp [hsong])
  exact
    { valid := h.valid
      chosen := h.chosen
      present := fun t ht hchoosing => by
        obtain rfl : s = t := Option.some.inj (hs.symm.trans ht)
        simp [hdone] at hchoosing
      playing := fun _ => ⟨⟨s, hs, hdone⟩, _, rfl, hsong⟩ }

end SelectionInvariant

/-- Every change of a stored room preserves the invariant. -/
theorem Change.selectionInvariant {op : RoomOp} (hchange : Change rt room op next)
    (h : SelectionInvariant room) : SelectionInvariant next := by
  cases hchange with
  | joined p hstatus hnew hspace hrole hready =>
    refine h.congr rfl rfl (fun _ _ _ id _ hid => ?_) (fun hs => hs) fun _ => rfl
    simp only [Room.playerIds, List.map_append]
    exact List.mem_append_left _ hid
  | left hdeparted hplayers => exact h.departed hdeparted
  | kicked hstatus hother hdeparted => exact h.departed hdeparted
  | roleSelected chosen hstatus hseated => exact h.withPlayer fun _ => rfl
  | readySet flag hstatus hseated => exact h.withPlayer fun _ => rfl
  | challengeStarted phrase hstatus =>
    refine .of_open hstatus rfl ?_
    rintro s ⟨⟩
    exact ⟨⟨fun _ => ⟨rfl, rfl, rfl, rfl⟩, by simp, by simp, by simp, List.nodup_nil, by simp⟩,
      by simp, by simp⟩
  | submitted outcome hsubmitted =>
    cases hsubmitted with
    | expired s hs hphase _ _ _ hfallback =>
      obtain ⟨hstatus, hsong⟩ := h.waiting_of_open hs (by simp [hphase])
      exact .fallback (by decide) hstatus hsong (h.valid s hs) hfallback
    | accepted s hs hphase hparticipant hpresent htime hattempt =>
      obtain ⟨hstatus, hsong⟩ := h.waiting_of_open hs (by simp [hphase])
      refine .of_open hstatus hsong ?_
      rintro t ⟨⟩
      refine ⟨(h.valid s hs).handedTo hparticipant fun _ => hattempt, by simp, ?_⟩
      rintro - id ⟨⟩
      exact hpresent
    | misspelled s hs hphase hparticipant hpresent htime hattempt =>
      obtain ⟨hstatus, hsong⟩ := h.waiting_of_open hs (by simp [hphase])
      refine .of_open hstatus hsong ?_
      rintro t ⟨⟩
      exact ⟨(h.valid s hs).misspelled hphase hparticipant hattempt, by simp [hphase],
        by simp [hphase]⟩
    | allMisspelled s hs hphase hparticipant hpresent htime hattempt _ _ hfallback =>
      obtain ⟨hstatus, hsong⟩ := h.waiting_of_open hs (by simp [hphase])
      exact .fallback (by decide) hstatus hsong
        ((h.valid s hs).misspelled hphase hparticipant hattempt) hfallback
  | expired s hs hphase _ hfallback =>
    obtain ⟨hstatus, hsong⟩ := h.waiting_of_open hs (by simp [hphase])
    exact .fallback (by decide) hstatus hsong (h.valid s hs) hfallback
  | songChosen hchosen hnext =>
    rcases hnext with rfl | hstarted
    · exact h.chosenBy hchosen
    · exact (h.chosenBy hchosen).started hstarted
  | songPicked hpicked hnext =>
    rcases hnext with rfl | hstarted
    · exact h.autoPicked hpicked
    · exact (h.autoPicked hpicked).started hstarted
  | battleStarted hstarted => exact h.started hstarted
  | voted battle wanted hstatus hbattle =>
    exact h.congr rfl rfl (fun _ _ _ _ _ hid => hid) (fun hs => hs) fun _ => by
      simp [RoomService.voted, hbattle]
  | awarded battle hstatus hbattle =>
    exact h.congr rfl rfl (fun _ _ _ _ _ hid => hid) (fun hs => hs) fun _ => by
      simp [RoomService.awarded, hbattle]
  | finished battle hstatus hbattle =>
    exact h.congr rfl rfl (fun _ _ _ _ _ hid => hid) (fun _ => by simp [hstatus]) fun _ => by
      simp [RoomService.finished, RoomService.closed, hbattle]
  | rematched => exact .of_open rfl rfl (by simp [RoomService.rematched])

/-- What an input leaves in the store satisfies the invariant. -/
theorem Stored.selectionInvariant {slot slot' : Option Room} {op : RoomOp}
    (hstored : Stored rt code slot op slot') (h : ∀ room ∈ slot, SelectionInvariant room) :
    ∀ room ∈ slot', SelectionInvariant room := by
  cases hstored with
  | unchanged => exact h
  | created p hrole hready =>
    rintro room ⟨⟩
    exact .of_open rfl rfl (by simp [RoomService.newRoom])
  | changed hchange =>
    rintro room ⟨⟩
    exact { hchange.selectionInvariant (h _ rfl) with }
  | deleted => simp

theorem selectionInvariant_run (rt : Runtime) (code : JsString) (ops : List RoomOp)
    {slot : Option Room} (h : ∀ room ∈ slot, SelectionInvariant room) :
    ∀ room ∈ (roomMachine rt code).run slot ops, SelectionInvariant room :=
  Machine.run_invariant (P := fun slot => ∀ room ∈ slot, SelectionInvariant room)
    (fun _ he h => (stored_of_mem_trace he).selectionInvariant h) h

/-- The operations on an open song selection. -/
def RoomOp.selects : RoomOp → Bool
  | .submitPhrase .. | .expireChallenge .. | .chooseSong .. | .autoPick .. => true
  | _ => false

/-- While a battle runs or is shown, the song selection cannot be changed. -/
theorem next_eq_of_selects (h : SelectionInvariant room) (hstatus : room.status ≠ .waiting)
    {op : RoomOp} (hop : op.selects) : (roomMachine rt code).next (some room) op = some room := by
  obtain ⟨⟨t, ht, hdone⟩, -⟩ := h.playing hstatus
  have hopen : ∀ s, room.songSelection = some s → s.phase ≠ .done → False := by
    intro s hs hphase
    obtain rfl : t = s := Option.some.inj (ht.symm.trans hs)
    exact hphase hdone
  generalize hslot : (roomMachine rt code).next (some room) op = slot
  have hstored := hslot ▸ step_spec rt code (some room) op
  cases hstored with
  | unchanged => rfl
  | deleted => simp [RoomOp.selects] at hop
  | changed hchange =>
    cases hchange with
    | submitted outcome hsubmitted =>
      cases hsubmitted <;> exact (hopen _ ‹_› (by simp_all)).elim
    | expired s hs hphase => exact (hopen s hs (by simp [hphase])).elim
    | songChosen hchosen =>
      obtain ⟨s, song, hs, hphase⟩ := hchosen
      exact (hopen s hs (by simp [hphase])).elim
    | songPicked hpicked => cases hpicked <;> exact (hopen _ ‹_› (by simp_all)).elim
    | _ => simp [RoomOp.selects] at hop

/-- In every room that operations make out of a free code, the song selection agrees with the
players and the battle, and is settled while a battle runs or is shown. -/
theorem selection_invariant (rt : Runtime) (code : JsString) (ops : List RoomOp) (room : Room)
    (hrun : (roomMachine rt code).run none ops = some room) :
    SelectionInvariant room ∧ (room.status ≠ .waiting → ∀ op : RoomOp, op.selects →
      (roomMachine rt code).next (some room) op = some room) := by
  have h : SelectionInvariant room := selectionInvariant_run rt code ops (by simp) room hrun
  exact ⟨h, fun hstatus op hop => next_eq_of_selects h hstatus hop⟩

theorem selection_invariant_sampleBattle :
    ∃ room ∈ (roomMachine .ascii (js "ROOM22")).run none sampleBattle,
      room.status = .battling ∧ SelectionInvariant room ∧ ∀ op : RoomOp, op.selects →
        (roomMachine .ascii (js "ROOM22")).next (some room) op = some room := by
  have hstatus : ((roomMachine .ascii (js "ROOM22")).run none sampleBattle).map (·.status) =
      some .battling := by decide +kernel
  obtain ⟨room, hrun, hbattling⟩ := Option.map_eq_some_iff.mp hstatus
  obtain ⟨h, hsettled⟩ := selection_invariant .ascii (js "ROOM22") sampleBattle room hrun
  exact ⟨room, hrun, hbattling, h, hsettled (by simp [hbattling])⟩

end DanceSync
