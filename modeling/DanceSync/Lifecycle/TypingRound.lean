import DanceSync.Lifecycle.SongChallenge

/-!
# Who can still type the phrase

A typing round is resolved in the stored change that leaves nobody able to type, when that change
is a misspelling. A departure resolves nothing while the phrase is on screen, so the round is held
until the countdown exactly when the only player able to type leaves and somebody else stays.

## Main definitions

* `Room.HasTypist`: somebody in the room can still type the phrase of a typing round.
* `RoomOp.Strands`: the departures that leave a typing round without such a player.

## Main results

* `Stored.hasTypist`: every other call keeps somebody able to type.
* `hasTypist_iff`.
-/

namespace DanceSync

/-- A participant of the challenge who is in the room and has not misspelled the phrase. -/
def Room.CanType (room : Room) (s : SongSelection) (id : JsString) : Prop :=
  id ∈ s.participantIds ∧ id ∈ room.playerIds ∧ id ∉ s.failedIds

/-- While the phrase is on screen, somebody can type it. -/
def Room.HasTypist (room : Room) : Prop :=
  ∀ s ∈ room.songSelection, s.phase = .typing →
    ∃ id ∈ s.participantIds, id ∈ room.playerIds ∧ id ∉ s.failedIds

instance (room : Room) : Decidable room.HasTypist :=
  inferInstanceAs (Decidable (∀ s ∈ room.songSelection, s.phase = .typing →
    ∃ id ∈ s.participantIds, id ∈ room.playerIds ∧ id ∉ s.failedIds))

/-- The player whom an accepted call takes out of the room. -/
def RoomOp.takesOut? (room : Room) : RoomOp → Option JsString
  | .leave playerId _ _ => some playerId
  | .kick requesterId (.string playerId) _ _ =>
    if requesterId = room.hostId ∧ room.status = .waiting ∧ playerId ≠ requesterId then
      some playerId
    else none
  | _ => none

/-- The departure of the only player able to type, with somebody else staying in the room. -/
def RoomOp.Strands (room : Room) (op : RoomOp) : Prop :=
  ∃ s ∈ room.songSelection, s.phase = .typing ∧ ∃ playerId ∈ op.takesOut? room,
    (∀ id, room.CanType s id ↔ id = playerId) ∧ ∃ other ∈ room.playerIds, other ≠ playerId

variable {rt : Runtime} {code : JsString} {room next : Room} {op : RoomOp} {playerId : JsString}
  {now : Instant} {s : SongSelection} {reason : ChooserReason}

/-! ### Changes without a departure -/

theorem hasTypist_of_phase_ne (h : ∀ s ∈ next.songSelection, s.phase ≠ .typing) :
    next.HasTypist := fun s hs hphase => absurd hphase (h s hs)

/-- The fallback takes the phrase off the screen. -/
theorem hasTypist_of_fallback (h : SongSelectionService.Fallback room s reason now next) :
    next.HasTypist := by
  refine hasTypist_of_phase_ne fun s hs => ?_
  cases h with
  | cancelled => simp at hs
  | assigned chooserId =>
    obtain rfl := Option.some.inj hs
    simp

/-- A change that keeps the selection and its players keeps those able to type. -/
theorem Room.HasTypist.mono (h : room.HasTypist)
    (hselection : next.songSelection = room.songSelection)
    (hplayers : room.playerIds ⊆ next.playerIds) : next.HasTypist := by
  intro s hs hphase
  obtain ⟨id, hparticipant, hseated, hattempt⟩ := h s (hselection ▸ hs) hphase
  exact ⟨id, hparticipant, hplayers hseated, hattempt⟩

/-- The dancers of the lobby are the participants of a new challenge, and none has failed yet. -/
theorem hasTypist_challenged {options : StartChallengeOptions} {phrase : JsString}
    (hdancers : MIN_DANCERS_PER_BATTLE ≤ room.dancerRoleIds.length) :
    (SongSelectionService.challenged room options phrase).HasTypist := by
  rintro s ⟨⟩ -
  have hpos : 0 < room.dancerRoleIds.length := lt_of_lt_of_le (by decide) hdancers
  obtain ⟨id, hid⟩ := List.exists_mem_of_length_pos hpos
  have hseated : id ∈ room.playerIds := List.map_subset _ (List.filter_subset_self _) hid
  exact ⟨id, hid, hseated, by simp⟩

/-- A submission that leaves nobody able to type resolves the round. -/
theorem hasTypist_of_submitted {text : JsString} {outcome : SubmitOutcome}
    (h : SongSelectionService.Submitted rt room playerId text now outcome next) :
    next.HasTypist := by
  cases h with
  | expired _ _ _ _ _ _ hfallback => exact hasTypist_of_fallback hfallback
  | accepted => exact hasTypist_of_phase_ne (by simp)
  | misspelled _ _ _ _ _ _ _ _ other hother hseated hleft =>
    rintro s ⟨⟩ -
    exact ⟨other, hother, hseated, hleft⟩
  | allMisspelled _ _ _ _ _ _ _ _ _ hfallback => exact hasTypist_of_fallback hfallback

/-! ### Departures -/

/-- A departure does not touch a phrase on screen. -/
theorem selection_eq_of_departed (h : RoomService.Departed rt room playerId now next)
    (hs : room.songSelection = some s) (hphase : s.phase = .typing) :
    next.songSelection = some s := by
  obtain ⟨-, hsettled, hpassed⟩ := h
  have hselection := hsettled.selection_eq.1
  cases hpassed with
  | kept => rw [hselection, hs]
  | passed s' hs' hchoosing =>
    rw [hselection, hs] at hs'
    obtain rfl := Option.some.inj hs'
    rw [hphase] at hchoosing
    cases hchoosing

/-- After a departure the others can type as before. -/
theorem canType_of_departed (h : RoomService.Departed rt room playerId now next) (id : JsString) :
    next.CanType s id ↔ room.CanType s id ∧ id ≠ playerId := by
  have hseated : id ∈ next.playerIds ↔ id ∈ room.playerIds ∧ id ≠ playerId := by
    simp only [Room.mem_playerIds, h.players_eq, List.mem_filter, decide_eq_true_eq]
    constructor
    · rintro ⟨p, ⟨hp, hne⟩, rfl⟩
      exact ⟨⟨p, hp, rfl⟩, hne⟩
    · rintro ⟨⟨p, hp, rfl⟩, hne⟩
      exact ⟨p, ⟨hp, hne⟩, rfl⟩
  simp only [Room.CanType, hseated]
  tauto

/-- A departure keeps somebody able to type, unless the only one leaves and somebody stays. -/
theorem hasTypist_of_departed (h : room.HasTypist)
    (hdeparted : RoomService.Departed rt room playerId now next) (hnext : next.players ≠ [])
    (hop : op.takesOut? room = some playerId) (hstrands : ¬op.Strands room) :
    next.HasTypist := by
  intro s hs hphase
  by_contra hnobody
  have hnone : ∀ id, ¬next.CanType s id := fun id hid => hnobody ⟨id, hid⟩
  have hselection : room.songSelection = some s := by
    obtain ⟨-, hsettled, hpassed⟩ := hdeparted
    cases hpassed with
    | kept => exact hsettled.selection_eq.1 ▸ hs
    | passed _ _ _ _ hfallback =>
      cases hfallback with
      | cancelled => simp at hs
      | assigned => obtain rfl := Option.some.inj hs; simp at hphase
  refine hstrands ⟨s, hselection, hphase, playerId, hop, fun id => ⟨fun hid => ?_, ?_⟩, ?_⟩
  · by_contra hne
    exact hnone id ((canType_of_departed hdeparted id).mpr ⟨hid, hne⟩)
  · rintro rfl
    obtain ⟨typist, htypist⟩ := h s hselection hphase
    have heq : typist = id := by
      by_contra hne
      exact hnone typist ((canType_of_departed hdeparted typist).mpr ⟨htypist, hne⟩)
    exact heq ▸ htypist
  · obtain ⟨p, hp⟩ := List.exists_mem_of_ne_nil _ hnext
    rw [hdeparted.players_eq, List.mem_filter, decide_eq_true_eq] at hp
    exact ⟨p.id, Room.mem_playerIds.mpr ⟨p, hp.1, rfl⟩, hp.2⟩

/-! ### Calls -/

/-- Every change but the departure of the only player able to type leaves such a player. -/
theorem Change.hasTypist (hchange : Change rt room op next) (hinv : RoomInvariant rt room)
    (h : room.HasTypist) (hstrands : ¬op.Strands room) : next.HasTypist := by
  have hsame (hop : op.seats = false) (hselection : next.songSelection = room.songSelection) :
      next.HasTypist :=
    h.mono hselection fun id hid => by rwa [hchange.playerIds_eq hop]
  cases hchange with
  | joined p => exact h.mono rfl (by simp [Room.playerIds])
  | left hdeparted hplayers => exact hasTypist_of_departed h hdeparted hplayers rfl hstrands
  | @kicked id random now _ hstatus hother hdeparted =>
    refine hasTypist_of_departed h hdeparted (hinv.players_ne_nil_of_kicked hother hdeparted) ?_
      hstrands
    simp [RoomOp.takesOut?, hstatus, hother]
  | roleSelected | readySet | voted | awarded | finished => exact hsame rfl rfl
  | battleStarted hstarted => exact hsame rfl hstarted.selection_eq
  | challengeStarted phrase _ _ hdancers => exact hasTypist_challenged hdancers
  | submitted _ hsubmitted => exact hasTypist_of_submitted hsubmitted
  | expired _ _ _ _ hfallback => exact hasTypist_of_fallback hfallback
  | songChosen hchosen hnext =>
    have hselection := SelectionChange.selection_eq_of_started hnext
    obtain ⟨s, song⟩ := hchosen
    exact hasTypist_of_phase_ne (by simp [hselection])
  | songPicked hpicked hnext =>
    have hselection := SelectionChange.selection_eq_of_started hnext
    cases hpicked <;> exact hasTypist_of_phase_ne (by simp [hselection])
  | rematched => exact hasTypist_of_phase_ne (by simp [RoomService.rematched])

/-- Every call but the departure of the only player able to type leaves such a player. -/
theorem Stored.hasTypist {slot slot' : Option Room} (hstored : Stored rt code slot op slot')
    (hinv : ∀ room ∈ slot, RoomInvariant rt room) (h : ∀ room ∈ slot, room.HasTypist)
    (hstrands : ∀ room ∈ slot, ¬op.Strands room) : ∀ room ∈ slot', room.HasTypist := by
  cases hstored with
  | unchanged => exact h
  | created => simp [Room.HasTypist, RoomService.newRoom]
  | changed hchange =>
    rintro room ⟨⟩
    exact hchange.hasTypist (hinv _ rfl) (h _ rfl) (hstrands _ rfl)
  | deleted => simp

/-- A host may always kick another player out of the lobby. -/
theorem step_kick_of_host (rt : Runtime) (code : JsString) (random : RandomIndex) (now : Instant)
    (hstatus : room.status = .waiting) (hother : playerId ≠ room.hostId)
    (hseated : playerId ∈ room.playerIds) :
    ∃ updated, RoomService.Departed rt room playerId now updated ∧
      ((RoomOp.kick room.hostId (.string playerId) random now).step rt code (some room)).1 =
        some { updated with version := room.version + 1 } := by
  obtain ⟨updated, hleave⟩ := RoomService.exists_leave rt random now hseated
  have hdeparted := RoomService.leave_spec hleave
  have hmutate : (KickPlayer.execute rt code room.hostId (.string playerId) random now).mutate
      (KickPlayer.execute rt code room.hostId (.string playerId) random now).initial room =
        ((), .ok (.room updated)) := by
    simp [KickPlayer.execute, RoomUpdate.plain, RoomService.kick, throwIf, hstatus, hother,
      hseated, JsValue.string?, hleave, bind, Except.bind, Functor.map, Except.map]
  refine ⟨updated, hdeparted, ?_⟩
  simp only [RoomOp.step, RoomOp.runUpdate]
  rw [RoomUpdate.execute_of_room hmutate hdeparted.version_eq]

/-- The departure of the only player able to type leaves the round without one. -/
theorem not_hasTypist_of_strands (rt : Runtime) (code : JsString) (h : op.Strands room) :
    ∃ next ∈ (op.step rt code (some room)).1, ¬next.HasTypist := by
  obtain ⟨s, hs, hphase, playerId, hop, htypist, other, hother, hne⟩ := h
  have hseated : playerId ∈ room.playerIds := ((htypist playerId).mpr rfl).2.1
  have hstuck : ∀ {updated : Room} {now : Instant},
      RoomService.Departed rt room playerId now updated → ∀ version,
      ¬{ updated with version := version }.HasTypist := by
    intro updated now hdeparted version hall
    have hselection := selection_eq_of_departed hdeparted hs hphase
    obtain ⟨id, hid⟩ := hall s hselection hphase
    obtain ⟨hcan, hne⟩ := (canType_of_departed (s := s) hdeparted id).mp hid
    exact hne ((htypist id).mp hcan)
  cases op with
  | leave id random now =>
    obtain rfl := Option.some.inj hop
    obtain ⟨updated, hdeparted, hstep⟩ := step_leave_of_seated rt code random now hseated
    have hplayers : updated.players ≠ [] := by
      obtain ⟨p, hp, rfl⟩ := Room.mem_playerIds.mp hother
      rw [hdeparted.players_eq]
      exact List.ne_nil_of_mem (List.mem_filter.mpr ⟨hp, by simpa using hne⟩)
    rw [hstep, departedSlot, if_neg hplayers]
    exact ⟨_, rfl, hstuck hdeparted _⟩
  | kick requesterId target random now =>
    cases target with
    | string id =>
      simp only [RoomOp.takesOut?] at hop
      split_ifs at hop with hkick
      · obtain rfl := Option.some.inj hop
        obtain ⟨rfl, hstatus, hself⟩ := hkick
        obtain ⟨updated, hdeparted, hstep⟩ :=
          step_kick_of_host rt code random now hstatus hself hseated
        rw [hstep]
        exact ⟨_, rfl, hstuck hdeparted _⟩
      · simp at hop
    | _ => simp [RoomOp.takesOut?] at hop
  | _ => simp [RoomOp.takesOut?] at hop

/-- In a run from a free code, somebody can type the phrase in every typing round of every stored
room exactly when no call is the departure of the only player able to type. -/
theorem hasTypist_iff (rt : Runtime) (code : JsString) (ops : List RoomOp) :
    (∀ e ∈ (roomMachine rt code).trace none ops, ∀ room ∈ e.after, room.HasTypist) ↔
      ∀ e ∈ (roomMachine rt code).trace none ops, ∀ room ∈ e.before,
        ¬e.input.Strands room := by
  constructor
  · intro hall e he room hroom hstrands
    obtain ⟨next, hnext, hstuck⟩ := not_hasTypist_of_strands rt code hstrands
    refine hstuck (hall e he next ?_)
    rw [Machine.event_of_mem_trace he]
    show next ∈ (e.input.step rt code e.before).1
    rwa [Option.mem_def.mp hroom]
  · intro hstrands e he
    have hkeep : ∀ e ∈ (roomMachine rt code).trace none ops,
        (∀ room ∈ e.before, RoomInvariant rt room ∧ room.HasTypist) →
          ∀ room ∈ e.after, RoomInvariant rt room ∧ room.HasTypist := by
      intro e he hbefore room hroom
      have hstored := stored_of_mem_trace he
      have hinv : ∀ r ∈ e.before, RoomInvariant rt r := fun r hr => (hbefore r hr).1
      exact ⟨hstored.roomInvariant hinv room hroom,
        hstored.hasTypist hinv (fun r hr => (hbefore r hr).2) (hstrands e he) room hroom⟩
    have hafter := (Machine.invariant_of_mem_trace
      (P := fun slot => ∀ room ∈ slot, RoomInvariant rt room ∧ room.HasTypist) hkeep (by simp) he).2
    exact fun room hroom => (hafter room hroom).2

/-- Bob misspells the phrase and Ana leaves. -/
def sampleStranded : List RoomOp :=
  sampleLobby.take 9 ++
    [.submitPhrase (js "bob") (.string (js "rimto")) 1500 .first,
      .leave (js "ana") .first 1600]

/-- Bob cannot type any more, and the round waits for the countdown. -/
theorem leave_strands_round :
    ∃ room ∈ (roomMachine .ascii (js "ROOM22")).run none sampleStranded, ¬room.HasTypist := by
  decide +kernel

end DanceSync
