import DanceSync.Application.RoomMachine
import DanceSync.Model.Ascii

/-!
# The lifecycle invariant of a room

A room keeps the same facts in several places: the players, the spectators among them, the
dancers and the battle that names them. Every change of a stored room keeps these views in
agreement, in the lobby, while a battle runs and after it.

## Main definitions

* `Room.Seats`: who is in the room, who is the host and who watches.
* `Room.Lists`, `Room.Runs`, `Room.Closed`: the battle while it runs and after it.
* `RoomInvariant`.

## Main results

* `Change.roomInvariant`: every change preserves the invariant.
* `roomInvariant_run`: it holds in every room that a run reaches.
-/

namespace DanceSync

/-- One to seven players with distinct ids, the first one hosts, the spectators are those with that
role. -/
structure Room.Seats (room : Room) : Prop where
  length_pos : 1 ≤ room.players.length
  length_le : room.players.length ≤ MAX_PLAYERS
  nodup : room.playerIds.Nodup
  host : room.players.head?.map (·.id) = some room.hostId
  spectators : room.spectators = Room.withRole .spectator room.players

/-- An open battle whose dancers and votes agree with the lists of the room. -/
structure Room.Lists (room : Room) (battle : Battle) : Prop where
  finishedAt : battle.finishedAt = none
  endReason : battle.endReason = none
  result : battle.result = none
  nodup : battle.dancerIds.Nodup
  dancers : room.dancers.map (fun dancers => dancers.map (·.id)) = some battle.dancerIds
  role : ∀ id, id ∈ battle.dancerIds ↔ ∃ p ∈ room.players, p.id = id ∧ p.role = .dancer
  votes : ∀ vote ∈ battle.votes.entries,
    vote.1 ∈ room.spectators.map (·.id) ∧ vote.2 ∈ battle.dancerIds

/-- A running battle has enough dancers. -/
structure Room.Runs (room : Room) (battle : Battle) : Prop extends Room.Lists room battle where
  enough : MIN_DANCERS_PER_BATTLE ≤ battle.dancerIds.length

/-- A finished battle carries its ranking, which is also the latest of the room. -/
structure Room.Closed (rt : Runtime) (room : Room) (battle : Battle) : Prop where
  finishedAt : ∃ finishedAt ∈ battle.finishedAt, finishedAt.Valid
  endReason : battle.endReason = some
    (if battle.dancerIds.length < MIN_DANCERS_PER_BATTLE then .notEnoughDancers else .songEnd)
  result : battle.result = some (ScoringService.result rt battle)
  lastResult : room.lastResult = battle.result
  nodup : battle.dancerIds.Nodup
  votes : ∀ vote ∈ battle.votes.entries, vote.2 ∈ battle.dancerIds

/-- The lifecycle invariant. -/
structure RoomInvariant (rt : Runtime) (room : Room) : Prop where
  seats : room.Seats
  waiting : room.status = .waiting → room.battle = none ∧ room.dancers = none
  battling : room.status = .battling → ∃ battle, room.battle = some battle ∧ room.Runs battle
  finished : room.status = .finished → ∃ battle, room.battle = some battle ∧ room.Closed rt battle

variable {rt : Runtime} {code : JsString} {room next : Room} {playerId : JsString} {now : Instant}
  {battle : Battle}

/-! ### Changes of the seats -/

namespace Room.Seats

/-- A player with a new id who has not chosen a role sits down last. -/
theorem join (h : room.Seats) {p : Player} (hnew : p.id ∉ room.playerIds)
    (hspace : room.players.length < MAX_PLAYERS) (hrole : p.role = .undecided) :
    { room with players := room.players ++ [p] }.Seats where
  length_pos := by simp
  length_le := by simpa using hspace
  nodup := by
    simp only [playerIds, List.map_append, List.map_cons, List.map_nil]
    exact h.nodup.append (List.nodup_singleton _) (by simpa [playerIds] using hnew)
  host := by
    have hhost := h.host
    cases hplayers : room.players with
    | nil => simp [hplayers] at hhost
    | cons q players => simpa [hplayers] using hhost
  spectators := by
    show room.spectators = _
    rw [h.spectators, withRole, withRole, List.filter_append]
    simp [hrole]

/-- Changing the players in place keeps the seats when the spectators are listed again. -/
theorem mapPlayers (h : room.Seats) (change : Player → Player) (hid : ∀ p, (change p).id = p.id)
    (hplayers : next.players = room.players.map change) (hhost : next.hostId = room.hostId)
    (hspectators : next.spectators = withRole .spectator next.players) : next.Seats where
  length_pos := by simpa [hplayers] using h.length_pos
  length_le := by simpa [hplayers] using h.length_le
  nodup := by simpa [playerIds, hplayers, Function.comp_def, hid] using h.nodup
  host := by
    simpa [hplayers, hhost, List.head?_map, Option.map_map, Function.comp_def, hid] using h.host
  spectators := hspectators

theorem unseat (h : room.Seats) (hplayers : (RoomService.unseat room playerId).players ≠ []) :
    (RoomService.unseat room playerId).Seats where
  length_pos := List.length_pos_iff.mpr hplayers
  length_le := (List.length_filter_le _ _).trans h.length_le
  nodup := h.nodup.sublist (List.filter_sublist.map _)
  host := by
    have hhost := h.host
    cases hroom : room.players with
    | nil => simp [hroom] at hhost
    | cons q players =>
      simp only [hroom, List.head?_cons, Option.map_some, Option.some.injEq] at hhost
      simp only [RoomService.unseat, hroom, List.filter_cons] at hplayers ⊢
      by_cases hq : q.id = playerId
      · simp only [hq, ne_eq, not_true_eq_false, decide_false, Bool.false_eq_true, ↓reduceIte]
          at hplayers ⊢
        rw [if_pos (hhost.symm.trans hq)]
        cases hrest : players.filter (·.id ≠ playerId) with
        | nil => exact absurd hrest hplayers
        | cons r rest => simp
      · have hhost' : room.hostId ≠ playerId := fun hr => hq (hhost.trans hr)
        simp [hhost, hhost']
  spectators := by
    simp only [RoomService.unseat, h.spectators, withRole, List.filter_filter]
    exact List.filter_congr fun p _ => Bool.and_comm _ _

/-- A spectator is a player. -/
theorem mem_playerIds_of_spectator (h : room.Seats) {id : JsString}
    (hid : id ∈ room.spectators.map (·.id)) : id ∈ room.playerIds := by
  rw [h.spectators] at hid
  exact List.map_subset _ (List.filter_subset_self _) hid

end Room.Seats

/-! ### The parts of a battle -/

namespace Room.Lists

/-- Whoever a running battle mentions is in the room. -/
theorem mem_playerIds (h : room.Lists battle) (hseats : room.Seats) {id : JsString}
    (hid : id ∈ battle.dancerIds ∨ id ∈ battle.votes.keys) : id ∈ room.playerIds := by
  rcases hid with hdancer | hvoter
  · obtain ⟨p, hp, hpid, -⟩ := (h.role id).mp hdancer
    exact Room.mem_playerIds.mpr ⟨p, hp, hpid⟩
  · obtain ⟨vote, hvote, rfl⟩ := List.mem_map.mp hvoter
    exact hseats.mem_playerIds_of_spectator (h.votes vote hvote).1

/-- A departure keeps the lists of a running battle in agreement. -/
theorem withoutPlayer (h : room.Lists battle) (playerId : JsString) :
    { RoomService.unseat room playerId with
      battle := some (RoomService.withoutPlayer battle playerId) }.Lists
      (RoomService.withoutPlayer battle playerId) where
  finishedAt := h.finishedAt
  endReason := h.endReason
  result := h.result
  nodup := h.nodup.filter _
  dancers := by
    have hdancers := h.dancers
    cases hroom : room.dancers with
    | none => simp [hroom] at hdancers
    | some dancers =>
      simp only [hroom, Option.map_some, Option.some.injEq] at hdancers
      simp only [RoomService.unseat, RoomService.withoutPlayer, hroom, Option.map_some,
        ← hdancers, List.filter_map, Function.comp_def]
  role id := by
    simp only [RoomService.unseat, RoomService.withoutPlayer, List.mem_filter, h.role,
      decide_eq_true_eq]
    constructor
    · rintro ⟨⟨p, hp, rfl, hrole⟩, hid⟩
      exact ⟨p, ⟨hp, hid⟩, rfl, hrole⟩
    · rintro ⟨p, ⟨hp, hid⟩, rfl, hrole⟩
      exact ⟨⟨p, hp, rfl, hrole⟩, hid⟩
  votes vote hvote := by
    simp only [RoomService.withoutPlayer, Record.mem_entries_filter, decide_eq_true_eq] at hvote
    obtain ⟨hmem, hvoter, hdancer⟩ := hvote
    obtain ⟨hspectator, hdancing⟩ := h.votes vote hmem
    obtain ⟨s, hs, hid⟩ := List.mem_map.mp hspectator
    refine ⟨List.mem_map.mpr ⟨s, ?_, hid⟩, ?_⟩
    · exact List.mem_filter.mpr ⟨hs, by simpa [hid] using hvoter⟩
    · exact List.mem_filter.mpr ⟨hdancing, by simpa using hdancer⟩

end Room.Lists

namespace Room.Closed

/-- Closing a battle whose votes name its dancers. -/
theorem finished {reason : BattleEndReason}
    (hreason : reason = if battle.dancerIds.length < MIN_DANCERS_PER_BATTLE
      then .notEnoughDancers else .songEnd)
    (hnodup : battle.dancerIds.Nodup)
    (hvotes : ∀ vote ∈ battle.votes.entries, vote.2 ∈ battle.dancerIds) :
    ∃ closed, (RoomService.finished rt room battle reason now).battle = some closed ∧
      (RoomService.finished rt room battle reason now).Closed rt closed :=
  ⟨_, rfl, ⟨_, rfl, Date.valid_at⟩, congrArg some hreason, rfl, rfl, hnodup, hvotes⟩

end Room.Closed

namespace RoomInvariant

theorem of_waiting (hseats : room.Seats) (hstatus : room.status = .waiting)
    (hbattle : room.battle = none) (hdancers : room.dancers = none) : RoomInvariant rt room where
  seats := hseats
  waiting _ := ⟨hbattle, hdancers⟩
  battling h := by simp [hstatus] at h
  finished h := by simp [hstatus] at h

theorem of_battling (hseats : room.Seats) (hstatus : room.status = .battling)
    (hbattle : room.battle = some battle) (hruns : room.Runs battle) : RoomInvariant rt room where
  seats := hseats
  waiting h := by simp [hstatus] at h
  battling _ := ⟨battle, hbattle, hruns⟩
  finished h := by simp [hstatus] at h

theorem of_finished (hseats : room.Seats) (hstatus : room.status = .finished)
    (hclosed : ∃ battle, room.battle = some battle ∧ room.Closed rt battle) :
    RoomInvariant rt room where
  seats := hseats
  waiting h := by simp [hstatus] at h
  battling h := by simp [hstatus] at h
  finished _ := hclosed

/-- The battle of a battling room runs. -/
theorem runs (h : RoomInvariant rt room) (hstatus : room.status = .battling)
    (hbattle : room.battle = some battle) : room.Runs battle := by
  obtain ⟨b, hb, hruns⟩ := h.battling hstatus
  obtain rfl : battle = b := Option.some.inj (hbattle.symm.trans hb)
  exact hruns

/-- What every battle of a room keeps: its dancers are distinct and its votes name them. -/
theorem dancers_and_votes (hinv : RoomInvariant rt room) (hbattle : room.battle = some battle) :
    battle.dancerIds.Nodup ∧ ∀ vote ∈ battle.votes.entries, vote.2 ∈ battle.dancerIds := by
  match hstatus : room.status with
  | .waiting =>
    obtain ⟨hnone, -⟩ := hinv.waiting hstatus
    rw [hnone] at hbattle
    cases hbattle
  | .battling =>
    have hruns := hinv.runs hstatus hbattle
    exact ⟨hruns.nodup, fun vote hvote => (hruns.votes vote hvote).2⟩
  | .finished =>
    obtain ⟨b, hb, hclosed⟩ := hinv.finished hstatus
    obtain rfl : battle = b := Option.some.inj (hbattle.symm.trans hb)
    exact ⟨hclosed.nodup, hclosed.votes⟩

/-- The song selection and the version play no part in the invariant. -/
theorem withSelection (h : RoomInvariant rt room) (songSelection : Option SongSelection)
    (selectedSong : Option Song) (version : ℕ) :
    RoomInvariant rt { room with songSelection, selectedSong, version } where
  seats := { h.seats with }
  waiting := h.waiting
  battling hstatus := by
    obtain ⟨battle, hbattle, hruns⟩ := h.battling hstatus
    exact ⟨battle, hbattle, { hruns with }⟩
  finished hstatus := by
    obtain ⟨battle, hbattle, hclosed⟩ := h.finished hstatus
    exact ⟨battle, hbattle, { hclosed with }⟩

/-! ### Changes of the room -/

theorem newRoom {p : Player} (hrole : p.role = .undecided) :
    RoomInvariant rt (RoomService.newRoom p code now) := by
  refine of_waiting ⟨le_rfl, ?_, List.nodup_singleton _, rfl, ?_⟩ rfl rfl rfl
  · show 1 ≤ MAX_PLAYERS
    decide
  · simp [RoomService.newRoom, Room.withRole, hrole]

theorem withPlayer (h : RoomInvariant rt room) (hstatus : room.status = .waiting)
    {change : Player → Player} (hid : ∀ p, (change p).id = p.id) :
    RoomInvariant rt (RoomService.withPlayer room playerId change) := by
  obtain ⟨hbattle, hdancers⟩ := h.waiting hstatus
  refine of_waiting (h.seats.mapPlayers _ (fun p => ?_) rfl rfl rfl) hstatus hbattle hdancers
  split_ifs
  · exact hid p
  · rfl

theorem settled (h : RoomInvariant rt room)
    (hsettled : RoomService.Settled rt room playerId now next)
    (hplayers : next.players ≠ []) : RoomInvariant rt next := by
  cases hsettled with
  | idle hidle =>
    have hseats := h.seats.unseat hplayers
    match hstatus : room.status with
    | .waiting =>
      obtain ⟨hbattle, hdancers⟩ := h.waiting hstatus
      refine of_waiting hseats hstatus hbattle ?_
      simp [RoomService.unseat, hdancers]
    | .battling =>
      obtain ⟨battle, hbattle, -⟩ := h.battling hstatus
      exact absurd hbattle (hidle battle hstatus)
    | .finished =>
      obtain ⟨battle, hbattle, hclosed⟩ := h.finished hstatus
      exact of_finished hseats hstatus ⟨battle, hbattle, { hclosed with }⟩
  | continuing battle hstatus hbattle henough =>
    have hlists := (h.runs hstatus hbattle).toLists.withoutPlayer playerId
    exact of_battling { h.seats.unseat hplayers with } hstatus rfl
      { hlists with enough := henough }
  | ended battle hstatus hbattle hfew =>
    have hlists := (h.runs hstatus hbattle).toLists.withoutPlayer playerId
    refine of_finished { h.seats.unseat hplayers with } rfl ?_
    exact Room.Closed.finished (if_pos hfew).symm hlists.nodup
      fun vote hvote => (hlists.votes vote hvote).2

theorem fallback {selection : SongSelection} {reason : ChooserReason} (h : RoomInvariant rt room)
    (hfallback : SongSelectionService.Fallback room selection reason now next) :
    RoomInvariant rt next := by
  obtain ⟨songSelection, rfl⟩ := hfallback.exists_eq
  exact h.withSelection songSelection _ _

theorem chosen {songId : JsString} (h : RoomInvariant rt room)
    (hchosen : SongSelectionService.Chosen room playerId songId next) : RoomInvariant rt next := by
  cases hchosen with
  | mk selection song => exact h.withSelection (some _) (some song) _

theorem autoPicked {challengeId : JsString} (h : RoomInvariant rt room)
    (hpicked : SongSelectionService.AutoPicked room challengeId now next) :
    RoomInvariant rt next := by
  cases hpicked with
  | cancelled selection => exact h.withSelection none _ _
  | picked selection deadline song => exact h.withSelection (some _) (some song) _

theorem departed (h : RoomInvariant rt room)
    (hdeparted : RoomService.Departed rt room playerId now next) (hplayers : next.players ≠ []) :
    RoomInvariant rt next := by
  obtain ⟨hseated, hsettled, hpassed⟩ := hdeparted
  obtain ⟨songSelection, rfl⟩ := hpassed.exists_eq
  exact (h.settled hsettled hplayers).withSelection songSelection _ _

/-- A player other than the host who is taken out of the lobby leaves the host behind. -/
theorem players_ne_nil_of_kicked (h : RoomInvariant rt room) (hother : playerId ≠ room.hostId)
    (hdeparted : RoomService.Departed rt room playerId now next) : next.players ≠ [] := by
  have hhost := h.seats.host
  rw [hdeparted.players_eq]
  cases hplayers : room.players with
  | nil => simp [hplayers] at hhost
  | cons p players =>
    simp only [hplayers, List.head?_cons, Option.map_some, Option.some.injEq] at hhost
    exact List.ne_nil_of_mem (a := p) (by simp [hhost, Ne.symm hother])

/-- The start of a battle. -/
theorem started {options : StartBattleOptions} (h : RoomInvariant rt room)
    (hstarted : RoomService.Started room options next) : RoomInvariant rt next := by
  obtain ⟨selected, song, hstatus, hprogress, hready, hnodup, hlength, hmem, hsong⟩ := hstarted
  refine of_battling (h.seats.mapPlayers (fun p =>
    { p with role := if p.id ∈ selected.map (·.id) then .dancer else .spectator }) (fun _ => rfl)
    (RoomService.players_battling selected song options) rfl rfl) rfl rfl ?_
  exact
    { finishedAt := rfl
      endReason := rfl
      result := rfl
      nodup := (RoomService.map_id_dancers selected).symm ▸ hnodup
      dancers := rfl
      role := fun id => by
        rw [RoomService.players_battling]
        show id ∈ List.map (fun p : Player => p.id) (selected.map _) ↔ _
        rw [RoomService.map_id_dancers]
        constructor
        · intro hid
          obtain ⟨p, hp, rfl⟩ := List.mem_map.mp hid
          exact ⟨_, List.mem_map_of_mem (hmem p hp), rfl, if_pos hid⟩
        · rintro ⟨p, hp, rfl, hrole⟩
          obtain ⟨q, hq, rfl⟩ := List.mem_map.mp hp
          by_contra hnot
          simp [hnot] at hrole
      votes := by simp [RoomService.battling]
      enough := by simpa [RoomService.battling] using hlength }

theorem voted {voterId : JsString} {wanted : Option JsString} (h : RoomInvariant rt room)
    (hstatus : room.status = .battling) (hbattle : room.battle = some battle)
    (hvoter : voterId ∈ room.spectators.map (·.id))
    (hdancer : ∀ id ∈ wanted, id ∈ battle.dancerIds) :
    RoomInvariant rt (RoomService.voted rt room battle voterId wanted) := by
  have hruns := h.runs hstatus hbattle
  refine of_battling { h.seats with } hstatus rfl { hruns with votes := fun vote hvote => ?_ }
  rcases RoomService.mem_entries_of_mem_votesAfter hvote with hvote | ⟨hid, hwanted⟩
  · exact hruns.votes vote hvote
  · exact ⟨hid ▸ hvoter, hdancer vote.2 hwanted⟩

theorem awarded (h : RoomInvariant rt room) (hstatus : room.status = .battling)
    (hbattle : room.battle = some battle) :
    RoomInvariant rt (RoomService.awarded rt room battle playerId) :=
  of_battling { h.seats with } hstatus rfl { h.runs hstatus hbattle with }

theorem finishedAtDeadline (h : RoomInvariant rt room) (hstatus : room.status = .battling)
    (hbattle : room.battle = some battle) :
    RoomInvariant rt (RoomService.finished rt room battle .songEnd now) := by
  have hruns := h.runs hstatus hbattle
  refine of_finished { h.seats with } rfl ?_
  exact Room.Closed.finished (if_neg (not_lt.mpr hruns.enough)).symm hruns.nodup
    fun vote hvote => (hruns.votes vote hvote).2

theorem rematched (h : RoomInvariant rt room) : RoomInvariant rt (RoomService.rematched room) :=
  of_waiting (h.seats.mapPlayers (fun p => { p with ready := false }) (fun _ => rfl) rfl rfl rfl)
    rfl rfl rfl

end RoomInvariant

/-- Every change of a stored room preserves the invariant. -/
theorem Change.roomInvariant {op : RoomOp} (hchange : Change rt room op next)
    (h : RoomInvariant rt room) : RoomInvariant rt next := by
  cases hchange with
  | joined p hstatus hnew hspace hrole hready =>
    obtain ⟨hbattle, hdancers⟩ := h.waiting hstatus
    exact .of_waiting (h.seats.join hnew hspace hrole) hstatus hbattle hdancers
  | left hdeparted hplayers => exact h.departed hdeparted hplayers
  | kicked hstatus hother hdeparted =>
    exact h.departed hdeparted (h.players_ne_nil_of_kicked hother hdeparted)
  | roleSelected chosen hstatus hseated => exact h.withPlayer hstatus fun _ => rfl
  | readySet flag hstatus hseated => exact h.withPlayer hstatus fun _ => rfl
  | challengeStarted phrase => exact h.withSelection _ _ _
  | submitted outcome hsubmitted =>
    cases hsubmitted with
    | expired selection _ _ _ _ _ hfallback => exact h.fallback hfallback
    | accepted selection => exact h.withSelection _ _ _
    | misspelled selection => exact h.withSelection _ _ _
    | allMisspelled selection _ _ _ _ _ _ _ _ hfallback => exact h.fallback hfallback
  | expired selection _ _ _ hfallback => exact h.fallback hfallback
  | songChosen hchosen hnext =>
    have hchosen := h.chosen hchosen
    rcases hnext with rfl | hstarted
    · exact hchosen
    · exact hchosen.started hstarted
  | songPicked hpicked hnext =>
    have hpicked := h.autoPicked hpicked
    rcases hnext with rfl | hstarted
    · exact hpicked
    · exact hpicked.started hstarted
  | battleStarted hstarted => exact h.started hstarted
  | voted battle wanted hstatus hbattle hvoter _ _ _ hdancer =>
    exact h.voted hstatus hbattle hvoter hdancer
  | awarded battle hstatus hbattle => exact h.awarded hstatus hbattle
  | finished battle hstatus hbattle => exact h.finishedAtDeadline hstatus hbattle
  | rematched => exact h.rematched

/-- What an input leaves in the store satisfies the invariant. -/
theorem Stored.roomInvariant {slot slot' : Option Room} {op : RoomOp}
    (hstored : Stored rt code slot op slot') (h : ∀ room ∈ slot, RoomInvariant rt room) :
    ∀ room ∈ slot', RoomInvariant rt room := by
  cases hstored with
  | unchanged => exact h
  | created p hrole hready =>
    rintro room ⟨⟩
    exact .newRoom hrole
  | changed hchange =>
    rintro room ⟨⟩
    exact (hchange.roomInvariant (h _ rfl)).withSelection _ _ _
  | deleted => simp

/-- A run of operations keeps the invariant of the stored room. -/
theorem roomInvariant_run (rt : Runtime) (code : JsString) (ops : List RoomOp) {slot : Option Room}
    (h : ∀ room ∈ slot, RoomInvariant rt room) :
    ∀ room ∈ (roomMachine rt code).run slot ops, RoomInvariant rt room :=
  Machine.run_invariant (P := fun slot => ∀ room ∈ slot, RoomInvariant rt room)
    (fun _ he h => (stored_of_mem_trace he).roomInvariant h) h

/-- The invariant holds in every room that operations make out of a free code. -/
theorem lifecycle_invariant (rt : Runtime) (code : JsString) (ops : List RoomOp) (room : Room)
    (hrun : (roomMachine rt code).run none ops = some room) : RoomInvariant rt room :=
  roomInvariant_run rt code ops (by simp) room hrun

/-- Ana and Bob dance, Eve watches, and Bob types the phrase. -/
def sampleLobby : List RoomOp :=
  [.create (.string (js "ana")) (.string (js "Ana")) 0,
    .join (.string (js "bob")) (.string (js "Bob")),
    .join (.string (js "eve")) (.string (js "Eve")),
    .selectRole (js "ana") (.string (js "dancer")),
    .selectRole (js "bob") (.string (js "dancer")),
    .setReady (js "ana") (.boolean true),
    .setReady (js "bob") (.boolean true),
    .setReady (js "eve") (.boolean true),
    .startChallenge (js "ana") { now := 1000, challengeId := js "c1", random := .first },
    .submitPhrase (js "bob") (.string (js "ritmo")) 2000 .first]

/-- Bob's song starts battle `b1`, from 3000 to 93000. -/
def sampleStart : RoomOp :=
  .chooseSong (js "bob") (js "song-1") { now := 3000, battleId := js "b1" }

def sampleBattle : List RoomOp := sampleLobby ++ [sampleStart]

theorem lifecycle_invariant_sampleBattle :
    ∃ room ∈ (roomMachine .ascii (js "ROOM22")).run none sampleBattle,
      room.status = .battling ∧ RoomInvariant .ascii room := by
  have hstatus : ((roomMachine .ascii (js "ROOM22")).run none sampleBattle).map (·.status) =
      some .battling := by decide +kernel
  obtain ⟨room, hrun, hbattling⟩ := Option.map_eq_some_iff.mp hstatus
  exact ⟨room, hrun, hbattling, lifecycle_invariant .ascii (js "ROOM22") sampleBattle room hrun⟩

end DanceSync
