import DanceSync.Domain.MatchRecord
import DanceSync.Lifecycle.Votes
import DanceSync.Lifecycle.WordsWon

/-!
# The history of a battle

A finished battle keeps who danced and who watched at its start, the rounds won by dancers who left
since, and the ranking of those who stayed. The document made of it tells the accepted departures
and word bonuses of the whole battle, the last one included.

## Main definitions

* `RoomEvent.leaver?`, `RoomEvent.awardee?`: what an accepted call tells.
* `Room.AtStart`: a room just put in a battle.
* `Recounts`: what the room and its battle keep of the history.
* `MatchRecord.Tells`: a document that tells a history.

## Main results

* `recounts_of_event`, `recounts_run`: the history is kept along a battle.
* `record_tells_battle`.
-/

namespace DanceSync

/-- The player who left by an accepted departure. -/
def RoomEvent.leaver? (e : RoomEvent) : Option JsString :=
  match e.input, e.output with
  | .leave playerId _ _, .ok _ => some playerId
  | _, _ => none

/-- The dancer for whom an accepted call counted a word round. -/
def RoomEvent.awardee? (e : RoomEvent) : Option JsString :=
  match e.input, e.output with
  | .awardWordBonus playerId, .ok _ => some playerId
  | _, _ => none

/-- The players who left in a run. -/
def leavers (events : List RoomEvent) : List JsString := events.filterMap RoomEvent.leaver?

/-- The dancers for whom a run counted word rounds, once for each round. -/
def awardees (events : List RoomEvent) : List JsString := events.filterMap RoomEvent.awardee?

/-- A room just put in a battle: everyone dances or watches, and the battle names them all. -/
structure Room.AtStart (room : Room) (battle : Battle) : Prop where
  roster : battle.roster.map (·.id) = battle.dancerIds
  audience : battle.audience.map (·.id) = room.spectators.map (·.id)
  role : ∀ p ∈ room.players, p.role = .dancer ∨ p.role = .spectator
  wordsWon : ∀ id ∈ battle.dancerIds, battle.wordsWon.own? id = some (.number 0)

/-- What a room and its battle keep of the history since its start. -/
structure Recounts (start : Room) (battle₀ : Battle) (left won : List JsString) (room : Room)
    (battle : Battle) : Prop where
  roster : battle.roster = battle₀.roster
  audience : battle.audience = battle₀.audience
  dancers : ∀ id, id ∈ battle.dancerIds ↔ id ∈ battle₀.dancerIds ∧ id ∉ left
  players : ∀ id, id ∈ room.playerIds ↔ id ∈ start.playerIds ∧ id ∉ left
  wordsWon : ∀ id ∈ battle₀.dancerIds, battle.wordsWon.own? id = some (.number (won.count id))

/-- The document of a battle that began in a room and in which some players left and some rounds
were won. -/
structure MatchRecord.Tells (record : MatchRecord) (start : Room) (battle₀ : Battle)
    (result : BattleResult) (left won : List JsString) : Prop where
  /-- Every player of the start is listed once. -/
  nodup : (record.participants.map (·.playerId)).Nodup
  players : ∀ id, id ∈ record.participants.map (·.playerId) ↔ id ∈ start.playerIds
  role : ∀ p ∈ record.participants, p.role = .dancer ↔ p.playerId ∈ battle₀.dancerIds
  leftEarly : ∀ p ∈ record.participants, p.leftEarly = true ↔ p.playerId ∈ left
  ranked : ∀ p ∈ record.participants, p.role = .dancer → p.leftEarly = false →
    ∃ s ∈ result.standings, s.dancerId = p.playerId ∧ p.votes = some s.votes ∧
      (∃ score, s.score = some score ∧ p.score = some score) ∧ p.rank = some s.rank
  unranked : ∀ p ∈ record.participants, p.role = .spectator ∨ p.leftEarly = true →
    p.votes = none ∧ p.score = none ∧ p.rank = none
  wordsWon : ∀ p ∈ record.participants,
    p.wordsWon = if p.role = .dancer then some (won.count p.playerId) else none
  winner : ∀ id ∈ record.winnerPlayerId, ∃ p ∈ record.participants, p.playerId = id ∧
    p.leftEarly = false ∧ p.rank = some 1 ∧
    ∀ q ∈ record.participants, q.rank = some 1 → q = p

variable {rt : Runtime} {code playerId : JsString} {start room next : Room}
  {battle₀ battle battle' : Battle} {left won : List JsString} {op : RoomOp} {ops : List RoomOp}
  {slot slot' : Option Room} {e : RoomEvent} {now : Instant} {result : BattleResult}

/-! ### The start -/

/-- The room of a battle that just started. -/
theorem atStart_of_started {source : Room} {options : StartBattleOptions}
    (h : RoomService.Started source options next) (hbattle : next.battle = some battle) :
    next.AtStart battle := by
  have hwords := own?_wordsWon_of_started h hbattle
  obtain ⟨selected, song⟩ := h
  obtain rfl := Option.some.inj hbattle
  refine ⟨?_, ?_, ?_, fun id hid => (hwords id).trans (if_pos hid)⟩
  · simp [List.map_map, Function.comp_def]
  · simp [RoomService.battling, List.map_map, Function.comp_def]
  · rw [RoomService.players_battling]
    intro p hp
    obtain ⟨q, -, rfl⟩ := List.mem_map.mp hp
    by_cases hselected : q.id ∈ selected.map (·.id)
    · exact Or.inl (if_pos hselected)
    · exact Or.inr (if_neg hselected)

theorem Room.AtStart.recounts (h : room.AtStart battle) :
    Recounts room battle [] [] room battle where
  roster := rfl
  audience := rfl
  dancers id := by simp
  players id := by simp
  wordsWon := h.wordsWon

/-! ### One operation -/

namespace Recounts

theorem departed (h : Recounts start battle₀ left won room battle)
    (hstatus : room.status = .battling) (hbattle : room.battle = some battle)
    (hdeparted : RoomService.Departed rt room playerId now next) :
    ∃ battle', next.battle = some battle' ∧
      Recounts start battle₀ (left ++ [playerId]) won next battle' := by
  have hplayers : ∀ id, id ∈ next.playerIds ↔ id ∈ start.playerIds ∧ id ∉ left ++ [playerId] := by
    intro id
    have hfilter : id ∈ next.playerIds ↔ id ∈ room.playerIds ∧ id ≠ playerId := by
      simp only [Room.playerIds, hdeparted.players_eq, List.mem_map, List.mem_filter,
        decide_eq_true_eq]
      constructor
      · rintro ⟨p, ⟨hp, hne⟩, rfl⟩
        exact ⟨⟨p, hp, rfl⟩, hne⟩
      · rintro ⟨⟨p, hp, rfl⟩, hne⟩
        exact ⟨p, ⟨hp, hne⟩, rfl⟩
    rw [hfilter, h.players, List.mem_append, List.mem_singleton, not_or, and_assoc]
  have hdancers : ∀ id, id ∈ (RoomService.withoutPlayer battle playerId).dancerIds ↔
      id ∈ battle₀.dancerIds ∧ id ∉ left ++ [playerId] := by
    intro id
    simp only [RoomService.withoutPlayer, List.mem_filter, h.dancers, decide_eq_true_eq,
      List.mem_append, List.mem_singleton, not_or, and_assoc]
  obtain ⟨hseated, hsettled, hpassed⟩ := hdeparted
  obtain ⟨songSelection, rfl⟩ := hpassed.exists_eq
  cases hsettled with
  | idle hidle => exact absurd hbattle (hidle battle hstatus)
  | continuing b _ hb | ended b _ hb =>
    obtain rfl : battle = b := Option.some.inj (hbattle.symm.trans hb)
    exact ⟨_, rfl, h.roster, h.audience, hdancers, hplayers, h.wordsWon⟩

theorem awarded (rt : Runtime) (h : Recounts start battle₀ left won room battle)
    (hdancer : playerId ∈ battle.dancerIds) :
    ∃ battle', (RoomService.awarded rt room battle playerId).battle = some battle' ∧
      Recounts start battle₀ left (won ++ [playerId])
        (RoomService.awarded rt room battle playerId) battle' := by
  refine ⟨_, rfl, h.roster, h.audience, h.dancers, h.players, fun id hid => ?_⟩
  have hown := h.wordsWon playerId ((h.dancers playerId).mp hdancer).1
  rw [Record.get_of_own hown, Record.own?_define, Tally.succOf, List.count_append,
    List.count_singleton]
  by_cases heq : id = playerId
  · subst heq
    simp
  · rw [if_neg heq, h.wordsWon id hid]
    simp [Ne.symm heq]

end Recounts

/-- One operation of a running battle adds to the history what it tells. -/
theorem recounts_of_event (he : e ∈ (roomMachine rt code).trace slot ops)
    (hop : e.input.inBattle) (hbefore : e.before = some room) (hstatus : room.status = .battling)
    (hbattle : room.battle = some battle) (h : Recounts start battle₀ left won room battle) :
    ∀ r ∈ e.after, ∃ battle', r.battle = some battle' ∧
      Recounts start battle₀ (left ++ e.leaver?.toList) (won ++ e.awardee?.toList) r battle' := by
  have hstep := Machine.step_of_mem_trace he
  obtain ⟨before, op, output, after⟩ := e
  obtain rfl : before = some room := hbefore
  intro r hr
  cases output with
  | error error =>
    have hsame : after = some room := refused_of_mem_trace he rfl
    obtain rfl : room = r := Option.some.inj (hsame.symm.trans hr)
    refine ⟨battle, hbattle, ?_⟩
    cases op <;> simpa [RoomEvent.leaver?, RoomEvent.awardee?] using h
  | ok reply =>
    have hreply := congrArg Prod.snd hstep
    have hafter := (congrArg Prod.fst hstep).symm
    cases op with
    | castVote voterId dancerId now =>
      obtain ⟨room', b, wanted, hslot, -, hb, -, -, -, -, -, hstored⟩ := voted_of_reply hreply
      obtain rfl := Option.some.inj hslot
      obtain rfl : battle = b := Option.some.inj (hbattle.symm.trans hb)
      obtain rfl := Option.some.inj (hr.symm.trans (hafter.trans hstored))
      simp only [RoomEvent.leaver?, RoomEvent.awardee?, Option.toList_none, List.append_nil]
      split_ifs
      · exact ⟨battle, hbattle, h⟩
      · exact ⟨_, rfl, { h with }⟩
    | leave playerId random now =>
      obtain ⟨room', updated, hslot, hdeparted, hstored, -⟩ := left_of_reply hreply
      obtain rfl := Option.some.inj hslot
      have hr' := hr.symm.trans (hafter.trans hstored)
      obtain ⟨-, hr'⟩ := Option.ite_none_left_eq_some.mp hr'.symm
      obtain rfl := Option.some.inj hr'
      obtain ⟨battle', hbattle', hnext⟩ := h.departed hstatus hbattle hdeparted
      simp only [RoomEvent.leaver?, RoomEvent.awardee?, Option.toList_none, Option.toList_some,
        List.append_nil]
      exact ⟨battle', hbattle', { hnext with }⟩
    | awardWordBonus playerId =>
      obtain ⟨room', b, hslot, -, hb, hdancer, hstored⟩ := awarded_of_reply hreply
      obtain rfl := Option.some.inj hslot
      obtain rfl : battle = b := Option.some.inj (hbattle.symm.trans hb)
      obtain rfl := Option.some.inj (hr.symm.trans (hafter.trans hstored))
      obtain ⟨battle', hbattle', hnext⟩ := h.awarded rt hdancer
      simp only [RoomEvent.leaver?, RoomEvent.awardee?, Option.toList_none, Option.toList_some,
        List.append_nil]
      exact ⟨battle', hbattle', { hnext with }⟩
    | finishAtDeadline battleId now =>
      simp only [RoomEvent.leaver?, RoomEvent.awardee?, Option.toList_none, List.append_nil]
      rcases finished_of_reply hreply with ⟨-, hsame⟩ | ⟨room', -, -, hsame⟩ |
        ⟨room', b, stored, hslot, -, hb, -, -, rfl, -, hstored⟩
      · obtain rfl := Option.some.inj (hr.symm.trans (hafter.trans hsame))
        exact ⟨battle, hbattle, h⟩
      · obtain rfl := Option.some.inj (hr.symm.trans (hafter.trans hsame))
        exact ⟨battle, hbattle, h⟩
      · obtain rfl := Option.some.inj hslot
        obtain rfl : battle = b := Option.some.inj (hbattle.symm.trans hb)
        obtain rfl := Option.some.inj (hr.symm.trans (hafter.trans hstored))
        exact ⟨_, rfl, { h with }⟩
    | _ => simp [RoomOp.inBattle] at hop

/-! ### Whole battles -/

theorem leavers_concat (events : List RoomEvent) (e : RoomEvent) :
    leavers (events ++ [e]) = leavers events ++ e.leaver?.toList := by
  rw [leavers, leavers, List.filterMap_append]
  cases h : e.leaver? <;> simp [h]

theorem awardees_concat (events : List RoomEvent) (e : RoomEvent) :
    awardees (events ++ [e]) = awardees events ++ e.awardee?.toList := by
  rw [awardees, awardees, List.filterMap_append]
  cases h : e.awardee? <;> simp [h]

/-- While a battle goes on, and in the state that finishes it, its history is kept. -/
theorem recounts_run (hbattle : room.battle = some battle₀) (hstart : room.AtStart battle₀)
    (hops : ∀ op ∈ ops, op.inBattle)
    (hbattling : ∀ e ∈ (roomMachine rt code).trace (some room) ops, Battling e.before) :
    ∀ r ∈ (roomMachine rt code).run (some room) ops, ∃ battle, r.battle = some battle ∧
      Recounts room battle₀ (leavers ((roomMachine rt code).trace (some room) ops))
        (awardees ((roomMachine rt code).trace (some room) ops)) r battle := by
  induction ops using List.reverseRecOn with
  | nil =>
    rintro r ⟨⟩
    exact ⟨battle₀, hbattle, hstart.recounts⟩
  | append_singleton ops op ih =>
    rw [List.forall_mem_append] at hops
    rw [Machine.trace_append, List.forall_mem_append] at hbattling
    rw [Machine.trace_append, Machine.run_append, Machine.trace_cons, Machine.trace_nil,
      leavers_concat, awardees_concat]
    obtain ⟨r, hr, hstatus⟩ := hbattling.2 _ (List.mem_cons_self ..)
    obtain ⟨battle, hb, hrecounts⟩ := ih hops.1 hbattling.1 r hr
    have hevent : (roomMachine rt code).event ((roomMachine rt code).run (some room) ops) op ∈
        (roomMachine rt code).trace ((roomMachine rt code).run (some room) ops) [op] :=
      List.mem_cons_self ..
    exact recounts_of_event hevent (hops.2 op (by simp)) hr hstatus hb hrecounts

/-! ### The document -/

/-- Nobody both dances and watches. -/
theorem Room.Lists.not_mem_spectators (h : room.Lists battle) (hseats : room.Seats) {id : JsString}
    (hid : id ∈ battle.dancerIds) : id ∉ room.spectators.map (·.id) := by
  rw [hseats.spectators]
  intro hspectator
  obtain ⟨p, hp, rfl, hdancer⟩ := (h.role id).mp hid
  obtain ⟨q, hq, hpq⟩ := List.mem_map.mp hspectator
  obtain ⟨hq, hrole⟩ := List.mem_filter.mp hq
  obtain rfl := List.inj_on_of_nodup_map hseats.nodup hq hp hpq
  simp [hdancer] at hrole

/-- At the start the dancers and the spectators are the players. -/
theorem Room.AtStart.participants_perm (h : room.AtStart battle) (hseats : room.Seats)
    (hlists : room.Lists battle) :
    ((battle.roster ++ battle.audience).map (·.id)).Perm room.playerIds := by
  rw [List.map_append, h.roster, h.audience]
  have hspectators : (room.spectators.map (·.id)).Nodup := by
    rw [hseats.spectators]
    exact hseats.nodup.sublist (List.filter_sublist.map _)
  refine (List.perm_ext_iff_of_nodup ?_ hseats.nodup).mpr fun id => ?_
  · exact hlists.nodup.append hspectators fun id hid => hlists.not_mem_spectators hseats hid
  · rw [List.mem_append, hlists.role, hseats.spectators, Room.mem_playerIds]
    simp only [Room.withRole, List.mem_map, List.mem_filter, decide_eq_true_eq]
    constructor
    · rintro (⟨p, hp, rfl, -⟩ | ⟨p, ⟨hp, -⟩, rfl⟩) <;> exact ⟨p, hp, rfl⟩
    · rintro ⟨p, hp, rfl⟩
      exact (h.role p hp).imp (fun hrole => ⟨p, hp, rfl, hrole⟩) fun hrole =>
        ⟨p, ⟨hp, hrole⟩, rfl⟩

section Document

variable {record : MatchRecord} {p : MatchParticipantRecord}

open MatchRecordService

/-- The participants of a document are the dancers and the spectators of the start. -/
theorem forall_participants {P : MatchParticipantRecord → Prop}
    (hdancers : ∀ d ∈ battle.roster, P (dancerRecord rt battle result d))
    (hspectators : ∀ s ∈ battle.audience, P (spectatorRecord room s)) :
    ∀ p ∈ battle.roster.map (dancerRecord rt battle result) ++
      battle.audience.map (spectatorRecord room), P p := by
  intro p hp
  rcases List.mem_append.mp hp with hp | hp
  · obtain ⟨d, hd, rfl⟩ := List.mem_map.mp hp
    exact hdancers d hd
  · obtain ⟨s, hs, rfl⟩ := List.mem_map.mp hp
    exact hspectators s hs

/-- The line of a dancer of a closed battle. -/
theorem standingOf_result (rt : Runtime) (hnodup : battle.dancerIds.Nodup) (id : JsString) :
    (id ∈ battle.dancerIds ∧ ∃ s ∈ (ScoringService.result rt battle).standings, s.dancerId = id ∧
        standingOf (ScoringService.result rt battle).standings id = some s) ∨
      (id ∉ battle.dancerIds ∧
        standingOf (ScoringService.result rt battle).standings id = none) := by
  have hperm := ScoringService.map_dancerId_standings_perm rt battle battle.scoring
  by_cases hid : id ∈ battle.dancerIds
  · obtain ⟨s, hs, hsid⟩ := List.mem_map.mp (hperm.mem_iff.mpr hid)
    exact Or.inl ⟨hid, s, hs, hsid,
      (standingOf_eq_some_iff (hperm.nodup_iff.mpr hnodup)).mpr ⟨hs, hsid⟩⟩
  · exact Or.inr ⟨hid, standingOf_eq_none_iff.mpr fun hmem => hid (hperm.mem_iff.mp hmem)⟩

/-- The rounds of a dancer of the start in the document of a closed battle. -/
theorem wordsWon_dancerRecord (hnodup : battle.dancerIds.Nodup) {d : Identity} {n : ℕ}
    (hown : battle.wordsWon.own? d.id = some (.number n)) :
    (dancerRecord rt battle (ScoringService.result rt battle) d).wordsWon = some n := by
  have hzero : Tally.orZero (battle.wordsWon.get rt.proto d.id) = some n := by
    rw [Record.get_of_own hown, Tally.orZero]
  rcases standingOf_result rt hnodup d.id with ⟨-, s, hs, hid, hline⟩ | ⟨-, hline⟩
  · have hwords := ScoringService.wordsWon_of_mem_standings hs
    simp only [dancerRecord, hline, Option.map_some, Option.getD_some, hwords, hid, hzero]
  · simp only [dancerRecord, hline, Option.map_none, Option.getD_none, hzero]

/-- The winner of a closed battle is listed, stayed and is the only one ranked first. -/
theorem winner_participant (hnodup : battle.dancerIds.Nodup)
    (hroster : ∀ id ∈ battle.dancerIds, ∃ d ∈ battle.roster, d.id = id)
    (hunique : ((battle.roster.map (dancerRecord rt battle (ScoringService.result rt battle)) ++
      battle.audience.map (spectatorRecord room)).map (·.playerId)).Nodup) {id : JsString}
    (hwinner : (ScoringService.result rt battle).winnerId = some id) :
    ∃ p ∈ battle.roster.map (dancerRecord rt battle (ScoringService.result rt battle)) ++
        battle.audience.map (spectatorRecord room),
      p.playerId = id ∧ p.leftEarly = false ∧ p.rank = some 1 ∧
      ∀ q ∈ battle.roster.map (dancerRecord rt battle (ScoringService.result rt battle)) ++
        battle.audience.map (spectatorRecord room), q.rank = some 1 → q = p := by
  obtain ⟨leader, hleader, rfl, hrank, honly⟩ := ScoringService.eq_of_winner hwinner
  have hperm := ScoringService.map_dancerId_standings_perm rt battle battle.scoring
  have hid : leader.dancerId ∈ battle.dancerIds :=
    hperm.mem_iff.mp (List.mem_map_of_mem hleader)
  obtain ⟨d, hd, hdid⟩ := hroster leader.dancerId hid
  have hline : standingOf (ScoringService.result rt battle).standings leader.dancerId =
      some leader :=
    (standingOf_eq_some_iff (hperm.nodup_iff.mpr hnodup)).mpr ⟨hleader, rfl⟩
  have hp : dancerRecord rt battle (ScoringService.result rt battle) d ∈
      battle.roster.map (dancerRecord rt battle (ScoringService.result rt battle)) ++
        battle.audience.map (spectatorRecord room) :=
    List.mem_append_left _ (List.mem_map_of_mem hd)
  refine ⟨_, hp, hdid, ?_, ?_, fun q hq hone => ?_⟩
  · simp [dancerRecord, hdid, hid]
  · simp only [dancerRecord, hdid, hline, Option.map_some, hrank]
  · refine List.inj_on_of_nodup_map hunique hq hp ?_
    revert q
    refine forall_participants (fun d' hd' hone => ?_) fun s hs hone => ?_
    · rcases standingOf_result rt hnodup d'.id with ⟨-, s, hs, hsid, hs'⟩ | ⟨-, hs'⟩
      · simp only [dancerRecord, hs', Option.map_some, Option.some.injEq] at hone
        show d'.id = d.id
        rw [hdid, ← hsid, honly s hs hone]
      · simp [dancerRecord, hs'] at hone
    · simp [spectatorRecord] at hone

/-- The document of a closed battle that recounts its history tells it. -/
theorem tells_of_recounts (hinv : RoomInvariant rt start) (hbattling : start.status = .battling)
    (hbattle₀ : start.battle = some battle₀) (hstart : start.AtStart battle₀)
    (h : Recounts start battle₀ left won room battle) (hnodup : battle.dancerIds.Nodup)
    (hwinner : record.winnerPlayerId = (ScoringService.result rt battle).winnerId)
    (hrecord : record.participants =
      battle.roster.map (dancerRecord rt battle (ScoringService.result rt battle)) ++
        battle.audience.map (spectatorRecord room)) :
    record.Tells start battle₀ (ScoringService.result rt battle) left won := by
  have hlists := (hinv.runs hbattling hbattle₀).toLists
  have hroster : ∀ d ∈ battle.roster, d.id ∈ battle₀.dancerIds := by
    intro d hd
    rw [← hstart.roster]
    exact List.mem_map_of_mem (h.roster ▸ hd)
  have haudience : ∀ s ∈ battle.audience, s.id ∈ start.spectators.map (·.id) := by
    intro s hs
    rw [← hstart.audience]
    exact List.mem_map_of_mem (h.audience ▸ hs)
  have hids : record.participants.map (·.playerId) =
      (battle₀.roster ++ battle₀.audience).map (·.id) := by
    rw [hrecord, List.map_append, List.map_append, List.map_map, List.map_map, ← h.roster,
      ← h.audience]
    rfl
  have hperm := hstart.participants_perm hinv.seats hlists
  have hunique : (record.participants.map (·.playerId)).Nodup := by
    rw [hids]
    exact hperm.nodup_iff.mpr hinv.seats.nodup
  refine ⟨hunique, ?_, ?_, ?_, ?_, ?_, ?_, ?_⟩
  · intro id
    rw [hids]
    exact hperm.mem_iff
  · rw [hrecord]
    refine forall_participants (fun d hd => ?_) fun s hs => ?_
    · exact iff_of_true rfl (hroster d hd)
    · exact iff_of_false (by simp [spectatorRecord]) fun hdancer =>
        hlists.not_mem_spectators hinv.seats hdancer (haudience s hs)
  · rw [hrecord]
    refine forall_participants (fun d hd => ?_) fun s hs => ?_
    · simp [dancerRecord, h.dancers, hroster d hd]
    · have hseated : s.id ∈ start.playerIds :=
        hinv.seats.mem_playerIds_of_spectator (haudience s hs)
      simp [spectatorRecord, h.players, hseated]
  · rw [hrecord]
    refine forall_participants (fun d hd hrole hstayed => ?_) fun s hs hrole => ?_
    · rcases standingOf_result rt hnodup d.id with ⟨-, s, hs, hid, hline⟩ | ⟨hgone, -⟩
      · have hwords : s.wordsWon = some (won.count d.id) := by
          rw [ScoringService.wordsWon_of_mem_standings hs, hid,
            Record.get_of_own (h.wordsWon d.id (hroster d hd)), Tally.orZero]
        have hscore := ScoringService.score_of_mem_standings hs
        rw [hwords, Option.map_some] at hscore
        exact ⟨s, hs, hid, by simp [dancerRecord, hline],
          ⟨_, hscore, by simp [dancerRecord, hline, hscore]⟩, by simp [dancerRecord, hline]⟩
      · simp [dancerRecord, hgone] at hstayed
    · simp [spectatorRecord] at hrole
  · rw [hrecord]
    refine forall_participants (fun d hd hleft => ?_) fun s hs hleft => ⟨rfl, rfl, rfl⟩
    rcases standingOf_result rt hnodup d.id with ⟨hstayed, -⟩ | ⟨-, hline⟩
    · simp [dancerRecord, hstayed] at hleft
    · simp [dancerRecord, hline]
  · rw [hrecord]
    refine forall_participants (fun d hd => ?_) fun s hs => ?_
    · exact (wordsWon_dancerRecord hnodup (h.wordsWon d.id (hroster d hd))).trans (if_pos rfl).symm
    · exact (if_neg (by simp [spectatorRecord])).symm
  · intro id hid
    rw [hrecord] at hunique ⊢
    refine winner_participant hnodup (fun id hid => ?_) hunique (hwinner ▸ hid)
    have hdancer := ((h.dancers id).mp hid).1
    rw [← hstart.roster, ← h.roster] at hdancer
    exact List.mem_map.mp hdancer

end Document

/-- The document of a battle tells the departures and the word bonuses accepted from its start up
to the call that finished it. -/
theorem record_tells_battle (rt : Runtime) (code : JsString) (ops₀ : List RoomOp) (startOp : RoomOp)
    (start : Room) (ops : List RoomOp) (room : Room)
    (hbefore : ¬Battling ((roomMachine rt code).run none ops₀))
    (hstart : (roomMachine rt code).next ((roomMachine rt code).run none ops₀) startOp = some start)
    (hstatus : start.status = .battling) (hops : ∀ op ∈ ops, op.inBattle)
    (hbattling : ∀ e ∈ (roomMachine rt code).trace (some start) ops, Battling e.before)
    (hrun : (roomMachine rt code).run (some start) ops = some room)
    (hfinished : room.status = .finished) :
    ∃ record battle₀ battle result,
      MatchRecordService.fromFinishedRoom rt room = some record ∧ start.battle = some battle₀ ∧
      room.battle = some battle ∧ battle.result = some result ∧
      record.Tells start battle₀ result
        (leavers ((roomMachine rt code).trace (some start) ops))
        (awardees ((roomMachine rt code).trace (some start) ops)) := by
  have hstored := step_spec rt code ((roomMachine rt code).run none ops₀) startOp
  rw [hstart] at hstored
  have hinv : RoomInvariant rt start :=
    hstored.roomInvariant (roomInvariant_run rt code ops₀ (by simp)) start rfl
  obtain ⟨battle₀, hbattle₀, -⟩ := hinv.battling hstatus
  have hatStart : start.AtStart battle₀ := by
    obtain ⟨source, started, options, -, hstarted, hsame⟩ :=
      hstored.exists_started hbefore hstatus
    have hbattle : started.battle = some battle₀ := by
      rw [← hbattle₀, hsame]
    have hatStart := atStart_of_started hstarted hbattle
    rw [hsame]
    exact { hatStart with }
  obtain ⟨battle, hbattle, hrecounts⟩ :=
    recounts_run hbattle₀ hatStart hops hbattling room hrun
  obtain ⟨b, hb, hclosed⟩ :=
    (roomInvariant_run rt code ops (by rintro r ⟨⟩; exact hinv) room hrun).finished hfinished
  obtain rfl : battle = b := Option.some.inj (hbattle.symm.trans hb)
  obtain ⟨finishedAt, hfinishedAt, -⟩ := hclosed.finishedAt
  have hrecord := MatchRecordService.fromFinishedRoom_eq_some rt hfinished hbattle hclosed.result
    hfinishedAt hclosed.endReason
  exact ⟨_, battle₀, battle, _, hrecord, hbattle₀, hbattle, hclosed.result,
    tells_of_recounts hinv hstatus hbattle₀ hatStart hrecounts hclosed.nodup rfl rfl⟩

/-- Eve votes for Bob, the dancers win a word each, and Bob leaves Ana alone. -/
def sampleHistory : List RoomOp :=
  [.castVote (js "eve") (.string (js "bob")) 4000, .awardWordBonus (js "ana"),
    .awardWordBonus (js "bob"), .leave (js "bob") .first 5000]

theorem record_tells_battle_sampleHistory :
    ∃ start ∈ (roomMachine .ascii (js "ROOM22")).run none sampleBattle,
    ∃ room ∈ (roomMachine .ascii (js "ROOM22")).run (some start) sampleHistory,
    ∃ record battle₀ battle result,
      MatchRecordService.fromFinishedRoom .ascii room = some record ∧
      start.battle = some battle₀ ∧ room.battle = some battle ∧ battle.result = some result ∧
      record.Tells start battle₀ result
        (leavers ((roomMachine .ascii (js "ROOM22")).trace (some start) sampleHistory))
        (awardees ((roomMachine .ascii (js "ROOM22")).trace (some start) sampleHistory)) := by
  have hsample : ∃ start ∈ (roomMachine .ascii (js "ROOM22")).run none sampleBattle,
      start.status = .battling ∧
      ∃ room ∈ (roomMachine .ascii (js "ROOM22")).run (some start) sampleHistory,
        room.status = .finished ∧
        ∀ e ∈ (roomMachine .ascii (js "ROOM22")).trace (some start) sampleHistory,
          Battling e.before := by decide +kernel
  obtain ⟨start, hstart, hstatus, room, hroom, hfinished, hbattling⟩ := hsample
  exact ⟨start, hstart, room, hroom, record_tells_battle .ascii (js "ROOM22") sampleLobby
    sampleStart start sampleHistory room (by decide +kernel) hstart hstatus (by decide) hbattling
    hroom hfinished⟩

end DanceSync
