import DanceSync.Application.Replies
import DanceSync.Ballot.Box
import DanceSync.Lifecycle.Battles

/-!
# The votes of a battle

The votes a room stores are those of a ballot box fed with the accepted votes and the departures
of the battle, and the ranking counts them.

## Main definitions

* `RoomOp.inBattle`: what players and timers do to a running battle.
* `RoomEvent.ballot?`, `ballots`: the history of a run.
* `Room.HoldsVotes`: the votes of the battle are given by a function.

## Main results

* `holdsVotes_of_event`: one operation changes the votes as its ballot does.
* `holdsVotes_run`: after a run they are the reference votes of its history.
* `votes_reference`: with the counts of the ranking.
-/

namespace DanceSync

/-- The operations of a running battle. -/
def RoomOp.inBattle : RoomOp → Bool
  | .castVote .. | .leave .. | .awardWordBonus .. | .finishAtDeadline .. => true
  | _ => false

/-- What an accepted operation does to the votes. -/
def RoomEvent.ballot? (e : RoomEvent) : Option (Ballot JsString) :=
  match e.input, e.output with
  | .castVote voterId dancerId _, .ok _ => (RoomService.wantedDancer dancerId).map (.cast voterId)
  | .leave playerId _ _, .ok _ => some (.left playerId)
  | _, _ => none

/-- The accepted votes and departures of a run. -/
def ballots (events : List RoomEvent) : List (Ballot JsString) := events.filterMap RoomEvent.ballot?

/-- The votes of the battle of the room are those of a function. -/
def Room.HoldsVotes (room : Room) (votes : JsString → Option JsString) : Prop :=
  ∃ battle, room.battle = some battle ∧ ∀ id, battle.votes.own? id = votes id

/-- No player has the name of an inherited property. -/
def Room.OpaqueIds (rt : Runtime) (room : Room) : Prop :=
  ∀ id ∈ room.playerIds, rt.proto.inherited id = false

instance (rt : Runtime) (room : Room) : Decidable (room.OpaqueIds rt) :=
  inferInstanceAs (Decidable (∀ id ∈ room.playerIds, rt.proto.inherited id = false))

/-- The operations of a running battle start none. -/
theorem RoomOp.battleOptions?_of_inBattle {op : RoomOp} (h : op.inBattle) :
    op.battleOptions? = none := by
  cases op <;> first | rfl | simp [RoomOp.inBattle] at h

variable {rt : Runtime} {code : JsString} {room next : Room} {op : RoomOp} {playerId : JsString}
  {now : Instant} {battle : Battle} {ops : List RoomOp} {slot slot' : Option Room} {e : RoomEvent}
  {votes : JsString → Option JsString}

/-! ### One operation -/

/-- The own properties after an accepted vote, when voter ids are opaque. -/
theorem own?_votesAfter {record : Record JsString JsString} {voterId : JsString}
    (hplain : rt.proto.inherited voterId = false) (wanted : Option JsString) (id : JsString) :
    (RoomService.votesAfter rt record voterId wanted).own? id =
      if id = voterId then wanted else record.own? id := by
  have hsetter := Prototype.setter_eq_false hplain
  cases wanted with
  | none => exact Record.own?_erase record voterId id
  | some dancerId =>
    by_cases hid : id = voterId
    · subst hid
      rw [if_pos rfl]
      exact Record.own?_assign_self dancerId (Or.inl hsetter)
    · rw [if_neg hid]
      exact Record.own?_assign_of_ne rt.proto record dancerId hid

/-- A vote that changes nothing is the current one. -/
theorem own?_of_isCurrentVote {record : Record JsString JsString} {voterId : JsString}
    {wanted : Option JsString}
    (h : RoomService.isCurrentVote (record.get rt.proto voterId) wanted) :
    record.own? voterId = wanted := by
  cases hget : record.get rt.proto voterId with
  | absent =>
    rw [hget] at h
    rw [(Record.get_eq_absent_iff.mp hget).1]
    simpa [RoomService.isCurrentVote, eq_comm] using h
  | own dancerId =>
    rw [hget] at h
    rw [Record.get_eq_own_iff.mp hget]
    simpa [RoomService.isCurrentVote, eq_comm] using h
  | inherited =>
    rw [hget] at h
    simp [RoomService.isCurrentVote] at h

/-- The votes after a departure. -/
theorem own?_withoutPlayer (battle : Battle) (playerId id : JsString) :
    (RoomService.withoutPlayer battle playerId).votes.own? id =
      Ballot.apply battle.votes.own? (.left playerId) id := by
  rw [RoomService.withoutPlayer, Record.own?_filter, Ballot.apply]
  by_cases hid : id = playerId <;> cases hown : battle.votes.own? id <;>
    simp [hid, hown, Option.filter]

/-- The votes of a function after an event. -/
def votesAfterEvent (votes : JsString → Option JsString) (e : RoomEvent) :
    JsString → Option JsString :=
  match e.ballot? with
  | some b => Ballot.apply votes b
  | none => votes

theorem holdsVotes_castVote {voterId : JsString} {dancerId : JsValue} {reply : Reply}
    (hstep : (roomMachine rt code).step (some room) (.castVote voterId dancerId now) =
      (slot', .ok reply))
    (hseats : room.Seats) (hplain : room.OpaqueIds rt) (hvotes : room.HoldsVotes votes) :
    ∀ r ∈ slot', r.HoldsVotes
      (votesAfterEvent votes ⟨some room, .castVote voterId dancerId now, .ok reply, slot'⟩) := by
  obtain ⟨r, battle, wanted, hslot, hstatus, hbattle, hvoter, -, -, hwire, -, hstored⟩ :=
    voted_of_reply (congrArg Prod.snd hstep)
  obtain rfl := Option.some.inj hslot
  obtain ⟨b, hb, hown⟩ := hvotes
  obtain rfl : battle = b := Option.some.inj (hbattle.symm.trans hb)
  obtain rfl := (congrArg Prod.fst hstep).symm.trans hstored
  have hvoterId := hplain voterId (hseats.mem_playerIds_of_spectator hvoter)
  have hafter : ∀ slot' id, votesAfterEvent votes
      ⟨some room, .castVote voterId dancerId now, .ok reply, slot'⟩ id =
        if id = voterId then wanted else battle.votes.own? id := by
    intro slot' id
    simp only [votesAfterEvent, RoomEvent.ballot?, hwire, Option.map_some, Ballot.apply_cast, hown]
  rintro r ⟨⟩
  split_ifs with hcurrent
  · refine ⟨battle, hbattle, fun id => ?_⟩
    rw [hafter]
    split_ifs with hid
    · rw [hid, own?_of_isCurrentVote hcurrent]
    · rfl
  · refine ⟨_, rfl, fun id => ?_⟩
    rw [hafter]
    exact own?_votesAfter hvoterId wanted id

theorem holdsVotes_departed (hstatus : room.status = .battling)
    (hdeparted : RoomService.Departed rt room playerId now next) (hvotes : room.HoldsVotes votes) :
    next.HoldsVotes (Ballot.apply votes (.left playerId)) := by
  obtain ⟨b, hb, hown⟩ := hvotes
  have hbox : ∀ id, (RoomService.withoutPlayer b playerId).votes.own? id =
      Ballot.apply votes (.left playerId) id := fun id => by
    rw [own?_withoutPlayer, funext hown]
  obtain ⟨hseated, hsettled, hpassed⟩ := hdeparted
  obtain ⟨songSelection, rfl⟩ := hpassed.exists_eq
  cases hsettled with
  | idle hidle => exact absurd hb (hidle b hstatus)
  | continuing battle _ hbattle | ended battle _ hbattle =>
    obtain rfl : battle = b := Option.some.inj (hbattle.symm.trans hb)
    exact ⟨_, rfl, hbox⟩

/-- One operation of a running battle changes the votes as its ballot does. -/
theorem holdsVotes_of_event (he : e ∈ (roomMachine rt code).trace slot ops)
    (hop : e.input.inBattle) (hbefore : e.before = some room) (hstatus : room.status = .battling)
    (hseats : room.Seats) (hplain : room.OpaqueIds rt) (hvotes : room.HoldsVotes votes) :
    ∀ r ∈ e.after, r.HoldsVotes (votesAfterEvent votes e) := by
  have hstep := Machine.step_of_mem_trace he
  have hstored := stored_of_mem_trace he
  obtain ⟨before, op, output, after⟩ := e
  obtain rfl : before = some room := hbefore
  cases output with
  | error error =>
    have hsame : after = some room := refused_of_mem_trace he rfl
    have hnone : votesAfterEvent votes ⟨some room, op, .error error, after⟩ = votes := by
      cases op <;> rfl
    rw [hnone, hsame]
    rintro r ⟨⟩
    exact hvotes
  | ok reply =>
    cases op with
    | castVote voterId dancerId now => exact holdsVotes_castVote hstep hseats hplain hvotes
    | leave playerId random now =>
      obtain ⟨r, updated, hslot, hdeparted, hafter, -⟩ := left_of_reply (congrArg Prod.snd hstep)
      obtain rfl := Option.some.inj hslot
      obtain rfl := (congrArg Prod.fst hstep).symm.trans hafter
      rintro r hr
      obtain ⟨-, ⟨⟩⟩ := Option.ite_none_left_eq_some.mp hr
      have hnext := holdsVotes_departed hstatus hdeparted hvotes
      exact hnext
    | awardWordBonus | finishAtDeadline =>
      obtain ⟨b, hb, hown⟩ := hvotes
      cases hstored with
      | unchanged =>
        rintro r ⟨⟩
        exact ⟨b, hb, hown⟩
      | changed hchange =>
        rintro r ⟨⟩
        cases hchange
        next battle _ hbattle _ =>
          obtain rfl : battle = b := Option.some.inj (hbattle.symm.trans hb)
          exact ⟨_, rfl, hown⟩
    | _ => simp [RoomOp.inBattle] at hop

/-- The operations of a running battle seat nobody new. -/
theorem Stored.opaqueIds (hstored : Stored rt code slot op slot') (hop : op.inBattle)
    (h : ∀ r ∈ slot, r.OpaqueIds rt) : ∀ r ∈ slot', r.OpaqueIds rt := by
  cases hstored with
  | unchanged => exact h
  | created => simp [RoomOp.inBattle] at hop
  | deleted => simp
  | changed hchange =>
    rintro r ⟨⟩
    cases hchange with
    | left hdeparted hplayers =>
      intro id hid
      refine h _ rfl id ?_
      simp only [Room.playerIds, hdeparted.players_eq] at hid
      exact List.map_subset _ (List.filter_subset_self _) hid
    | voted | awarded | finished => exact fun id hid => h _ rfl id hid
    | _ => simp [RoomOp.inBattle] at hop

/-- They keep the dates of the battle. -/
theorem Stored.dated (hstored : Stored rt code slot op slot') (hop : op.inBattle)
    (h : ∀ r ∈ slot, ∀ b ∈ r.battle, b.Dated) : ∀ r ∈ slot', ∀ b ∈ r.battle, b.Dated := by
  cases hstored with
  | unchanged => exact h
  | created => simp [RoomOp.inBattle] at hop
  | deleted => simp
  | @changed room next _ hchange =>
    rintro r ⟨⟩ b (hb : next.battle = some b)
    cases hchange with
    | left hdeparted =>
      obtain ⟨hseated, hsettled, hpassed⟩ := hdeparted
      obtain ⟨songSelection, rfl⟩ := hpassed.exists_eq
      cases hsettled with
      | idle => exact h room rfl b hb
      | continuing battle _ hbattle | ended battle _ hbattle =>
        obtain rfl := Option.some.inj hb
        exact h room rfl battle hbattle
    | voted battle _ _ hbattle | awarded battle _ hbattle | finished battle _ hbattle =>
      obtain rfl := Option.some.inj hb
      exact h room rfl battle hbattle
    | _ => simp [RoomOp.inBattle] at hop

/-! ### Whole runs -/

theorem ballots_concat (events : List RoomEvent) (e : RoomEvent) :
    Ballot.reference (ballots (events ++ [e])) =
      votesAfterEvent (Ballot.reference (ballots events)) e := by
  rw [ballots, List.filterMap_append, votesAfterEvent]
  cases hballot : e.ballot? with
  | none => simp [ballots, hballot]
  | some b => simp [ballots, hballot, Ballot.reference_concat]

/-- While a battle goes on, and in the state that finishes it, its votes are those of the
reference. -/
theorem holdsVotes_run (hinv : ∀ r ∈ slot, RoomInvariant rt r)
    (hplain : ∀ r ∈ slot, r.OpaqueIds rt) (hvotes : ∀ r ∈ slot, r.HoldsVotes fun _ => none)
    (hops : ∀ op ∈ ops, op.inBattle)
    (hbattling : ∀ e ∈ (roomMachine rt code).trace slot ops, Battling e.before) :
    ∀ r ∈ (roomMachine rt code).run slot ops,
      r.HoldsVotes (Ballot.reference (ballots ((roomMachine rt code).trace slot ops))) := by
  induction ops using List.reverseRecOn with
  | nil => exact hvotes
  | append_singleton ops op ih =>
    rw [List.forall_mem_append] at hops
    rw [Machine.trace_append, List.forall_mem_append] at hbattling
    rw [Machine.trace_append, Machine.run_append]
    have hbefore := ih hops.1 hbattling.1
    obtain ⟨room, hroom, hstatus⟩ := hbattling.2 _ (List.mem_cons_self ..)
    have hplain' : ∀ r ∈ (roomMachine rt code).run slot ops, r.OpaqueIds rt :=
      Machine.run_invariant (P := fun slot => ∀ r ∈ slot, r.OpaqueIds rt) (fun e he h =>
        (stored_of_mem_trace he).opaqueIds (hops.1 _ (Machine.input_mem_of_mem_trace he)) h) hplain
    rw [Machine.trace_cons, Machine.trace_nil, ballots_concat]
    have hevent : (roomMachine rt code).event ((roomMachine rt code).run slot ops) op ∈
        (roomMachine rt code).trace ((roomMachine rt code).run slot ops) [op] :=
      List.mem_cons_self ..
    exact holdsVotes_of_event hevent (hops.2 op (by simp)) hroom
      hstatus (roomInvariant_run rt code ops hinv room hroom).seats (hplain' room hroom)
      (hbefore room hroom)

/-- The votes of a battle are those of a function, and its ranking counts them. -/
structure Battle.Tallies (rt : Runtime) (battle : Battle) (held : JsString → Option JsString) :
    Prop where
  votes : ∀ voterId, battle.votes.own? voterId = held voterId
  /-- One line for each dancer still in the battle. -/
  ranked : ∀ points, ((ScoringService.standings rt battle points).map (·.dancerId)).Perm
    battle.dancerIds
  counted : ∀ points, ∀ s ∈ ScoringService.standings rt battle points,
    s.votes = {voterId | held voterId = some s.dancerId}.ncard
  total : ∀ points, ((ScoringService.standings rt battle points).map (·.votes)).sum =
    {voterId | (held voterId).isSome}.ncard

theorem Battle.tallies (hnodup : battle.dancerIds.Nodup)
    (hnamed : ∀ vote ∈ battle.votes.entries, vote.2 ∈ battle.dancerIds)
    (hvotes : ∀ voterId, battle.votes.own? voterId = votes voterId) : battle.Tallies rt votes where
  votes := hvotes
  ranked points := ScoringService.map_dancerId_standings_perm rt battle points
  counted points s hs := by
    simp only [← hvotes]
    rw [(ScoringService.votes_of_mem_standings hs).2, Record.ncard_own?_eq]
  total points := by
    simp only [← hvotes]
    rw [Record.ncard_own?_isSome, ScoringService.sum_votes_standings rt points hnodup]
    intro v hv
    obtain ⟨vote, hvote, rfl⟩ := List.mem_map.mp hv
    exact hnamed vote hvote

/-- The ranking of a battle that ran or finished counts the votes it holds. -/
theorem Room.HoldsVotes.tallies (h : room.HoldsVotes votes) (hinv : RoomInvariant rt room) :
    ∃ battle, room.battle = some battle ∧ battle.Tallies rt votes := by
  obtain ⟨battle, hbattle, hvotes⟩ := h
  refine ⟨battle, hbattle, ?_⟩
  match hstatus : room.status with
  | .waiting => simp [(hinv.waiting hstatus).1] at hbattle
  | .battling =>
    have hruns := hinv.runs hstatus hbattle
    exact Battle.tallies hruns.nodup (fun vote hvote => (hruns.votes vote hvote).2) hvotes
  | .finished =>
    obtain ⟨b, hb, hclosed⟩ := hinv.finished hstatus
    obtain rfl : battle = b := Option.some.inj (hbattle.symm.trans hb)
    exact Battle.tallies hclosed.nodup hclosed.votes hvotes

/-- In a battle of valid dates a vote is accepted from a spectator, while the song plays, for a
dancer or for nobody. -/
theorem isOk_castVote_iff_of_dated {voterId : JsString} {dancerId : JsValue}
    (hdated : ∀ r ∈ slot, ∀ b ∈ r.battle, b.Dated) :
    ((RoomOp.castVote voterId dancerId now).step rt code slot).2.isOk ↔
      ∃ r battle, slot = some r ∧ r.status = .battling ∧ r.battle = some battle ∧
        voterId ∈ r.spectators.map (·.id) ∧ battle.startedAt ≤ now ∧ now < battle.endsAt ∧
        (dancerId = .null ∨ ∃ id ∈ battle.dancerIds, dancerId = .string id) := by
  rw [isOk_castVote_iff]
  constructor
  · rintro ⟨r, battle, hslot, hstatus, hbattle, hvoter, hbegan, hopen, hwire⟩
    obtain ⟨hstart, hend⟩ := hdated r hslot battle hbattle
    exact ⟨r, battle, hslot, hstatus, hbattle, hvoter, Date.le_of_not_lt hstart hbegan,
      Date.lt_of_not_le hend hopen, hwire⟩
  · rintro ⟨r, battle, hslot, hstatus, hbattle, hvoter, hbegan, hopen, hwire⟩
    exact ⟨r, battle, hslot, hstatus, hbattle, hvoter, Date.not_lt_of_le hbegan,
      Date.not_le_of_lt hopen, hwire⟩

/-- From the start of a battle of valid dates on, the votes are those of the accepted votes and
departures, while the battle goes on and in the state that finishes it; the ranking counts them. A
vote is accepted exactly from a spectator, while the song plays, for a dancer or for nobody. -/
theorem votes_reference (rt : Runtime) (code : JsString) (ops₀ : List RoomOp) (start : RoomOp)
    (room : Room) (ops : List RoomOp)
    (hbefore : ¬Battling ((roomMachine rt code).run none ops₀))
    (hstart : (roomMachine rt code).next ((roomMachine rt code).run none ops₀) start = some room)
    (hstatus : room.status = .battling) (hdated : ∀ battle ∈ room.battle, battle.Dated)
    (hplain : room.OpaqueIds rt) (hops : ∀ op ∈ ops, op.inBattle) :
    (∀ r ∈ (roomMachine rt code).run (some room) ops,
      (r.status = .battling ∨
        ∀ e ∈ (roomMachine rt code).trace (some room) ops, Battling e.before) →
      ∃ battle, r.battle = some battle ∧
        battle.Tallies rt
          (Ballot.reference (ballots ((roomMachine rt code).trace (some room) ops))) ∧
        ∀ voterId dancerId, battle.votes.own? voterId = some dancerId ↔
          Ballot.Stands (ballots ((roomMachine rt code).trace (some room) ops)) voterId dancerId) ∧
    ∀ voterId dancerId now,
      ((RoomOp.castVote voterId dancerId now).step rt code
        ((roomMachine rt code).run (some room) ops)).2.isOk ↔
      ∃ r battle, (roomMachine rt code).run (some room) ops = some r ∧ r.status = .battling ∧
        r.battle = some battle ∧ voterId ∈ r.spectators.map (·.id) ∧ battle.startedAt ≤ now ∧
        now < battle.endsAt ∧
        (dancerId = .null ∨ ∃ id ∈ battle.dancerIds, dancerId = .string id) := by
  have hdates : ∀ r ∈ (roomMachine rt code).run (some room) ops, ∀ b ∈ r.battle, b.Dated :=
    Machine.run_invariant (P := fun slot => ∀ r ∈ slot, ∀ b ∈ r.battle, b.Dated)
      (fun e he h => (stored_of_mem_trace he).dated
        (hops _ (Machine.input_mem_of_mem_trace he)) h) (by rintro r ⟨⟩; exact hdated)
  refine ⟨fun r hr hwhen => ?_, fun voterId dancerId now => isOk_castVote_iff_of_dated hdates⟩
  have hinv : ∀ r ∈ some room, RoomInvariant rt r := by
    rw [← hstart]
    exact (step_spec rt code _ start).roomInvariant (roomInvariant_run rt code ops₀ (by simp))
  have hbattling : ∀ e ∈ (roomMachine rt code).trace (some room) ops, Battling e.before := by
    rcases hwhen with hr' | hall
    · refine Machine.live_before_of_live_run (fun e he => mt fun h => ?_) ⟨r, hr, hr'⟩
      exact (stored_of_mem_trace he).battling_before
        (RoomOp.battleOptions?_of_inBattle (hops _ (Machine.input_mem_of_mem_trace he))) h
    · exact hall
  have hvotes : room.HoldsVotes fun _ => none := by
    have hstored := step_spec rt code ((roomMachine rt code).run none ops₀) start
    rw [hstart] at hstored
    obtain ⟨source, started, options, -, ⟨selected, song⟩, hbattle⟩ :=
      hstored.started hbefore hstatus
    exact ⟨_, hbattle, fun id => rfl⟩
  have hholds := holdsVotes_run hinv (by rintro r ⟨⟩; exact hplain) (by rintro r ⟨⟩; exact hvotes)
    hops hbattling r hr
  obtain ⟨battle, hbattle, htallies⟩ := hholds.tallies (roomInvariant_run rt code ops hinv r hr)
  refine ⟨battle, hbattle, htallies, fun voterId dancerId => ?_⟩
  rw [htallies.votes, Ballot.reference_eq_some_iff]

/-- Eve votes for Ana, then for Bob; Bob cannot vote. -/
def sampleVotes : List RoomOp :=
  [.castVote (js "eve") (.string (js "ana")) 4000,
    .castVote (js "bob") (.string (js "ana")) 4500,
    .castVote (js "eve") (.string (js "bob")) 5000]

theorem votes_reference_sampleVotes :
    ∃ room ∈ (roomMachine .ascii (js "ROOM22")).run none sampleBattle,
    ∃ r ∈ (roomMachine .ascii (js "ROOM22")).run (some room) sampleVotes, ∃ battle,
      r.battle = some battle ∧ battle.Tallies .ascii (Ballot.reference
        (ballots ((roomMachine .ascii (js "ROOM22")).trace (some room) sampleVotes))) := by
  have hsample : ∃ room ∈ (roomMachine .ascii (js "ROOM22")).run none sampleBattle,
      (room.status = .battling ∧ (∀ battle ∈ room.battle, battle.Dated) ∧
        room.OpaqueIds .ascii) ∧
        ∃ r ∈ (roomMachine .ascii (js "ROOM22")).run (some room) sampleVotes,
          r.status = .battling := by decide +kernel
  obtain ⟨room, hroom, ⟨hstatus, hdated, hplain⟩, r, hr, hbattling⟩ := hsample
  obtain ⟨battle, hbattle, htallies, -⟩ := (votes_reference .ascii (js "ROOM22") sampleLobby
    sampleStart room sampleVotes (by decide +kernel) hroom hstatus hdated hplain
    (by decide)).1 r hr (Or.inl hbattling)
  exact ⟨room, hroom, r, hr, battle, hbattle, htallies⟩

/-- The sample battle, with `BATTLE_START_COUNTDOWN_MS=1e16`. -/
def sampleTimelessStart : RoomOp :=
  .chooseSong (js "bob") (js "song-1")
    { now := 3000, countdownMs := 10000000000000000, battleId := js "b1" }

/-- A vote is accepted in a battle that has neither begun nor will end. -/
theorem vote_accepted_without_dates :
    ∃ room, (roomMachine .ascii (js "ROOM22")).next
        ((roomMachine .ascii (js "ROOM22")).run none sampleLobby) sampleTimelessStart = some room ∧
      room.status = .battling ∧ room.OpaqueIds .ascii ∧
      ((RoomOp.castVote (js "eve") (.string (js "ana")) 5000).step .ascii (js "ROOM22")
        (some room)).2.isOk ∧
      ∀ battle ∈ room.battle, ¬(battle.startedAt ≤ 5000 ∧ 5000 < battle.endsAt) := by
  have hsample : ∃ room ∈ (roomMachine .ascii (js "ROOM22")).next
      ((roomMachine .ascii (js "ROOM22")).run none sampleLobby) sampleTimelessStart,
      room.status = .battling ∧ room.OpaqueIds .ascii ∧
        ((RoomOp.castVote (js "eve") (.string (js "ana")) 5000).step .ascii (js "ROOM22")
          (some room)).2.isOk ∧
        ∀ battle ∈ room.battle, ¬(battle.startedAt ≤ 5000 ∧ 5000 < battle.endsAt) := by
    decide +kernel
  obtain ⟨room, hroom, hsample⟩ := hsample
  exact ⟨room, hroom, hsample⟩

end DanceSync
