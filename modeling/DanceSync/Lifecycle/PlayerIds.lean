import DanceSync.Lifecycle.Votes
import DanceSync.WordRace.Store

/-!
# Player ids as keys of plain objects

Clients choose their ids, and the votes of a battle and the wins of a race are plain objects with
these ids as keys. An id with the name of an inherited property is read as a key that is there, and
one with an inherited setter never becomes a key by an assignment.

## Main definitions

* `Room.CountsVotes`, `Room.WithdrawsVotes`, `Room.ReportsDiscarded`, `Room.CountsWins`.
* `Room.PlainVoters`, `Room.PlainDancers`: the ids for which nothing depends on the prototype.

## Main results

* `Change.votesInTime`: a battle with votes has a time in which they were cast.
* `treatsIdsAlike_iff`: when the results of a battling room do not depend on its ids.
-/

namespace DanceSync

/-- An accepted vote for a dancer is stored and counted. -/
def Room.CountsVotes (rt : Runtime) (code : JsString) (room : Room) : Prop :=
  ∀ voterId dancerId now after reply,
    (roomMachine rt code).step (some room) (.castVote voterId (.string dancerId) now) =
      (some after, .ok reply) →
    RoomService.voteOf rt after voterId = .own dancerId ∧
      ∃ battle, after.battle = some battle ∧ voterId ∈ battle.votersOf dancerId ∧
        (ScoringService.voteCounts rt battle).get rt.proto dancerId =
          .own (.number (battle.votersOf dancerId).ncard)

/-- An accepted withdrawal leaves no vote, and a second one changes nothing. -/
def Room.WithdrawsVotes (rt : Runtime) (code : JsString) (room : Room) : Prop :=
  ∀ voterId now after reply,
    (roomMachine rt code).step (some room) (.castVote voterId .null now) =
      (some after, .ok reply) →
    RoomService.voteOf rt after voterId = .absent ∧
      ∀ later, (roomMachine rt code).next (some after) (.castVote voterId .null later) = some after

/-- A departure reports the other voters of the leaver. -/
def Room.ReportsDiscarded (rt : Runtime) (code : JsString) (room : Room) : Prop :=
  ∀ playerId random now slot' output,
    (roomMachine rt code).step (some room) (.leave playerId random now) =
      (slot', .ok (.left output)) →
    ∀ voterId, voterId ∈ output.discardedVoterIds ↔
      voterId ≠ playerId ∧ ∃ battle ∈ room.battle, voterId ∈ battle.votersOf playerId

/-- In every race planned from the room, a round that a participant claims adds one to the number of
their wins. -/
def Room.CountsWins (rt : Runtime) (room : Room) : Prop :=
  ∀ options random race, WordRaceService.plan .double rt room options random = .ok race →
    ∀ ops roundId playerId now before after round, playerId ∈ race.participantIds →
      (raceMachine rt).run (some race) ops = some before →
      (raceMachine rt).step (some before) (.claimRound roundId playerId now) =
        (some after, .claim (.claimed round)) →
      ∃ n, before.wins.get rt.proto playerId = .own (.number n) ∧
        after.wins.get rt.proto playerId = .own (.number (n + 1))

/-- The results of a battling room do not depend on its player ids. -/
structure Room.TreatsIdsAlike (rt : Runtime) (code : JsString) (room : Room) : Prop where
  votes : room.CountsVotes rt code
  withdrawals : room.WithdrawsVotes rt code
  discarded : room.ReportsDiscarded rt code
  wins : room.CountsWins rt

/-- There is a time at which votes are neither too early nor too late. -/
def Battle.LeavesTime (battle : Battle) : Prop :=
  ∃ now : Instant, ¬now < battle.startedAt ∧ ¬battle.endsAt ≤ now

/-- No spectator has the name of an inherited property, unless the song leaves no time to vote. -/
def Room.PlainVoters (rt : Runtime) (room : Room) : Prop :=
  ∀ battle ∈ room.battle, battle.LeavesTime →
    ∀ id ∈ room.spectators.map (·.id), rt.proto.inherited id = false

/-- No dancer has the name of an inherited setter, unless the battle begins at an `Invalid Date`:
then no round is ever won. -/
def Room.PlainDancers (rt : Runtime) (room : Room) : Prop :=
  ∀ battle ∈ room.battle, battle.startedAt.Valid →
    ∀ id ∈ battle.dancerIds, rt.proto.setter id = false

/-- A battle with votes has a time in which they were cast. -/
def Room.VotesInTime (room : Room) : Prop :=
  ∀ battle ∈ room.battle, battle.votes.entries ≠ [] → battle.LeavesTime

variable {rt : Runtime} {code voterId playerId : JsString} {room next after : Room}
  {op : RoomOp} {now : Instant} {battle : Battle} {slot slot' : Option Room} {reply : Reply}

/-! ### The time to vote -/

namespace Room.VotesInTime

theorem of_battle_eq (h : room.VotesInTime) (hbattle : next.battle = room.battle) :
    next.VotesInTime := by
  intro battle hmem
  exact h battle (hbattle ▸ hmem)

/-- A change of a battle that keeps its times and adds no vote. -/
theorem of_sublist (h : room.VotesInTime) {battle' : Battle} (hbattle : room.battle = some battle)
    (hnext : next.battle = some battle')
    (hvotes : battle'.votes.entries.Sublist battle.votes.entries)
    (hstart : battle'.startedAt = battle.startedAt) (hend : battle'.endsAt = battle.endsAt) :
    next.VotesInTime := by
  intro b hb hne
  obtain rfl : battle' = b := Option.some.inj (hnext.symm.trans hb)
  rw [Battle.LeavesTime, hstart, hend]
  refine h battle hbattle fun hnil => hne ?_
  rwa [hnil, List.sublist_nil] at hvotes

theorem departed (h : room.VotesInTime)
    (hdeparted : RoomService.Departed rt room playerId now next) :
    next.VotesInTime := by
  obtain ⟨hseated, hsettled, hpassed⟩ := hdeparted
  obtain ⟨songSelection, rfl⟩ := hpassed.exists_eq
  cases hsettled with
  | idle => exact h.of_battle_eq rfl
  | continuing battle _ hbattle | ended battle _ hbattle =>
    exact h.of_sublist hbattle rfl List.filter_sublist rfl rfl

theorem fallback {selection : SongSelection} {reason : ChooserReason} (h : room.VotesInTime)
    (hfallback : SongSelectionService.Fallback room selection reason now next) :
    next.VotesInTime := by
  obtain ⟨songSelection, rfl⟩ := hfallback.exists_eq
  exact h.of_battle_eq rfl

/-- A battle starts without votes. -/
theorem started {source : Room} {options : StartBattleOptions}
    (hstarted : RoomService.Started source options next) : next.VotesInTime := by
  obtain ⟨selected, song⟩ := hstarted
  intro battle hbattle hne
  obtain rfl := Option.some.inj hbattle
  exact absurd rfl hne

end Room.VotesInTime

theorem Change.votesInTime (hchange : Change rt room op next) (h : room.VotesInTime) :
    next.VotesInTime := by
  cases hchange with
  | left hdeparted | kicked _ _ hdeparted => exact h.departed hdeparted
  | submitted outcome hsubmitted =>
    cases hsubmitted with
    | expired _ _ _ _ _ _ hfallback => exact h.fallback hfallback
    | allMisspelled _ _ _ _ _ _ _ _ _ hfallback => exact h.fallback hfallback
    | accepted | misspelled => exact h.of_battle_eq rfl
  | expired selection _ _ _ hfallback => exact h.fallback hfallback
  | songChosen hchosen hnext =>
    rcases hnext with rfl | hstarted
    · cases hchosen
      exact h.of_battle_eq rfl
    · exact .started hstarted
  | songPicked hpicked hnext =>
    rcases hnext with rfl | hstarted
    · cases hpicked <;> exact h.of_battle_eq rfl
    · exact .started hstarted
  | battleStarted hstarted => exact .started hstarted
  | voted battle wanted hstatus hbattle hvoter hstart hend =>
    intro b hb hne
    obtain rfl := Option.some.inj hb
    exact ⟨_, hstart, hend⟩
  | awarded battle _ hbattle | finished battle _ hbattle =>
    exact h.of_sublist hbattle rfl (List.Sublist.refl _) rfl rfl
  | rematched => simp [Room.VotesInTime, RoomService.rematched]
  | _ => exact h.of_battle_eq rfl

theorem Stored.votesInTime (hstored : Stored rt code slot op slot')
    (h : ∀ room ∈ slot, room.VotesInTime) : ∀ room ∈ slot', room.VotesInTime := by
  cases hstored with
  | unchanged => exact h
  | created =>
    rintro room ⟨⟩
    simp [Room.VotesInTime, RoomService.newRoom]
  | changed hchange =>
    rintro room ⟨⟩
    exact (hchange.votesInTime (h _ rfl)).of_battle_eq rfl
  | deleted => simp

/-! ### Votes -/

/-- The battle after an accepted vote of a spectator with a plain id. -/
theorem own?_of_voted {dancerId : JsValue}
    (hstep : (roomMachine rt code).step (some room) (.castVote voterId dancerId now) =
      (some after, .ok reply))
    (hplain : ∀ battle, room.battle = some battle → battle.LeavesTime →
      voterId ∈ room.spectators.map (·.id) → rt.proto.inherited voterId = false) :
    rt.proto.inherited voterId = false ∧ ∃ battle wanted,
      RoomService.wantedDancer dancerId = some wanted ∧ after.battle = some battle ∧
      battle.votes.own? voterId = wanted := by
  obtain ⟨r, battle, wanted, hslot, -, hbattle, hvoter, hstart, hend, hwire, -, hstored⟩ :=
    voted_of_reply (congrArg Prod.snd hstep)
  obtain rfl := Option.some.inj hslot
  have hvoterId := hplain battle hbattle ⟨now, hstart, hend⟩ hvoter
  obtain rfl := Option.some.inj ((congrArg Prod.fst hstep).symm.trans hstored)
  refine ⟨hvoterId, ?_⟩
  split_ifs with hcurrent
  · exact ⟨battle, wanted, hwire, hbattle, own?_of_isCurrentVote hcurrent⟩
  · exact ⟨_, wanted, hwire, rfl, by rw [own?_votesAfter hvoterId, if_pos rfl]⟩

theorem countsVotes_of_plain (hinv : RoomInvariant rt room) (hplain : room.PlainVoters rt) :
    room.CountsVotes rt code := by
  intro voterId dancerId now after reply hstep
  obtain ⟨-, battle, wanted, hwire, hbattle, hown⟩ :=
    own?_of_voted hstep fun b hb htime hvoter => hplain b hb htime voterId hvoter
  obtain rfl := Option.some.inj hwire
  have hafter : RoomInvariant rt after := by
    have hstored := step_spec rt code (some room) (.castVote voterId (.string dancerId) now)
    refine hstored.roomInvariant (by rintro r ⟨⟩; exact hinv) after ?_
    exact congrArg Prod.fst hstep
  obtain ⟨-, hvotes⟩ := hafter.dancers_and_votes hbattle
  have hdancer : dancerId ∈ battle.dancerIds :=
    hvotes (voterId, dancerId) (Record.own?_eq_some_iff.mp hown)
  refine ⟨?_, battle, hbattle, hown, ?_⟩
  · simp only [RoomService.voteOf, hbattle]
    exact Record.get_of_own hown
  · refine Record.get_of_own ?_
    rw [ScoringService.own?_voteCounts rt hvotes, if_pos hdancer, Battle.ncard_votersOf]

/-- Withdrawing a vote that is not there changes nothing. -/
theorem next_withdrawal_of_absent (hvote : RoomService.voteOf rt room voterId = .absent) :
    (roomMachine rt code).next (some room) (.castVote voterId .null now) = some room := by
  have hanswer := answered rt code (some room) (.castVote voterId .null now)
  cases houtput : ((roomMachine rt code).step (some room) (.castVote voterId .null now)).2 with
  | error e => exact hanswer.refused e houtput
  | ok reply =>
    obtain ⟨r, battle, wanted, hslot, -, hbattle, -, -, -, hwire, -, hstored⟩ :=
      voted_of_reply houtput
    obtain rfl := Option.some.inj hslot
    obtain rfl := Option.some.inj hwire
    simp only [RoomService.voteOf, hbattle] at hvote
    rw [hvote] at hstored
    exact hstored

theorem withdrawsVotes_of_plain (hplain : room.PlainVoters rt) : room.WithdrawsVotes rt code := by
  intro voterId now after reply hstep
  obtain ⟨hvoterId, battle, wanted, hwire, hbattle, hown⟩ :=
    own?_of_voted hstep fun b hb htime hvoter => hplain b hb htime voterId hvoter
  obtain rfl := Option.some.inj hwire
  have hvote : RoomService.voteOf rt after voterId = .absent := by
    simp only [RoomService.voteOf, hbattle]
    exact Record.get_eq_absent_iff.mpr ⟨hown, hvoterId⟩
  exact ⟨hvote, fun later => next_withdrawal_of_absent hvote⟩

/-- The voters of a battle with plain spectators have plain ids. -/
theorem inherited_of_mem_keys (hruns : room.Runs battle) (hbattle : room.battle = some battle)
    (htime : room.VotesInTime) (hplain : room.PlainVoters rt) (h : voterId ∈ battle.votes.keys) :
    rt.proto.inherited voterId = false := by
  obtain ⟨vote, hvote, rfl⟩ := List.mem_map.mp h
  exact hplain battle hbattle (htime battle hbattle (List.ne_nil_of_mem hvote)) vote.1
    (hruns.votes vote hvote).1

/-- The votes after a departure from a running battle. -/
theorem votesOf_departed (hstatus : room.status = .battling) (hbattle : room.battle = some battle)
    (hdeparted : RoomService.Departed rt room playerId now next) :
    JoinRoom.votesOf next = (RoomService.withoutPlayer battle playerId).votes := by
  obtain ⟨hseated, hsettled, hpassed⟩ := hdeparted
  obtain ⟨songSelection, rfl⟩ := hpassed.exists_eq
  cases hsettled with
  | idle hidle => exact absurd hbattle (hidle battle hstatus)
  | continuing b _ hb | ended b _ hb =>
    obtain rfl : battle = b := Option.some.inj (hbattle.symm.trans hb)
    rfl

theorem reportsDiscarded_of_plain (hinv : RoomInvariant rt room) (hstatus : room.status = .battling)
    (htime : room.VotesInTime) (hplain : room.PlainVoters rt) :
    room.ReportsDiscarded rt code := by
  intro playerId random now slot' output hstep voterId
  obtain ⟨r, updated, hslot, hdeparted, -, hreply⟩ := left_of_reply (congrArg Prod.snd hstep)
  obtain rfl := Option.some.inj hslot
  obtain rfl := Reply.left.inj hreply
  obtain ⟨battle, hbattle, hruns⟩ := hinv.battling hstatus
  -- Another voter is without a vote after the departure exactly when it named the leaver.
  have hgone : ∀ dancerId, voterId ≠ playerId → battle.votes.own? voterId = some dancerId →
      (¬(JoinRoom.votesOf updated).has rt.proto voterId ↔ dancerId = playerId) := by
    intro dancerId hne hown
    have hvoter := inherited_of_mem_keys hruns hbattle htime hplain
      (Record.mem_keys_iff.mpr ⟨dancerId, hown⟩)
    rw [votesOf_departed hstatus hbattle hdeparted, Record.has, own?_withoutPlayer, hvoter]
    simp [Ballot.apply, hne, hown, Option.filter]
  have hkeys : JoinRoom.votesOf room = battle.votes := by simp [JoinRoom.votesOf, hbattle]
  simp only [JoinRoom.discardedVoterIds, List.mem_filter, hkeys, decide_eq_true_eq]
  constructor
  · rintro ⟨hvoter, hne, hhas⟩
    obtain ⟨dancerId, hown⟩ := Record.mem_keys_iff.mp hvoter
    obtain rfl := (hgone dancerId hne hown).mp hhas
    exact ⟨hne, battle, hbattle, hown⟩
  · rintro ⟨hne, b, hb, hown⟩
    obtain rfl : battle = b := Option.some.inj (hbattle.symm.trans hb)
    exact ⟨Record.mem_keys_iff.mpr ⟨playerId, hown⟩, hne, (hgone playerId hne hown).mpr rfl⟩

/-! ### Wins -/

/-- The wins of a plan, for a dancer without an inherited setter. -/
theorem own?_wins_of_plan {options : PlanWordRaceOptions} {random : ℕ → RandomIndex}
    {race : WordRace} (h : WordRaceService.plan .double rt room options random = .ok race)
    (hsetter : rt.proto.setter playerId = false) (hmem : playerId ∈ race.participantIds) :
    race.wins.own? playerId = some (.number 0) := by
  unfold WordRaceService.plan at h
  split at h
  next battle hstatus hbattle =>
    obtain ⟨⟨planned, calls⟩, -, hrace⟩ := bind_eq_ok.mp h
    obtain rfl := pure_eq_ok.mp hrace
    exact (WordRaceService.own?_foldl_wins rt hsetter).trans (if_pos hmem)
  next => simp at h

/-- The number of wins of a participant is kept by every call that does not claim a round for them,
and grows by one when they claim one. -/
theorem own?_wins_of_raceAnswered {race race' : WordRace} {op : RaceOp} {reply : RaceReply} {n : ℕ}
    (h : RaceAnswered rt (some race) op (some race') reply)
    (hown : race.wins.own? playerId = some (.number n)) :
    race'.wins.own? playerId =
      some (.number (if reply.moved ∧ op.claimant = some playerId then n + 1 else n)) := by
  generalize hslot : some race = slot at h
  generalize hslot' : some race' = slot' at h
  cases h with
  | unchanged hmoved =>
    obtain rfl := Option.some.inj (hslot'.trans hslot.symm)
    simp [hmoved, hown]
  | changed hrace hmoved hchange =>
    obtain rfl := Option.some.inj (hslot.trans hrace)
    obtain rfl := Option.some.inj hslot'
    obtain ⟨hround, hstep, wins, hwins⟩ := hchange
    show wins.own? playerId = _
    rw [hwins]
    cases op with
    | claimRound roundId claimant now =>
      simp only [RaceOp.claimant, hmoved, true_and, Option.some.injEq, Record.own?_define]
      by_cases hclaimant : claimant = playerId
      · subst hclaimant
        rw [if_pos rfl, if_pos rfl, Record.get_of_own hown, Tally.succOf]
      · rw [if_neg (Ne.symm hclaimant), if_neg hclaimant, hown]
    | _ => simp [RaceOp.claimant, hown]

/-- Along every run of the race the wins of a dancer without an inherited setter are a number. -/
theorem own?_wins_run {race race' : WordRace} {ops : List RaceOp}
    (hrun : (raceMachine rt).run (some race) ops = some race')
    (hown : race.wins.own? playerId = some (.number 0)) :
    ∃ n, race'.wins.own? playerId = some (.number n) := by
  have hkeep : ∀ e ∈ (raceMachine rt).trace (some race) ops,
      (∃ race ∈ e.before, ∃ n, race.wins.own? playerId = some (.number n)) →
        ∃ race ∈ e.after, ∃ n, race.wins.own? playerId = some (.number n) := by
    rintro e he ⟨before, hbefore, n, hn⟩
    have hanswered := raceAnswered rt e.before e.input
    have hafter : (raceMachine rt).next e.before e.input = e.after :=
      congrArg Prod.fst (Machine.step_of_mem_trace he)
    rw [hafter, Option.mem_def.mp hbefore] at hanswered
    cases hslot : e.after with
    | none =>
      rw [hslot] at hanswered
      cases hanswered
    | some after =>
      rw [hslot] at hanswered
      exact ⟨after, rfl, _, own?_wins_of_raceAnswered hanswered hn⟩
  obtain ⟨r, hr, n, hn⟩ := Machine.run_invariant
    (P := fun slot => ∃ race ∈ slot, ∃ n, race.wins.own? playerId = some (.number n)) hkeep
    ⟨race, rfl, 0, hown⟩
  rw [hrun] at hr
  obtain rfl := Option.some.inj hr
  exact ⟨n, hn⟩

/-- No round of the race ends at a valid date. -/
def WordRace.Undated (race : WordRace) : Prop := ∀ round ∈ race.rounds, ¬round.closesAt.Valid

/-- The rounds of a battle that begins at an `Invalid Date` end at one. -/
theorem undated_of_plan {options : PlanWordRaceOptions} {random : ℕ → RandomIndex}
    {race : WordRace} (h : WordRaceService.plan .double rt room options random = .ok race)
    (hbattle : room.battle = some battle) (hstart : ¬battle.startedAt.Valid) : race.Undated := by
  have hinvalid : battle.startedAt = .invalid := by
    cases hdate : battle.startedAt with
    | «at» ms => exact absurd Date.valid_at (hdate ▸ hstart)
    | invalid => rfl
  unfold WordRaceService.plan at h
  split at h
  next b hstatus hb =>
    obtain rfl : battle = b := Option.some.inj (hbattle.symm.trans hb)
    obtain ⟨⟨planned, calls⟩, -, hrace⟩ := bind_eq_ok.mp h
    obtain rfl := pure_eq_ok.mp hrace
    intro round hround
    obtain ⟨i, hi, rfl⟩ := List.mem_mapIdx.mp hround
    simp [WordRaceService.scheduledRound, WordRaceService.closing, hinvalid]
  next => simp at h

/-- A round that moves ends when it did. -/
theorem RoundStep.closesAt_eq {op : RaceOp} {reply : RaceReply} {round round' : WordRound}
    (h : RoundStep round op reply round') : round'.closesAt = round.closesAt := by
  cases h <;> rfl

theorem undated_of_raceAnswered {slot slot' : Option WordRace} {op : RaceOp} {reply : RaceReply}
    (h : RaceAnswered rt slot op slot' reply) (hundated : ∀ race ∈ slot, race.Undated) :
    ∀ race ∈ slot', race.Undated := by
  cases h with
  | unchanged => exact hundated
  | @changed race race' _ hslot hmoved hchange =>
    obtain ⟨hround, hstep, wins, -⟩ := hchange
    rintro _ ⟨⟩ r hr
    have hmem := (WordRace.mem_of_round? hround).1
    obtain ⟨old, hold, rfl⟩ := List.mem_map.mp hr
    split_ifs
    · rw [hstep.closesAt_eq]
      exact hundated race hslot _ hmem
    · exact hundated race hslot old hold

/-- A round that was claimed ends at a valid date. -/
theorem not_undated_of_claimed {before after : WordRace} {roundId : JsString} {round : WordRound}
    (h : (raceMachine rt).step (some before) (.claimRound roundId playerId now) =
      (some after, .claim (.claimed round))) : ¬before.Undated := by
  have hanswered := raceAnswered rt (some before) (.claimRound roundId playerId now)
  rw [congrArg Prod.snd h] at hanswered
  generalize (raceMachine rt).next (some before) (.claimRound roundId playerId now) = slot
    at hanswered
  cases hanswered with
  | unchanged hmoved => simp [RaceReply.moved] at hmoved
  | changed hslot hmoved hchange =>
    obtain rfl := Option.some.inj hslot
    obtain ⟨hround, hstep, wins, -⟩ := hchange
    intro hundated
    cases hstep with
    | won hstatus hwinner htime =>
      exact hundated _ (WordRace.mem_of_round? hround).1 (Date.valid_of_lt htime)

theorem countsWins_of_plain (hplain : room.PlainDancers rt) : room.CountsWins rt := by
  intro options random race hplan ops roundId playerId now before after round hmem hrun hstep
  obtain ⟨-, battle, -, hbattle, -, hdancers⟩ := WordRaceService.plan_eq_ok hplan
  have hstart : battle.startedAt.Valid := by
    by_contra hstart
    refine not_undated_of_claimed hstep (Machine.run_invariant (M := raceMachine rt)
      (P := fun slot => ∀ race ∈ slot, race.Undated) (fun e he h => ?_)
      (by rintro _ ⟨⟩; exact undated_of_plan hplan hbattle hstart) before hrun)
    have hanswered := raceAnswered rt e.before e.input
    rw [Machine.event_of_mem_trace he]
    exact undated_of_raceAnswered hanswered h
  have hsetter := hplain battle hbattle hstart playerId (hdancers ▸ hmem)
  obtain ⟨n, hn⟩ := own?_wins_run hrun (own?_wins_of_plan hplan hsetter hmem)
  have hanswered := raceAnswered rt (some before) (.claimRound roundId playerId now)
  have hnext : (raceMachine rt).next (some before) (.claimRound roundId playerId now) =
      some after := congrArg Prod.fst hstep
  rw [hnext, congrArg Prod.snd hstep] at hanswered
  have hafter := own?_wins_of_raceAnswered hanswered hn
  refine ⟨n, Record.get_of_own hn, Record.get_of_own ?_⟩
  simpa [RaceReply.moved, RaceOp.claimant] using hafter

/-! ### Ids that matter -/

/-- A spectator who may withdraw their vote has a plain id. -/
theorem plainVoters_of_withdrawsVotes (hstatus : room.status = .battling)
    (h : room.WithdrawsVotes rt code) : room.PlainVoters rt := by
  rintro battle hbattle ⟨now, hbegan, hopen⟩ voterId hvoter
  have hok : ((RoomOp.castVote voterId .null now).step rt code (some room)).2.isOk :=
    isOk_castVote_iff.mpr
      ⟨room, battle, rfl, hstatus, hbattle, hvoter, hbegan, hopen, Or.inl rfl⟩
  obtain ⟨reply, hreply⟩ := exists_ok_of_isOk hok
  obtain ⟨r, b, wanted, hslot, -, hb, -, -, -, -, -, hstored⟩ := voted_of_reply hreply
  obtain rfl := Option.some.inj hslot
  obtain ⟨habsent, -⟩ := h voterId now _ reply (Prod.ext hstored hreply)
  simp only [RoomService.voteOf] at habsent
  split at habsent
  next => exact (Record.get_eq_absent_iff.mp habsent).2
  next hnone => split_ifs at hnone <;> simp [RoomService.voted, hb] at hnone

/-- One round that opens and closes at the epoch, for a battle that begins at `startedAt`. -/
def roundAtEpoch (startedAt : Instant) : PlanWordRaceOptions :=
  { windowMs := 0, words := [js "ritmo"], offsetsMs := some [-startedAt] }

theorem plan_roundAtEpoch (rt : Runtime) (startedAt : Instant) (hstatus : room.status = .battling)
    (hbattle : room.battle = some battle) :
    ∃ race, WordRaceService.plan .double rt room (roundAtEpoch startedAt) (fun _ => .first) =
        .ok race ∧
      race.participantIds = battle.dancerIds ∧
      race.rounds =
        [WordRaceService.scheduledRound .double battle 0 0 (js "ritmo", -startedAt)] ∧
      race.wins = battle.dancerIds.foldl (fun wins id => wins.assign rt.proto id (.number 0))
        .empty := by
  unfold WordRaceService.plan
  rw [hstatus, hbattle]
  exact ⟨_, rfl, rfl, rfl, rfl⟩

/-- Assignments create no property with the name of an inherited setter. -/
theorem own?_foldl_wins_of_setter (hsetter : rt.proto.setter playerId) (ids : List JsString)
    {wins : Record JsString Tally} (hnone : wins.own? playerId = none) :
    (ids.foldl (fun wins id => wins.assign rt.proto id (.number 0)) wins).own? playerId = none := by
  induction ids generalizing wins with
  | nil => exact hnone
  | cons id ids ih =>
    refine ih ?_
    by_cases hid : playerId = id
    · subst hid
      simp [Record.assign, hsetter, hnone]
    · rw [Record.own?_assign_of_ne rt.proto wins _ hid, hnone]

/-- A dancer whose wins are counted has no inherited setter as a name. -/
theorem plainDancers_of_countsWins (hstatus : room.status = .battling)
    (h : room.CountsWins rt) : room.PlainDancers rt := by
  intro battle hbattle hvalid playerId hdancer
  by_contra hsetter
  rw [Bool.not_eq_false] at hsetter
  obtain ⟨startedAt, hstart⟩ := Date.exists_of_valid hvalid
  obtain ⟨race, hplan, hparticipants, hrounds, hwins⟩ :=
    plan_roundAtEpoch rt startedAt hstatus hbattle
  generalize hround :
    WordRaceService.scheduledRound .double battle 0 0 (js "ritmo", -startedAt) = round at hrounds
  have hscheduled : round.status = .scheduled ∧ round.winnerId = none := by
    rw [← hround]
    exact ⟨rfl, rfl⟩
  have hcloses : (-1 : ℤ) < round.closesAt := by
    have hepoch : round.closesAt = .at 0 := by
      rw [← hround]
      simp [WordRaceService.scheduledRound, WordRaceService.closing, hstart, Numerics.double,
        truncate, MAX_TIME_VALUE]
    rw [hepoch]
    exact Date.at_lt_at.mpr (by decide)
  -- The round opens and the dancer claims it.
  have hopen : (raceMachine rt).run (some race) [.openRound round.id] =
      some (race.withRound (WordRace.opened round)) := by
    simp [Machine.next, raceMachine, InMemoryWordRaceRepository.openRound, WordRace.round?,
      hrounds, hscheduled.1]
  have hclaim : ∃ after claimed, (raceMachine rt).step
      (some (race.withRound (WordRace.opened round)))
        (.claimRound round.id playerId (-1)) = (some after, .claim (.claimed claimed)) := by
    simp [raceMachine, InMemoryWordRaceRepository.claimRound, WordRace.round?, WordRace.withRound,
      WordRace.opened, hrounds, hscheduled.2, hcloses]
  obtain ⟨after, claimed, hclaim⟩ := hclaim
  obtain ⟨n, hn, -⟩ := h (roundAtEpoch startedAt) _ race hplan _ round.id playerId (-1) _ after
    claimed (hparticipants ▸ hdancer) hopen hclaim
  have hown := Record.get_eq_own_iff.mp hn
  have hnone : race.wins.own? playerId = none := by
    rw [hwins]
    exact own?_foldl_wins_of_setter hsetter battle.dancerIds rfl
  exact absurd (hnone.symm.trans hown) (by simp)

/-- In a battling room that calls make out of a free code, the results do not depend on the player
ids exactly when no spectator has the name of an inherited property, unless the song leaves no time
to vote, and no dancer that of an inherited setter. -/
theorem treatsIdsAlike_iff (rt : Runtime) (code : JsString) (ops : List RoomOp) (room : Room)
    (hrun : (roomMachine rt code).run none ops = some room) (hstatus : room.status = .battling) :
    room.TreatsIdsAlike rt code ↔ room.PlainVoters rt ∧ room.PlainDancers rt := by
  constructor
  · rintro ⟨-, hwithdrawals, -, hwins⟩
    exact ⟨plainVoters_of_withdrawsVotes hstatus hwithdrawals,
      plainDancers_of_countsWins hstatus hwins⟩
  · rintro ⟨hvoters, hdancers⟩
    have hinv := roomInvariant_run rt code ops (by simp) room hrun
    have htime : ∀ r ∈ (roomMachine rt code).run none ops, r.VotesInTime :=
      Machine.run_invariant (P := fun slot => ∀ r ∈ slot, r.VotesInTime)
        (fun e he h => (stored_of_mem_trace he).votesInTime h) (by simp)
    exact
      { votes := countsVotes_of_plain hinv hvoters
        withdrawals := withdrawsVotes_of_plain hvoters
        discarded := reportsDiscarded_of_plain hinv hstatus (htime room hrun) hvoters
        wins := countsWins_of_plain hdancers }

theorem treatsIdsAlike_iff_sampleBattle :
    ∃ room ∈ (roomMachine .ascii (js "ROOM22")).run none sampleBattle,
      room.TreatsIdsAlike .ascii (js "ROOM22") := by
  have hsample : ∃ room ∈ (roomMachine .ascii (js "ROOM22")).run none sampleBattle,
      room.status = .battling ∧ room.OpaqueIds .ascii ∧
        ∃ battle, room.battle = some battle ∧ ∀ id ∈ battle.dancerIds,
          objectPrototype.setter id = false := by decide +kernel
  obtain ⟨room, hroom, hstatus, hplain, battle, hbattle, hdancers⟩ := hsample
  refine ⟨room, hroom, (treatsIdsAlike_iff .ascii (js "ROOM22") sampleBattle room hroom
    hstatus).mpr ⟨fun b hb _ id hid => ?_, fun b hb => ?_⟩⟩
  · have hinv := roomInvariant_run .ascii (js "ROOM22") sampleBattle (by simp) room hroom
    exact hplain id (hinv.seats.mem_playerIds_of_spectator hid)
  · obtain rfl : battle = b := Option.some.inj (hbattle.symm.trans hb)
    exact fun _ => hdancers

/-- A battle of Ana and `__proto__` that `constructor` watches. -/
def sampleInheritedNames : List RoomOp :=
  [.create (.string (js "ana")) (.string (js "Ana")) 0,
    .join (.string (js "__proto__")) (.string (js "Bob")),
    .join (.string (js "constructor")) (.string (js "Eve")),
    .selectRole (js "ana") (.string (js "dancer")),
    .selectRole (js "__proto__") (.string (js "dancer")),
    .setReady (js "ana") (.boolean true),
    .setReady (js "__proto__") (.boolean true),
    .setReady (js "constructor") (.boolean true),
    .startChallenge (js "ana") { now := 1000, challengeId := js "c1", random := .first },
    .submitPhrase (js "ana") (.string (js "ritmo")) 2000 .first,
    .chooseSong (js "ana") (js "song-1") { now := 3000, battleId := js "b1" }]

/-- The spectator withdraws a vote that was never cast, and the room changes. -/
theorem inherited_name_is_no_vote :
    ∃ room ∈ (roomMachine .ascii (js "ROOM22")).run none sampleInheritedNames,
      room.status = .battling ∧ ¬room.TreatsIdsAlike .ascii (js "ROOM22") := by
  have hsample : ∃ room ∈ (roomMachine .ascii (js "ROOM22")).run none sampleInheritedNames,
      room.status = .battling ∧
      ∃ after ∈ (roomMachine .ascii (js "ROOM22")).next (some room)
          (.castVote (js "constructor") .null 4000),
        ((roomMachine .ascii (js "ROOM22")).step (some room)
          (.castVote (js "constructor") .null 4000)).2.isOk ∧
        RoomService.voteOf .ascii after (js "constructor") ≠ .absent := by decide +kernel
  obtain ⟨room, hroom, hstatus, after, hafter, hok, hvote⟩ := hsample
  obtain ⟨reply, hreply⟩ := exists_ok_of_isOk hok
  refine ⟨room, hroom, hstatus, fun h => hvote ?_⟩
  exact (h.withdrawals (js "constructor") 4000 after reply (Prod.ext hafter hreply)).1

end DanceSync
