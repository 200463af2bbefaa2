import DanceSync.WordRace.Store

/-!
# The rounds of a stored race

Opening, claiming and expiring rounds in any order, at any times and for any players keep the race
consistent: a round has a winner exactly when it is won, and the tally of a player counts the rounds
they won. A round that is over stays as it is, so it is settled once.

## Main definitions

* `WordRace.Consistent`: the race invariant.
* `RaceEvent.settles`: a call that wins or expires a round.
* `WordRace.SameRace`: the fields that no call touches.

## Main results

* `RaceChange.consistent`, `consistent_run`.
* `countP_settles_le_one`: a round is settled by at most one call.
* `mem_rounds_run_of_isFinal`: a settled round stays.
-/

namespace DanceSync

/-- Different rounds of one battle; a round is won exactly when it has a winner; the tally of each
player counts the rounds they won. -/
structure WordRace.Consistent (rt : Runtime) (race : WordRace) : Prop where
  nodup : (race.rounds.map (·.id)).Nodup
  ids : ∀ round ∈ race.rounds, ∃ number, round.id = WordRaceService.roundId race.battleId number
  winner : ∀ round ∈ race.rounds, round.status = .won ↔ round.winnerId.isSome
  wins : ∀ playerId, rt.proto.inherited playerId = false → race.wins.own? playerId =
    if race.wonBy playerId = 0 ∧ playerId ∉ race.participantIds then none
    else some (.number (race.wonBy playerId))

/-- The fields that are set when the race is planned. -/
structure WordRace.SameRace (race race' : WordRace) : Prop where
  roomCode : race'.roomCode = race.roomCode
  battleId : race'.battleId = race.battleId
  participantIds : race'.participantIds = race.participantIds
  participantNames : race'.participantNames = race.participantNames
  ids : race'.rounds.map (·.id) = race.rounds.map (·.id)

/-- An answered call on the race of a room. -/
abbrev RaceEvent := Machine.Event (Option WordRace) RaceOp RaceReply

/-- The round that a call won or expired. -/
def RaceReply.settledRound : RaceReply → Option WordRound
  | .claim (.claimed round) => some round
  | .expired round => round
  | _ => none

/-- The reply says that the call won or expired its round. -/
def RaceReply.settled (reply : RaceReply) : Bool := reply.settledRound.isSome

/-- The call won or expired the round. -/
def RaceEvent.settles (roundId : JsString) (e : RaceEvent) : Bool :=
  e.input.roundId = roundId && e.output.settled

/-- The stored race has the round, and it is not over. -/
def Unsettled (roundId : JsString) (slot : Option WordRace) : Prop :=
  ∃ race ∈ slot, ∃ round ∈ race.rounds, round.id = roundId ∧ round.status.isFinal = false

instance (roundId : JsString) (slot : Option WordRace) : Decidable (Unsettled roundId slot) :=
  inferInstanceAs (Decidable (∃ race ∈ slot, ∃ round ∈ race.rounds,
    round.id = roundId ∧ round.status.isFinal = false))

variable {rt : Runtime} {race race' : WordRace} {round round' : WordRound} {op : RaceOp}
  {reply : RaceReply} {slot slot' : Option WordRace} {ops : List RaceOp} {roundId : JsString}
  {e : RaceEvent}

/-! ### One call -/

theorem RoundStep.id_eq (h : RoundStep round op reply round') : round'.id = round.id := by
  cases h <;> rfl

/-- Only a round that is not over moves. -/
theorem RoundStep.not_final (h : RoundStep round op reply round') :
    round.status.isFinal = false := by
  cases h with
  | opened hstatus | won hstatus | expired hstatus => rw [hstatus]; rfl

/-- A settling call leaves its round over. -/
theorem RoundStep.settled_iff (h : RoundStep round op reply round') :
    reply.settled = round'.status.isFinal := by
  cases h <;> rfl

/-- A round that moves keeps a winner exactly when it is won. -/
theorem RoundStep.winner_iff (h : RoundStep round op reply round')
    (hwinner : round.status = .won ↔ round.winnerId.isSome) :
    round'.status = .won ↔ round'.winnerId.isSome := by
  cases h with
  | opened hstatus =>
    rw [hstatus] at hwinner
    simpa [WordRace.opened] using hwinner
  | won hstatus => simp [WordRace.won]
  | expired hstatus hnone => simp [WordRace.expired, hnone]

theorem WordRace.SameRace.refl (race : WordRace) : race.SameRace race := ⟨rfl, rfl, rfl, rfl, rfl⟩

theorem WordRace.SameRace.trans {race'' : WordRace} (h : race.SameRace race')
    (h' : race'.SameRace race'') : race.SameRace race'' :=
  ⟨h'.roomCode.trans h.roomCode, h'.battleId.trans h.battleId,
    h'.participantIds.trans h.participantIds, h'.participantNames.trans h.participantNames,
    h'.ids.trans h.ids⟩

theorem RaceChange.sameRace (h : RaceChange rt race op reply race') : race.SameRace race' := by
  cases h
  exact ⟨rfl, rfl, rfl, rfl, WordRace.map_id_withRound⟩

/-- The rounds won by a player after a call. -/
theorem wonBy_withRound (hnodup : (race.rounds.map (·.id)).Nodup) (hround : round ∈ race.rounds)
    (hstep : RoundStep round op reply round') (playerId : JsString) :
    (race.withRound round').wonBy playerId = race.wonBy playerId +
      if op.claimant = some playerId then 1 else 0 := by
  have hcount := WordRace.countP_withRound (fun r => r.winnerId = some playerId) hnodup hround
    hstep.id_eq
  unfold WordRace.wonBy
  cases hstep with
  | opened hstatus =>
    have hsame : (WordRace.opened round).winnerId = round.winnerId := rfl
    rw [hsame] at hcount
    simpa [RaceOp.claimant] using Nat.add_right_cancel hcount
  | expired hstatus hnone => simpa [RaceOp.claimant, WordRace.expired, hnone] using hcount
  | won hstatus hnone => simpa [RaceOp.claimant, WordRace.won, hnone] using hcount

/-- A call keeps the race consistent. -/
theorem RaceChange.consistent (hchange : RaceChange rt race op reply race')
    (h : race.Consistent rt) : race'.Consistent rt := by
  obtain ⟨hround, hstep, wins, hwins⟩ := hchange
  rename_i round round'
  obtain ⟨hmem, hid⟩ := WordRace.mem_of_round? hround
  have hmem' : ∀ {r}, r ∈ (race.withRound round').rounds → r = round' ∨ r ∈ race.rounds :=
    fun hr => ((WordRace.mem_rounds_withRound h.nodup hmem hstep.id_eq).mp hr).imp_right And.left
  refine ⟨?_, fun r hr => ?_, fun r hr => ?_, fun playerId hplain => ?_⟩
  · show ((race.withRound round').rounds.map (·.id)).Nodup
    rw [WordRace.map_id_withRound]
    exact h.nodup
  · rcases hmem' hr with rfl | hr
    · exact hstep.id_eq ▸ h.ids round hmem
    · exact h.ids r hr
  · rcases hmem' hr with rfl | hr
    · exact hstep.winner_iff (h.winner round hmem)
    · exact h.winner r hr
  · have hbefore := h.wins playerId hplain
    have hcount := wonBy_withRound h.nodup hmem hstep playerId
    show wins.own? playerId = if (race.withRound round').wonBy playerId = 0 ∧
      playerId ∉ race.participantIds then none
      else some (Tally.number ((race.withRound round').wonBy playerId))
    rw [hcount, hwins]
    cases op.claimant with
    | none => simpa using hbefore
    | some winnerId =>
      simp only [Option.some.injEq]
      rw [Record.own?_define]
      by_cases hwinner : playerId = winnerId
      · subst hwinner
        rw [if_pos rfl, if_pos rfl, if_neg (by omega), Record.get, hbefore]
        by_cases hzero : race.wonBy playerId = 0 ∧ playerId ∉ race.participantIds
        · rw [if_pos hzero]
          simp [hplain, hzero.1, Tally.succOf]
        · rw [if_neg hzero]
          simp [Tally.succOf]
      · rw [if_neg hwinner, hbefore]
        simp [Ne.symm hwinner]

theorem WordRace.Planned.consistent (h : race.Planned rt) : race.Consistent rt := by
  have hwon : ∀ playerId, race.wonBy playerId = 0 := fun playerId =>
    List.countP_eq_zero.mpr fun round hround => by simp [h.winnerId round hround]
  obtain ⟨n, hids⟩ := h.ids
  refine ⟨h.nodup, fun round hround => ?_, fun round hround => ?_, fun playerId hplain => ?_⟩
  · have hmem : round.id ∈ race.rounds.map (·.id) := List.mem_map_of_mem hround
    rw [hids] at hmem
    obtain ⟨i, -, hi⟩ := List.mem_map.mp hmem
    exact ⟨i + 1, hi.symm⟩
  · simp [h.scheduled round hround, h.winnerId round hround]
  · rw [h.wins playerId hplain, hwon]
    by_cases hmem : playerId ∈ race.participantIds <;> simp [hmem]

/-- A round that is over stays as it is. -/
theorem RaceChange.mem_of_isFinal (hchange : RaceChange rt race op reply race')
    (h : race.Consistent rt) (hround : round ∈ race.rounds) (hfinal : round.status.isFinal) :
    round ∈ race'.rounds := by
  obtain ⟨hmoved, hstep, wins, hwins⟩ := hchange
  refine (WordRace.mem_rounds_withRound h.nodup (WordRace.mem_of_round? hmoved).1
    hstep.id_eq).mpr (Or.inr ⟨hround, ?_⟩)
  rintro rfl
  simp [hstep.not_final] at hfinal

/-- A call settles its round, which was not over, or leaves it as it was. -/
theorem RaceChange.unsettled_iff (hchange : RaceChange rt race op reply race')
    (h : race.Consistent rt) : Unsettled roundId (some race') ↔
      Unsettled roundId (some race) ∧ ¬(op.roundId = roundId ∧ reply.settled) := by
  obtain ⟨hmoved, hstep, wins, hwins⟩ := hchange
  rename_i moved moved'
  obtain ⟨hmem, hid⟩ := WordRace.mem_of_round? hmoved
  have hrounds := @WordRace.mem_rounds_withRound race moved moved' h.nodup hmem hstep.id_eq
  rw [hstep.settled_iff]
  constructor
  · rintro ⟨_, ⟨⟩, round, hround, rfl, hfinal⟩
    rcases hrounds.mp hround with rfl | ⟨hround, hne⟩
    · exact ⟨⟨race, rfl, moved, hmem, hstep.id_eq.symm, hstep.not_final⟩, by simp [hfinal]⟩
    · refine ⟨⟨race, rfl, round, hround, rfl, hfinal⟩, fun ⟨heq, _⟩ => hne ?_⟩
      exact WordRace.eq_of_id_eq h.nodup hround hmem (hid.trans heq).symm
  · rintro ⟨⟨_, ⟨⟩, round, hround, rfl, hfinal⟩, hnot⟩
    by_cases heq : round = moved
    · subst heq
      refine ⟨_, rfl, moved', hrounds.mpr (Or.inl rfl), hstep.id_eq, ?_⟩
      exact Bool.eq_false_iff.mpr fun hset => hnot ⟨hid.symm, hset⟩
    · exact ⟨_, rfl, round, hrounds.mpr (Or.inr ⟨hround, heq⟩), rfl, hfinal⟩

theorem RaceChange.unsettled_of_settled (hchange : RaceChange rt race op reply race') :
    Unsettled op.roundId (some race) := by
  obtain ⟨hmoved, hstep, wins, hwins⟩ := hchange
  obtain ⟨hmem, hid⟩ := WordRace.mem_of_round? hmoved
  exact ⟨race, rfl, _, hmem, hid, hstep.not_final⟩

theorem RaceReply.moved_of_settled (h : reply.settled) : reply.moved = true := by
  cases reply with
  | opened => simp [RaceReply.settled, RaceReply.settledRound] at h
  | expired => exact h
  | claim result => cases result with
    | claimed => rfl
    | refused => simp [RaceReply.settled, RaceReply.settledRound] at h

namespace RaceAnswered

theorem consistent (hanswered : RaceAnswered rt slot op slot' reply)
    (h : ∀ r ∈ slot, r.Consistent rt) : ∀ r ∈ slot', r.Consistent rt := by
  cases hanswered with
  | unchanged => exact h
  | changed hslot hmoved hchange =>
    rintro r ⟨⟩
    exact hchange.consistent (h _ hslot)

theorem sameRace (hanswered : RaceAnswered rt slot op slot' reply)
    (h : ∃ r, slot = some r ∧ race.SameRace r) : ∃ r, slot' = some r ∧ race.SameRace r := by
  obtain ⟨r, rfl, hsame⟩ := h
  cases hanswered with
  | unchanged => exact ⟨r, rfl, hsame⟩
  | changed hslot hmoved hchange =>
    obtain rfl := Option.some.inj hslot
    exact ⟨_, rfl, hsame.trans hchange.sameRace⟩

theorem mem_of_isFinal (hanswered : RaceAnswered rt slot op slot' reply)
    (hconsistent : ∀ r ∈ slot, r.Consistent rt) (hfinal : round.status.isFinal)
    (h : ∀ r ∈ slot, round ∈ r.rounds) : ∀ r ∈ slot', round ∈ r.rounds := by
  cases hanswered with
  | unchanged => exact h
  | changed hslot hmoved hchange =>
    rintro r ⟨⟩
    exact hchange.mem_of_isFinal (hconsistent _ hslot) (h _ hslot) hfinal

theorem unsettled_iff (hanswered : RaceAnswered rt slot op slot' reply)
    (h : ∀ r ∈ slot, r.Consistent rt) : Unsettled roundId slot' ↔
      Unsettled roundId slot ∧ ¬(op.roundId = roundId ∧ reply.settled) := by
  cases hanswered with
  | unchanged hmoved =>
    refine (and_iff_left ?_).symm
    rintro ⟨-, hsettled⟩
    simp [RaceReply.moved_of_settled hsettled] at hmoved
  | changed hslot hmoved hchange =>
    subst hslot
    exact hchange.unsettled_iff (h _ rfl)

theorem unsettled_of_settled (hanswered : RaceAnswered rt slot op slot' reply)
    (h : reply.settled) : Unsettled op.roundId slot := by
  cases hanswered with
  | unchanged hmoved => simp [RaceReply.moved_of_settled h] at hmoved
  | changed hslot hmoved hchange =>
    subst hslot
    exact hchange.unsettled_of_settled

end RaceAnswered

/-! ### Whole runs -/

theorem answered_of_mem_trace (he : e ∈ (raceMachine rt).trace slot ops) :
    RaceAnswered rt e.before e.input e.after e.output := by
  rw [Machine.event_of_mem_trace he]
  exact raceAnswered rt e.before e.input

theorem consistent_of_mem_trace (h : ∀ r ∈ slot, r.Consistent rt)
    (he : e ∈ (raceMachine rt).trace slot ops) : ∀ r ∈ e.before, r.Consistent rt :=
  (Machine.invariant_of_mem_trace (P := fun slot => ∀ r ∈ slot, r.Consistent rt)
    (fun _ he => (answered_of_mem_trace he).consistent) h he).1

/-- Any calls keep a stored race consistent. -/
theorem consistent_run (ops : List RaceOp) (h : ∀ r ∈ slot, r.Consistent rt) :
    ∀ r ∈ (raceMachine rt).run slot ops, r.Consistent rt :=
  Machine.run_invariant (P := fun slot => ∀ r ∈ slot, r.Consistent rt)
    (fun _ he => (answered_of_mem_trace he).consistent) h

/-- Any calls leave the race in the store, with what was planned. -/
theorem sameRace_run (rt : Runtime) (race : WordRace) (ops : List RaceOp) :
    ∃ r, (raceMachine rt).run (some race) ops = some r ∧ race.SameRace r :=
  Machine.run_invariant (P := fun slot => ∃ r, slot = some r ∧ race.SameRace r)
    (fun _ he => (answered_of_mem_trace he).sameRace) ⟨race, rfl, .refl race⟩

/-- A round that is over stays as it is. -/
theorem mem_rounds_run_of_isFinal (ops : List RaceOp) (hslot : ∀ r ∈ slot, r.Consistent rt)
    (hfinal : round.status.isFinal) (hround : ∀ r ∈ slot, round ∈ r.rounds) :
    ∀ r ∈ (raceMachine rt).run slot ops, round ∈ r.rounds :=
  Machine.run_invariant (P := fun slot : Option WordRace => ∀ r ∈ slot, round ∈ r.rounds)
    (fun _ he => (answered_of_mem_trace he).mem_of_isFinal (consistent_of_mem_trace hslot he)
      hfinal)
    hround

/-- A round is settled by at most one call. -/
theorem countP_settles_le_one (ops : List RaceOp) (roundId : JsString)
    (h : ∀ r ∈ slot, r.Consistent rt) :
    ((raceMachine rt).trace slot ops).countP (RaceEvent.settles roundId) ≤ 1 := by
  have hafter : ∀ e ∈ (raceMachine rt).trace slot ops, Unsettled roundId e.after ↔
      Unsettled roundId e.before ∧ ¬(e.input.roundId = roundId ∧ e.output.settled) :=
    fun e he => (answered_of_mem_trace he).unsettled_iff (consistent_of_mem_trace h he)
  refine Machine.countP_trace_le_one (Unsettled roundId) (fun e he hsettles => ?_)
    fun e he hbefore => mt (fun h => ((hafter e he).mp h).1) hbefore
  simp only [RaceEvent.settles, Bool.and_eq_true, decide_eq_true_eq] at hsettles
  refine ⟨?_, fun h => ((hafter e he).mp h).2 hsettles⟩
  exact hsettles.1 ▸ (answered_of_mem_trace he).unsettled_of_settled hsettles.2

end DanceSync
