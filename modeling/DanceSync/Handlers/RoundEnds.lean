import DanceSync.Handlers.Pieces

/-!
# Rounds end once

A round is settled, by a claim or by an expiry, once for each time its race was saved. The handler
that settled it announces its end, whatever other handlers do before it goes on, and a winner that
is announced is the one that was stored.

## Main definitions

* `Output.settles`, `Output.saves`, `Output.ends`: what the log of a run says of a round.
* `SettledWithin`: a round is settled at most once for each time its race was saved.
* `Task.ending`: the round whose end a task is about to announce.
* `Won`: a player claimed the round and is its stored winner.

## Main results

* `settledWithin_resume`: one piece keeps the count.
* `resume_announces`: a piece announces only a round that was settled for it.
* `one_winner`.
-/

namespace DanceSync

open WordRaceService (battleOf)

/-! ### The log of a run -/

namespace Output

/-- The round is won or expired. -/
def settles (roundId : JsString) : Output → Bool
  | .roundClaimed _ id _ | .roundExpired _ id => id = roundId
  | _ => false

/-- The output tells of a round that is settled or announced as over. -/
def tellsEnd : Output → Bool
  | .roundClaimed .. | .roundExpired .. | .roundEnded _ => true
  | _ => false

/-- The end of the round is announced. -/
def ends (roundId : JsString) : Output → Bool
  | .roundEnded payload => payload.roundId = roundId
  | _ => false

end Output

/-- One for a round that is still to be settled. -/
def pending (roundId : JsString) (slot : Option WordRace) : ℕ :=
  if Unsettled roundId slot then 1 else 0

/-- A round is settled at most once for each race of its battle: for the `stored` ones and for
each that was saved. -/
def SettledWithin (stored : ℕ) (roundId : JsString) (s : Shared) (log : List Output) : Prop :=
  log.countP (Output.settles roundId) + pending roundId s.race ≤
    stored + log.countP (Output.saves (battleOf roundId))

/-- The stored race of a room is consistent. -/
def Shared.Consistent (rt : Runtime) (s : Shared) : Prop := ∀ race ∈ s.race, race.Consistent rt

/-- The round whose end a task is about to announce. -/
def Task.ending : Task → Option WordRound
  | .submitClaim _ _ _ (.claimed round) => some round
  | .awardWordBonus _ _ round | .announceWon _ _ round _ => some round
  | .expireRace _ expired | .announceExpired _ expired _ => expired
  | _ => none

/-- What a task owes to the log: one announcement of the end of its round. -/
def Task.owes (roundId : JsString) (t : Task) : ℕ :=
  if t.ending.map (·.id) = some roundId then 1 else 0

/-- `playerId` claimed the round, and is its winner as long as its race is stored. -/
def Won (roundId playerId : JsString) (s : Shared) (log : List Output) : Prop :=
  (∃ battleId, .roundClaimed battleId roundId playerId ∈ log) ∧
    ∀ race ∈ s.race, ∃ round ∈ race.rounds,
      round.id = roundId ∧ round.status = .won ∧ round.winnerId = some playerId

variable {sv : Service} {env : Env} {s : Shared} {t u : Task} {log : List Output} {stored : ℕ}
  {roundId playerId : JsString} {round : WordRound} {rt : Runtime} {race after : WordRace}
  {op : RaceOp} {reply : RaceReply}

/-! ### One piece -/

/-- A piece keeps the stored race consistent. -/
theorem consistent_resume (h : s.Consistent sv.rt) :
    (t.resume sv env s).shared.Consistent sv.rt := by
  intro race hrace
  rcases resume_raceMoved sv env s t with ⟨hkept, -⟩ |
    ⟨op, reply, before, after, hslot, hafter, hchange, -⟩ |
    ⟨room, saved, -, hplan, hsaved, -⟩ | ⟨-, hnone, -⟩
  · exact h race (hkept ▸ hrace)
  · obtain rfl := Option.some.inj (hafter.symm.trans hrace)
    exact hchange.consistent (h before hslot)
  · obtain rfl := Option.some.inj (hsaved.symm.trans hrace)
    exact (WordRaceService.plan_eq_ok hplan).1.consistent
  · simp [hnone] at hrace

/-- A call that moves a round is seen to settle the round it names, when it does. -/
theorem RaceChange.countP_outputs (h : RaceChange rt race op reply after) (battleId : JsString) :
    (reply.outputs battleId op).countP (Output.settles roundId) =
      if op.roundId = roundId ∧ reply.settled then 1 else 0 := by
  obtain ⟨hround, hstep, -, -⟩ := h
  obtain ⟨-, hid⟩ := WordRace.mem_of_round? hround
  cases hstep with
  | opened => simp [RaceReply.outputs, RaceReply.settled, RaceReply.settledRound]
  | won =>
    simp [RaceReply.outputs, RaceReply.settled, RaceReply.settledRound, RaceOp.claimant,
      RaceOp.roundId, Output.settles,
      WordRace.won, List.countP_cons]
  | expired =>
    simp [RaceReply.outputs, RaceReply.settled, RaceReply.settledRound, RaceOp.roundId,
      Output.settles,
      WordRace.expired, List.countP_cons]

/-- A piece that leaves the stored race alone shows no change of it. -/
theorem countP_eq_zero_of_quiet {p : Output → Bool} {emitted : List Output}
    (hp : ∀ o, p o → o.changesRace) (h : ∀ o ∈ emitted, o.changesRace = false) :
    emitted.countP p = 0 := by
  refine List.countP_eq_zero.mpr fun o ho hpo => ?_
  have hchanges := hp o hpo
  simp [h o ho] at hchanges

theorem Output.changesRace_of_settles {o : Output} (h : o.settles roundId) : o.changesRace := by
  cases o <;> simp_all [Output.settles, Output.changesRace]

/-- A piece that settles a round found it pending, and only a piece that saves a race makes a round
pending. -/
theorem settles_resume (env : Env) (t : Task) (roundId : JsString)
    (hconsistent : s.Consistent sv.rt) :
    (t.resume sv env s).emitted.countP (Output.settles roundId) +
        pending roundId (t.resume sv env s).shared.race ≤
      pending roundId s.race +
        (t.resume sv env s).emitted.countP (Output.saves (battleOf roundId)) := by
  rcases resume_raceMoved sv env s t with ⟨hkept, hquiet⟩ |
    ⟨op, reply, race, after, hslot, hafter, hchange, hemitted⟩ |
    ⟨room, race, -, hplan, hsaved, hemitted⟩ | ⟨-, hnone, hemitted⟩
  · rw [hkept, countP_eq_zero_of_quiet (fun _ => Output.changesRace_of_settles) hquiet]
    omega
  · have hunsettled : Unsettled roundId (some after) ↔
        Unsettled roundId (some race) ∧ ¬(op.roundId = roundId ∧ reply.settled) :=
      hchange.unsettled_iff (hconsistent race hslot)
    rw [hemitted, hchange.countP_outputs, hafter, hslot, pending, pending]
    by_cases hsettles : op.roundId = roundId ∧ reply.settled
    · have hbefore : Unsettled roundId (some race) :=
        hsettles.1 ▸ hchange.unsettled_of_settled
      have hafter : ¬Unsettled roundId (some after) := fun h => (hunsettled.mp h).2 hsettles
      rw [if_pos hsettles, if_neg hafter, if_pos hbefore]
      omega
    · have hiff : Unsettled roundId (some after) ↔ Unsettled roundId (some race) := by
        rw [hunsettled, and_iff_left hsettles]
      rw [if_neg hsettles, if_congr hiff rfl rfl]
      omega
  · rw [hemitted, hsaved, pending]
    have hquiet : List.countP (Output.settles roundId) [.raceSaved race] = 0 := rfl
    rw [hquiet]
    by_cases hround : Unsettled roundId (some race)
    · obtain ⟨_, ⟨⟩, round, hmem, rfl, -⟩ := hround
      obtain ⟨number, hid⟩ :=
        (WordRaceService.plan_eq_ok hplan).1.consistent.ids round hmem
      have hsaves : List.countP (Output.saves (battleOf round.id)) [.raceSaved race] = 1 := by
        rw [hid, WordRaceService.battleOf_roundId]
        simp [Output.saves]
      rw [hsaves]
      split_ifs <;> omega
    · rw [if_neg hround]
      omega
  · rw [hemitted, hnone]
    exact Nat.zero_le _

/-- One piece keeps the count of settled rounds. -/
theorem settledWithin_resume (hconsistent : s.Consistent sv.rt)
    (h : SettledWithin stored roundId s log) :
    SettledWithin stored roundId (t.resume sv env s).shared
      (log ++ (t.resume sv env s).emitted) := by
  have hpiece := settles_resume env t roundId hconsistent
  unfold SettledWithin at h ⊢
  rw [List.countP_append, List.countP_append]
  omega

/-! ### Announcements -/

/-- What a piece does about the end of a round. -/
inductive EndMoved (sv : Service) (s : Shared) (t : Task) (r : Resumed Shared Task Output) : Prop
  | quiet (hemitted : ∀ o ∈ r.emitted, o.tellsEnd = false)
      (htasks : ∀ u ∈ r.tasks, u.ending = none)
  | passed (u : Task) (hemitted : r.emitted = []) (htasks : r.tasks = [u])
      (hending : u.ending = t.ending)
  | settled (u : Task) (op : RaceOp) (reply : RaceReply) (race after : WordRace)
      (round : WordRound) (hslot : s.race = some race) (hrace : r.shared.race = some after)
      (h : RaceChange sv.rt race op reply after) (hround : reply.settledRound = some round)
      (hemitted : r.emitted = reply.outputs race.battleId op)
      (htasks : r.tasks = [u]) (hending : u.ending = some round)
  | announced (race : WordRace) (round : WordRound) (bonusPoints : ℚ) (rest : List Output)
      (hending : t.ending = some round)
      (hemitted : r.emitted =
        .roundEnded (roundEndedPayload sv.rt race round bonusPoints) :: rest)
      (hrest : ∀ o ∈ rest, o.tellsEnd = false) (htasks : r.tasks = [])

theorem resume_endMoved (sv : Service) (env : Env) (s : Shared) (t : Task) :
    EndMoved sv s t (t.resume sv env s) := by
  cases t with
  | call op =>
    refine .quiet (by simp [Task.resume, Task.resumeCall]) fun u hu => ?_
    cases follows_of_mem hu <;> rfl
  | announceLeave left =>
    simp only [Task.resume]
    split_ifs
    · exact .quiet (by simp [WordRaceScheduler.stop, Output.tellsEnd])
        (by simp [WordRaceScheduler.stop])
    · exact .quiet (by simp) (by simp)
  | planRace room =>
    simp only [Task.resume, Task.resumePlan]
    split
    next => exact .quiet (by simp) (by simp)
    next =>
      split
      next => exact .quiet (by simp) (by simp)
      next => exact .quiet (by simp [Output.tellsEnd]) (by simp [Task.ending])
  | openRace roundId room read =>
    show EndMoved sv s _ (Task.resumeOpen s roundId room read)
    have hspec := resumeOpen_spec sv s roundId room read
    generalize Task.resumeOpen s roundId room read = r at hspec
    cases hspec <;> exact .quiet (by simp) (by simp [Task.ending])
  | expire roundId =>
    show EndMoved sv s _ (Task.resumeExpire env s roundId)
    have hspec := resumeExpire_spec sv env s roundId
    generalize Task.resumeExpire env s roundId = r at hspec
    cases hspec with
    | refused => exact .passed _ rfl rfl rfl
    | expired race after round hslot hchange =>
      exact .settled _ _ _ race after round hslot rfl hchange rfl rfl rfl rfl
  | expireRace roundId expired => exact .passed _ rfl rfl rfl
  | announceExpired roundId expired race =>
    simp only [Task.resume, Task.resumeExpired]
    split
    next round race => exact .announced race round 0 [] rfl rfl (by simp) rfl
    next => split_ifs <;> exact .quiet (by simp) (by simp)
  | submitWord playerId text roundId =>
    simp only [Task.resume]
    split
    next => exact .quiet (by simp) (by simp [Task.ending])
    next => exact .quiet (by simp [Output.tellsEnd]) (by simp)
  | submitRace playerId text roundId read =>
    show EndMoved sv s _ (Task.resumeSubmit sv env s playerId text roundId read)
    have hspec := resumeSubmit_spec sv env s playerId text roundId read
    generalize Task.resumeSubmit sv env s playerId text roundId read = r at hspec
    cases hspec with
    | answered => exact .quiet (by simp [Output.tellsEnd]) (by simp)
    | refused => exact .quiet (by simp) (by simp [Task.ending])
    | claimed read now race after round hslot hchange =>
      exact .settled _ _ _ race after round hslot rfl hchange rfl rfl rfl rfl
  | submitClaim playerId race now claim =>
    simp only [Task.resume, Task.resumeClaim]
    split
    next round => exact .passed _ rfl rfl rfl
    next => exact .quiet (by simp [Output.tellsEnd]) (by simp)
    next => exact .quiet (by simp [Output.tellsEnd]) (by simp)
  | awardWordBonus playerId race round => exact .passed _ rfl rfl rfl
  | announceWon playerId race round bonus =>
    exact .announced race round _ _ rfl rfl (by simp [Output.tellsEnd]) rfl
  | _ =>
    exact .quiet (by simp [Task.resume, WordRaceScheduler.stop, Output.tellsEnd])
      (by simp [Task.resume, WordRaceScheduler.stop, Task.ending])

/-- A call that settles a round stores it, with the player it was claimed for. -/
theorem RaceChange.settledRound_spec (h : RaceChange rt race op reply after)
    (hconsistent : race.Consistent rt) (hround : reply.settledRound = some round)
    (battleId : JsString) : round ∈ after.rounds ∧ round.status.isFinal ∧
      ((∃ playerId, round.status = .won ∧ round.winnerId = some playerId ∧
          reply.outputs battleId op = [.roundClaimed battleId round.id playerId]) ∨
        (round.status = .expired ∧
          reply.outputs battleId op = [.roundExpired battleId round.id])) := by
  obtain ⟨hmoved, hstep, wins, hwins⟩ := h
  have hmem := (WordRace.mem_rounds_withRound hconsistent.nodup
    (WordRace.mem_of_round? hmoved).1 hstep.id_eq).mpr (Or.inl rfl)
  cases hstep with
  | opened => simp [RaceReply.settledRound] at hround
  | @won playerId =>
    obtain rfl := Option.some.inj hround
    exact ⟨hmem, rfl, Or.inl ⟨playerId, rfl, rfl, rfl⟩⟩
  | expired =>
    obtain rfl := Option.some.inj hround
    exact ⟨hmem, rfl, Or.inr ⟨rfl, rfl⟩⟩

theorem countP_ends_eq_zero {emitted : List Output} (h : ∀ o ∈ emitted, o.tellsEnd = false) :
    emitted.countP (Output.ends roundId) = 0 := by
  refine List.countP_eq_zero.mpr fun o ho hends => ?_
  have hquiet := h o ho
  cases o <;> simp_all [Output.ends, Output.tellsEnd]

/-- A piece announces the end of a round, or leaves it to a task, only when it was left to this one
or is settled by it. -/
theorem resume_announces (env : Env) (t : Task) (roundId : JsString)
    (hconsistent : s.Consistent sv.rt) :
    (t.resume sv env s).emitted.countP (Output.ends roundId) +
        ((t.resume sv env s).tasks.map (Task.owes roundId)).sum ≤
      t.owes roundId + (t.resume sv env s).emitted.countP (Output.settles roundId) := by
  rcases resume_endMoved sv env s t with ⟨hemitted, htasks⟩ | ⟨u, hemitted, htasks, hending⟩ |
    ⟨u, op, reply, race, after, round, hslot, -, hchange, hround, hemitted, htasks, hending⟩ |
    ⟨race, round, bonusPoints, rest, hending, hemitted, hrest, htasks⟩
  · have hsum : ((t.resume sv env s).tasks.map (Task.owes roundId)).sum = 0 := by
      refine List.sum_eq_zero fun n hn => ?_
      obtain ⟨u, hu, rfl⟩ := List.mem_map.mp hn
      simp [Task.owes, htasks u hu]
    rw [countP_ends_eq_zero hemitted, hsum]
    omega
  · rw [hemitted, htasks]
    simp [Task.owes, hending]
  · rw [hemitted, htasks]
    obtain ⟨-, -, ⟨playerId, -, -, houtputs⟩ | ⟨-, houtputs⟩⟩ :=
      hchange.settledRound_spec (hconsistent race hslot) hround race.battleId <;>
    · rw [houtputs]
      simp [Task.owes, hending, Output.ends, Output.settles, List.countP_cons]
  · rw [hemitted, htasks, List.countP_cons, countP_ends_eq_zero hrest]
    have hid : (roundEndedPayload sv.rt race round bonusPoints).roundId = round.id := rfl
    simp only [Output.ends, hid, Task.owes, hending, Option.map_some, Option.some.injEq,
      decide_eq_true_eq, List.map_nil, List.sum_nil]
    omega

/-! ### The announced winner -/

/-- A winner stays, unless a new race is saved. -/
theorem Won.resume (h : Won roundId playerId s log) (hconsistent : s.Consistent sv.rt)
    (ht : t.startsBattle = false) :
    Won roundId playerId (t.resume sv env s).shared (log ++ (t.resume sv env s).emitted) := by
  obtain ⟨⟨battleId, hclaimed⟩, hstored⟩ := h
  refine ⟨⟨battleId, List.mem_append_left _ hclaimed⟩, fun race hrace => ?_⟩
  rcases resume_raceMoved sv env s t with ⟨hkept, -⟩ |
    ⟨op, reply, before, after, hslot, hafter, hchange, -⟩ | ⟨room, saved, rfl, -⟩ | ⟨-, hnone, -⟩
  · exact hstored race (hkept ▸ hrace)
  · obtain rfl := Option.some.inj (hafter.symm.trans hrace)
    obtain ⟨round, hmem, hid, hwon, hwinner⟩ := hstored before hslot
    refine ⟨round, hchange.mem_of_isFinal (hconsistent before hslot) hmem ?_, hid, hwon, hwinner⟩
    rw [hwon]
    rfl
  · simp [Task.startsBattle] at ht
  · simp [hnone] at hrace

/-- The winner that a round was won by, if it was won. -/
def WordRound.WinnerIs (round : WordRound) (s : Shared) (log : List Output) : Prop :=
  round.status = .won → ∃ playerId, round.winnerId = some playerId ∧ Won round.id playerId s log

/-- The winner that a message announces, if it announces one. -/
def WordRoundEndedPayload.WinnerIs (payload : WordRoundEndedPayload) (s : Shared)
    (log : List Output) : Prop :=
  payload.reason = .won → ∃ playerId, payload.winnerId = some playerId ∧
    Won payload.roundId playerId s log

/-- What holds while no new race is saved: the stored race is consistent and the announced winners
are the stored ones. -/
structure WinnersStored (rt : Runtime) (s : Shared) (log : List Output) : Prop where
  consistent : s.Consistent rt
  unsaved : ∀ race, .raceSaved race ∉ log
  announced : ∀ payload, .roundEnded payload ∈ log → payload.WinnerIs s log

/-- A suspended task saves no race, and the winner it is about to announce is the stored one. -/
def Task.WinnerStored (t : Task) (s : Shared) (log : List Output) : Prop :=
  t.startsBattle = false ∧ ∀ round ∈ t.ending, round.WinnerIs s log

/-- The winner that is announced for a round is the winner of the round. -/
theorem WordRound.WinnerIs.payload (h : round.WinnerIs s log) (rt : Runtime) (race : WordRace)
    (bonusPoints : ℚ) : (roundEndedPayload rt race round bonusPoints).WinnerIs s log := by
  intro hreason
  have hwon : round.status = .won := by
    by_contra hnot
    simp [roundEndedPayload, hnot] at hreason
  obtain ⟨playerId, hwinner, hstored⟩ := h hwon
  refine ⟨playerId, ?_, hstored⟩
  simp [roundEndedPayload, hwon, hwinner]

/-- Only the handler of a battle that starts saves a race. -/
theorem not_saves_resume (ht : t.startsBattle = false) :
    .raceSaved race ∉ (t.resume sv env s).emitted := by
  intro hmem
  rcases resume_raceMoved sv env s t with ⟨-, hquiet⟩ |
    ⟨op, reply, before, after, -, -, -, hemitted⟩ |
    ⟨room, saved, rfl, -⟩ | ⟨-, -, hemitted⟩
  · simpa [Output.changesRace] using hquiet _ hmem
  · rw [hemitted] at hmem
    unfold RaceReply.outputs at hmem
    split at hmem <;> simp at hmem
  · simp [Task.startsBattle] at ht
  · simp [hemitted] at hmem

theorem winnersStored_resume (env : Env) (h : WinnersStored sv.rt s log)
    (ht : t.WinnerStored s log) :
    WinnersStored sv.rt (t.resume sv env s).shared (log ++ (t.resume sv env s).emitted) ∧
      (∀ u : Task, u.WinnerStored s log →
        u.WinnerStored (t.resume sv env s).shared (log ++ (t.resume sv env s).emitted)) ∧
      ∀ u ∈ (t.resume sv env s).tasks,
        u.WinnerStored (t.resume sv env s).shared (log ++ (t.resume sv env s).emitted) := by
  obtain ⟨hconsistent, hunsaved, hannounced⟩ := h
  obtain ⟨hstarts, hending⟩ := ht
  have hkeeps : ∀ {round : WordRound}, round.WinnerIs s log → round.WinnerIs
      (t.resume sv env s).shared (log ++ (t.resume sv env s).emitted) := by
    intro round hwinner hwon
    obtain ⟨playerId, hid, hstored⟩ := hwinner hwon
    exact ⟨playerId, hid, hstored.resume hconsistent hstarts⟩
  have hold : ∀ {payload : WordRoundEndedPayload}, .roundEnded payload ∈ log → payload.WinnerIs
      (t.resume sv env s).shared (log ++ (t.resume sv env s).emitted) := by
    intro payload hmem hreason
    obtain ⟨playerId, hid, hstored⟩ := hannounced payload hmem hreason
    exact ⟨playerId, hid, hstored.resume hconsistent hstarts⟩
  have hnotask : ∀ u ∈ (t.resume sv env s).tasks, u.startsBattle = false :=
    startsBattle_resume hstarts
  refine ⟨⟨consistent_resume hconsistent, fun race hmem => ?_, fun payload hmem => ?_⟩,
    fun u hu => ⟨hu.1, fun round hround => hkeeps (hu.2 round hround)⟩,
    fun u hu => ⟨hnotask u hu, fun round hround => ?_⟩⟩
  · rcases List.mem_append.mp hmem with hmem | hmem
    · exact hunsaved race hmem
    · exact not_saves_resume hstarts hmem
  · rcases List.mem_append.mp hmem with hmem | hmem
    · exact hold hmem
    · rcases resume_endMoved sv env s t with ⟨hemitted, -⟩ | ⟨v, hemitted, -⟩ |
        ⟨v, op, reply, race, after, round, hslot, -, hchange, hround, hemitted, -⟩ |
        ⟨race, round, bonusPoints, rest, hround, hemitted, hrest, -⟩
      · simpa [Output.tellsEnd] using hemitted _ hmem
      · simp [hemitted] at hmem
      · obtain ⟨-, -, ⟨playerId, -, -, houtputs⟩ | ⟨-, houtputs⟩⟩ :=
          hchange.settledRound_spec (hconsistent race hslot) hround race.battleId <;>
        simp [hemitted, houtputs] at hmem
      · rw [hemitted] at hmem
        rcases List.mem_cons.mp hmem with heq | hmem
        · obtain rfl := Output.roundEnded.inj heq
          exact (hkeeps (hending round hround)).payload sv.rt race bonusPoints
        · simpa [Output.tellsEnd] using hrest _ hmem
  · rcases resume_endMoved sv env s t with ⟨-, htasks⟩ | ⟨v, -, htasks, hpassed⟩ |
      ⟨v, op, reply, race, after, settled, hslot, hafter, hchange, hsettled, hemitted, htasks,
        hnew⟩ | ⟨race, announced, bonusPoints, rest, -, -, -, htasks⟩
    · simp [htasks u hu] at hround
    · rw [htasks, List.mem_singleton] at hu
      subst hu
      exact hkeeps (hending round (hpassed ▸ hround))
    · rw [htasks, List.mem_singleton] at hu
      subst hu
      obtain rfl : settled = round := Option.some.inj (hnew.symm.trans hround)
      obtain ⟨hmem, -, ⟨playerId, hwon, hwinner, houtputs⟩ | ⟨hexpired, -⟩⟩ :=
        hchange.settledRound_spec (hconsistent race hslot) hsettled race.battleId
      · refine fun _ => ⟨playerId, hwinner, ⟨race.battleId, ?_⟩, fun r hr => ?_⟩
        · rw [hemitted, houtputs]
          exact List.mem_append_right _ (List.mem_singleton_self _)
        · obtain rfl := Option.some.inj (hafter.symm.trans hr)
          exact ⟨settled, hmem, rfl, hwon, hwinner⟩
      · intro hwon
        simp [hexpired] at hwon
    · simp [htasks] at hu

/-! ### Whole runs -/

section Runs

variable {w w' : World Shared Task Output} {turn : Turn Env Task} {emitted : List Output}

/-- No piece is left to announce when a task starts. -/
theorem Task.ending_of_isFirst (h : t.isFirst) : t.ending = none := by
  cases t <;> simp_all [Task.isFirst, Task.ending]

/-- The stored race is consistent, the announcements made and due are at most the settled rounds,
and these at most the stored races. -/
structure Counted (rt : Runtime) (stored : ℕ) (roundId : JsString)
    (w : World Shared Task Output) : Prop where
  consistent : w.shared.Consistent rt
  settled : SettledWithin stored roundId w.shared w.log
  announced : w.log.countP (Output.ends roundId) + (w.tasks.map (Task.owes roundId)).sum ≤
    w.log.countP (Output.settles roundId)

theorem Turned.counted (h : Turned (fun env t s => Task.resume sv env s t) w turn w' emitted)
    (hspawn : ∀ t, turn = .spawn t → t.isFirst) (hw : Counted sv.rt stored roundId w) :
    Counted sv.rt stored roundId w' := by
  obtain ⟨hconsistent, hsettled, hannounced⟩ := hw
  refine ⟨?_, ?_, ?_⟩
  · cases h with
    | idle | spawned => exact hconsistent
    | resumed => exact consistent_resume hconsistent
  · cases h with
    | idle | spawned => exact hsettled
    | resumed => exact settledWithin_resume hconsistent hsettled
  · refine h.balanced (fun _ log => log.countP (Output.ends roundId))
      (fun _ log => log.countP (Output.settles roundId)) (Task.owes roundId) hannounced
      (fun t ht => ?_) fun index env t _ _ => ?_
    · simp [Task.owes, Task.ending_of_isFirst (hspawn t ht)]
    · have hpiece := resume_announces env t roundId hconsistent
      rw [List.countP_append, List.countP_append]
      omega

/-- The announced winners stay the stored ones. -/
theorem Turned.winnersStored
    (h : Turned (fun env t s => Task.resume sv env s t) w turn w' emitted)
    (hspawn : ∀ t, turn = .spawn t → t.isFirst ∧ t.startsBattle = false)
    (hw : w.Holds (WinnersStored sv.rt) Task.WinnerStored) :
    w'.Holds (WinnersStored sv.rt) Task.WinnerStored := by
  refine h.holds hw (fun t ht => ?_) fun index env t rest _ _ _ ht => ?_
  · obtain ⟨hfirst, hstarts⟩ := hspawn t ht
    exact ⟨hstarts, by simp [Task.ending_of_isFirst hfirst]⟩
  · obtain ⟨hshared, hothers, hnew⟩ := winnersStored_resume env hw.shared ht
    exact ⟨hshared, fun u _ => hothers u, hnew⟩

end Runs

/-- The store moves a planned race one round at a time, settles each round once and counts the
rounds won; handlers and timers of that race, in any interleaving, announce the end of a round at
most once, with the stored winner. -/
theorem one_winner (sv : Service) (planned : Room) (random : ℕ → RandomIndex) (race : WordRace)
    (hplan : WordRaceService.plan .double sv.rt planned sv.options random = .ok race) :
    (∀ ops : List RaceOp,
      (∀ e ∈ (raceMachine sv.rt).trace (some race) ops,
        RaceAnswered sv.rt e.before e.input e.after e.output) ∧
      (∀ pre post, ops = pre ++ post → ∀ r ∈ (raceMachine sv.rt).run (some race) pre,
        ∀ round ∈ r.rounds, round.status.isFinal →
          ∀ r' ∈ (raceMachine sv.rt).run (some race) ops, round ∈ r'.rounds) ∧
      (∀ roundId, ((raceMachine sv.rt).trace (some race) ops).countP
        (RaceEvent.settles roundId) ≤ 1) ∧
      ∃ r, (raceMachine sv.rt).run (some race) ops = some r ∧ race.SameRace r ∧
        r.Consistent sv.rt) ∧
    ∀ (room : Option Room) (timers : Option (List RoundTimer)) (turns : List (Turn Env Task)),
      (∀ turn ∈ turns, ∀ t ∈ turn.spawned?, t.isFirst ∧ t.startsBattle = false) →
      ∀ w, w = (service sv).run ⟨⟨room, some race, timers⟩, [], []⟩ turns →
        (∀ roundId, w.log.countP (Output.ends roundId) ≤ 1) ∧
        ∀ payload, .roundEnded payload ∈ w.log → payload.WinnerIs w.shared w.log := by
  have hconsistent : race.Consistent sv.rt := (WordRaceService.plan_eq_ok hplan).1.consistent
  have hslot : ∀ r ∈ some race, r.Consistent sv.rt := by
    rintro r ⟨⟩
    exact hconsistent
  refine ⟨fun ops => ⟨fun e he => answered_of_mem_trace he, ?_, fun roundId =>
    countP_settles_le_one ops roundId hslot, ?_⟩, ?_⟩
  · rintro pre post rfl r hr round hround hfinal
    rw [Machine.run_append]
    refine mem_rounds_run_of_isFinal post (consistent_run pre hslot) hfinal fun r' hr' => ?_
    exact Option.some.inj (hr.symm.trans hr') ▸ hround
  · obtain ⟨r, hr, hsame⟩ := sameRace_run sv.rt race ops
    exact ⟨r, hr, hsame, consistent_run ops hslot r hr⟩
  · rintro room timers turns hspawn w rfl
    set start : World Shared Task Output := ⟨⟨room, some race, timers⟩, [], []⟩ with hstart
    have hspawned : ∀ e ∈ (service sv).trace start turns, ∀ t, e.input = .spawn t →
        t.isFirst ∧ t.startsBattle = false := fun e he t ht =>
      hspawn _ (Machine.input_mem_of_mem_trace he) t (ht ▸ rfl)
    have hwinners : ((service sv).run start turns).Holds (WinnersStored sv.rt)
        Task.WinnerStored := by
      refine Machine.run_invariant (fun e he hw =>
        (turned_of_mem_trace he).winnersStored (hspawned e he) hw) ?_
      exact ⟨⟨hslot, by simp [hstart], by simp [hstart]⟩, by simp [hstart]⟩
    refine ⟨fun roundId => ?_, hwinners.shared.announced⟩
    -- The announcements are at most the settled rounds, and these at most the stored races.
    obtain ⟨-, hsettled, hannounced⟩ : Counted sv.rt 1 roundId ((service sv).run start turns) := by
      refine Machine.run_invariant (fun e he hw => (turned_of_mem_trace he).counted
        (fun t ht => (hspawned e he t ht).1) hw) ⟨hslot, ?_, Nat.le_refl 0⟩
      unfold SettledWithin pending
      split_ifs <;> simp [hstart]
    have hunsaved : ((service sv).run start turns).log.countP
        (Output.saves (battleOf roundId)) = 0 := by
      refine List.countP_eq_zero.mpr fun o ho hsaves => ?_
      cases o with
      | raceSaved race => exact hwinners.shared.unsaved race ho
      | _ => simp [Output.saves] at hsaves
    unfold SettledWithin at hsettled
    omega

/-- Round `b1:1` opens. -/
def sampleOpening : List (Turn Env Task) := .spawn (.open (js "b1:1")) :: samplePieces 0 4

/-- A dancer sends the word of round `b1:1`. -/
def sampleWord (playerId : JsString) : Turn Env Task :=
  .spawn (.submitWord playerId (.string (js "ritmo")) (.string (js "b1:1")))

/-- Both dancers send the word of a round at once, and its timer fires late. -/
def sampleRound : List (Turn Env Task) :=
  sampleOpening ++ [sampleWord (js "ana"), sampleWord (js "bob")] ++ samplePieces 0 4 ++
    [.spawn (.expire (js "b1:1"))] ++ samplePieces 0 6

theorem one_winner_sampleRound :
    ∃ room ∈ (roomMachine .ascii (js "ROOM22")).run none sampleBattle, ∃ race,
      WordRaceService.plan .double .ascii room {} (fun _ => .first) = .ok race ∧
      ((service ⟨.ascii, js "ROOM22", {}⟩).run ⟨⟨some room, some race, none⟩, [], []⟩
        sampleRound).log.countP (Output.ends (js "b1:1")) ≤ 1 := by
  have hsample : ∃ room ∈ (roomMachine .ascii (js "ROOM22")).run none sampleBattle,
      (WordRaceService.plan .double .ascii room {} fun _ => .first).isOk := by decide +kernel
  obtain ⟨room, hroom, hplan⟩ := hsample
  obtain ⟨race, hplan⟩ := exists_ok_of_isOk hplan
  refine ⟨room, hroom, race, hplan, ?_⟩
  exact ((one_winner ⟨.ascii, js "ROOM22", {}⟩ room (fun _ => .first) race hplan).2 (some room) none
    sampleRound (by decide +kernel) _ rfl).1 (js "b1:1")

end DanceSync
