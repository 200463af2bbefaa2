import DanceSync.Handlers.RoundEnds
import DanceSync.Lifecycle.WordsWon

/-!
# The battle in which a word win counts

A claim is stored with the race, and counted later by `AwardWordBonus`, which names the room and
the dancer but not the battle. When a whole rematch comes in between, the win counts in the next
battle. A race that is saved a second time has all its rounds to be won again. As long as each win
is counted while its own battle is the one that runs, if any runs, and no race of a battle is saved
twice, a battle counts no more rounds for a dancer than they claimed in its race.

## Main definitions

* `claimedRounds`: the rounds of the races of a battle that a dancer claimed.
* `Task.CountsInOwnBattle`: the win about to be counted was claimed in the running battle.
* `Task.SavesOnce`: the race about to be saved is the first one of its battle.

## Main results

* `resume_unpaid`: one piece counts only a claim that was made.
* `late_award_counts_in_next_battle`: a win that counts in the next battle.
* `wins_count_in_own_battle`.
-/

namespace DanceSync

open WordRaceService (battleOf)

/-- The rounds of the races of a battle that a dancer claimed. -/
def claimedRounds (battleId dancerId : JsString) (log : List Output) : List JsString :=
  log.filterMap fun
    | .roundClaimed id roundId playerId =>
      if id = battleId ∧ playerId = dancerId then some roundId else none
    | _ => none

/-- The claim that a task is on the way to count: who claimed which round. -/
def Task.unpaid : Task → Option (JsString × JsString)
  | .submitClaim playerId _ _ (.claimed round) => some (playerId, round.id)
  | .awardWordBonus playerId _ round => some (playerId, round.id)
  | _ => none

/-- One for a task that is on the way to count a claim of the dancer in the race of the battle. -/
def Task.unpaidFor (battleId dancerId : JsString) (t : Task) : ℕ :=
  if t.unpaid.map (fun claim => (battleOf claim.2, claim.1)) = some (battleId, dancerId) then 1
  else 0

/-- The round that the next piece of a task counts. -/
def Task.counting : Task → Option WordRound
  | .awardWordBonus _ _ round => some round
  | _ => none

/-- The win that the next piece of the task counts, if any, was claimed in the battle that runs, if
any runs. -/
def Task.CountsInOwnBattle (t : Task) (slot : Option Room) : Prop :=
  ∀ round ∈ t.counting, ∀ room ∈ slot, room.status = .battling →
    ∀ battle ∈ room.battle, battleOf round.id = battle.id

instance (t : Task) (slot : Option Room) : Decidable (t.CountsInOwnBattle slot) :=
  inferInstanceAs (Decidable (∀ round ∈ t.counting, ∀ room ∈ slot, room.status = .battling →
    ∀ battle ∈ room.battle, battleOf round.id = battle.id))

/-- The battle whose race the next piece of the task saves, if a plan completes. -/
def Task.saving : Task → Option JsString
  | .planRace (some room) => room.battle.map (·.id)
  | _ => none

/-- The next piece of the task saves no race of a battle of which one was saved before. -/
def Task.SavesOnce (t : Task) (log : List Output) : Prop :=
  ∀ battleId ∈ t.saving, ∀ o ∈ log, o.saves battleId = false

instance (t : Task) (log : List Output) : Decidable (t.SavesOnce log) :=
  inferInstanceAs (Decidable (∀ battleId ∈ t.saving, ∀ o ∈ log, o.saves battleId = false))

variable {sv : Service} {env : Env} {s : Shared} {t u : Task} {log emitted : List Output}
  {battleId dancerId roundId : JsString} {race after : WordRace} {round : WordRound}

/-! ### One piece -/

theorem claimedRounds_append (log emitted : List Output) :
    claimedRounds battleId dancerId (log ++ emitted) =
      claimedRounds battleId dancerId log ++ claimedRounds battleId dancerId emitted :=
  List.filterMap_append

theorem sum_unpaidFor_eq_zero {tasks : List Task} (h : ∀ u ∈ tasks, u.unpaid = none) :
    (tasks.map (Task.unpaidFor battleId dancerId)).sum = 0 := by
  refine List.sum_eq_zero fun n hn => ?_
  obtain ⟨u, hu, rfl⟩ := List.mem_map.mp hn
  simp [Task.unpaidFor, h u hu]

/-- The claim of a round of the stored race is one in the battle of the race. -/
theorem RaceChange.battleOf_claimed {op : RaceOp} {reply : RaceReply} {rt : Runtime}
    (h : RaceChange rt race op reply after) (hconsistent : race.Consistent rt)
    (hround : reply.settledRound = some round) : battleOf round.id = race.battleId := by
  obtain ⟨hmem, -, -⟩ := h.settledRound_spec hconsistent hround race.battleId
  obtain ⟨number, hid⟩ := (h.consistent hconsistent).ids round hmem
  rw [hid, WordRaceService.battleOf_roundId, h.sameRace.battleId]

/-- A piece saves at most one race, of the battle whose room it has read. -/
theorem countP_saves_resume (sv : Service) (env : Env) (s : Shared) (t : Task)
    (battleId : JsString) : (t.resume sv env s).emitted.countP (Output.saves battleId) ≤
      if t.saving = some battleId then 1 else 0 := by
  have hquiet {emitted : List Output} (h : ∀ o ∈ emitted, o.saves battleId = false) :
      emitted.countP (Output.saves battleId) ≤ if t.saving = some battleId then 1 else 0 := by
    rw [List.countP_eq_zero.mpr fun o ho => by simp [h o ho]]
    exact Nat.zero_le _
  rcases resume_raceMoved sv env s t with ⟨-, hsilent⟩ |
    ⟨op, reply, before, after, -, -, -, hemitted⟩ |
    ⟨room, race, rfl, hplan, -, hemitted⟩ | ⟨-, -, hemitted⟩
  · refine hquiet fun o ho => ?_
    have hrace := hsilent o ho
    cases o <;> first | rfl | simp [Output.changesRace] at hrace
  · rw [hemitted]
    refine hquiet fun o ho => ?_
    unfold RaceReply.outputs at ho
    split at ho
    next =>
      obtain ⟨playerId, -, rfl⟩ := List.mem_map.mp ho
      rfl
    next => exact List.mem_singleton.mp ho ▸ rfl
    next => simp at ho
  · obtain ⟨-, battle, -, hbattle, hid, -⟩ := WordRaceService.plan_eq_ok hplan
    rw [hemitted]
    by_cases hsame : race.battleId = battleId
    · rw [if_pos (by rw [Task.saving, hbattle, Option.map_some, ← hid, hsame])]
      exact List.countP_le_length
    · refine hquiet fun o ho => ?_
      rw [List.mem_singleton.mp ho]
      exact decide_eq_false hsame
  · rw [hemitted]
    exact hquiet fun o ho => List.mem_singleton.mp ho ▸ rfl

/-- Only a claim leaves a round to be counted. -/
theorem unpaid_resume (ht : t.unpaid = none)
    (hsubmit : ∀ playerId text roundId read, t ≠ .submitRace playerId text roundId read) :
    ∀ u ∈ (t.resume sv env s).tasks, u.unpaid = none := by
  intro u hu
  cases follows_of_mem hu with
  | claimed => exact (hsubmit _ _ _ _ rfl).elim
  | won => simp [Task.unpaid] at ht
  | _ => rfl

/-- A piece counts a round, or leaves it to be counted, only when it was left to this piece to
count or is claimed by it. -/
theorem resume_unpaid (env : Env) (battleId dancerId : JsString)
    (hconsistent : s.Consistent sv.rt)
    (hcall : ∀ playerId, t ≠ .call (.awardWordBonus playerId)) (hown : t.CountsInOwnBattle s.room) :
    roundsWon battleId dancerId (t.resume sv env s).shared.room +
        ((t.resume sv env s).tasks.map (Task.unpaidFor battleId dancerId)).sum ≤
      roundsWon battleId dancerId s.room + t.unpaidFor battleId dancerId +
        (claimedRounds battleId dancerId (t.resume sv env s).emitted).length := by
  have hroom := room_resume sv env s t
  cases t with
  | call op =>
    have hcount := (step_spec sv.rt sv.code s.room op).roundsWon_le battleId dancerId
    have hawardee : op.awardee ≠ some dancerId := by
      cases op with
      | awardWordBonus playerId => exact absurd rfl (hcall playerId)
      | _ => simp [RoomOp.awardee]
    rw [if_neg fun h => hawardee h.1] at hcount
    rw [sum_unpaidFor_eq_zero (unpaid_resume rfl (by simp)), hroom]
    simp only [Task.roomOp?]
    omega
  | awardWordBonus playerId race round =>
    have hcount := (step_spec sv.rt sv.code s.room (.awardWordBonus playerId)).roundsWon_le
      battleId dancerId
    rw [sum_unpaidFor_eq_zero (by simp [Task.resume, Task.resumeAward, Task.unpaid]), hroom]
    simp only [Task.roomOp?]
    split_ifs at hcount with hcounts
    · obtain ⟨hplayer, room, hslot, hstatus, battle, hbattle, rfl⟩ := hcounts
      obtain rfl : playerId = dancerId := Option.some.inj hplayer
      have hround := hown round rfl room hslot hstatus battle hbattle
      have hpaid : (Task.awardWordBonus playerId race round).unpaidFor battle.id playerId = 1 := by
        simp [Task.unpaidFor, Task.unpaid, hround]
      omega
    · omega
  | submitRace playerId text roundId read =>
    rw [hroom]
    show _ + ((Task.resumeSubmit sv env s playerId text roundId read).tasks.map _).sum ≤
      _ + (claimedRounds _ _ (Task.resumeSubmit sv env s playerId text roundId read).emitted).length
    have hspec := resumeSubmit_spec sv env s playerId text roundId read
    generalize Task.resumeSubmit sv env s playerId text roundId read = r at hspec
    cases hspec with
    | answered | refused => simp [Task.roomOp?, Task.unpaidFor, Task.unpaid]
    | claimed read now race after round hslot hchange =>
      have hround := hchange.battleOf_claimed (hconsistent race hslot) rfl
      by_cases hclaim : race.battleId = battleId ∧ playerId = dancerId <;>
        simp [Task.roomOp?, Task.unpaidFor, Task.unpaid, claimedRounds, hround, hclaim]
  | submitClaim playerId read now claim =>
    rw [hroom]
    cases claim with
    | claimed round =>
      simp [Task.resume, Task.resumeClaim, Task.roomOp?, Task.unpaidFor, Task.unpaid]
    | refused round =>
      rw [sum_unpaidFor_eq_zero (unpaid_resume rfl (by simp))]
      simp only [Task.roomOp?]
      omega
  | _ =>
    rw [hroom, sum_unpaidFor_eq_zero (unpaid_resume rfl (by simp))]
    simp only [Task.roomOp?]
    omega

/-! ### Whole runs -/

/-- What holds as long as every win counts in its own battle, and every race is saved once. -/
structure WinsCounted (rt : Runtime) (w : World Shared Task Output) : Prop where
  consistent : w.shared.Consistent rt
  calls : ∀ t ∈ w.tasks, ∀ playerId, t ≠ .call (.awardWordBonus playerId)
  tallied : ∀ room ∈ w.shared.room, ∀ battle ∈ room.battle, battle.Tallied
  counted : ∀ battleId dancerId, roundsWon battleId dancerId w.shared.room +
    (w.tasks.map (Task.unpaidFor battleId dancerId)).sum ≤
      (claimedRounds battleId dancerId w.log).length
  settled : ∀ roundId, SettledWithin 0 roundId w.shared w.log
  claimed : ∀ battleId roundId playerId, .roundClaimed battleId roundId playerId ∈ w.log →
    battleOf roundId = battleId
  saved : ∀ battleId, w.log.countP (Output.saves battleId) ≤ 1

section Runs

variable {w w' : World Shared Task Output} {turn : Turn Env Task}

/-- The rounds claimed by a piece are rounds of the stored race. -/
theorem battleOf_of_claimed_resume {playerId : JsString} (hconsistent : s.Consistent sv.rt)
    (h : .roundClaimed battleId roundId playerId ∈ (t.resume sv env s).emitted) :
    battleOf roundId = battleId := by
  rcases resume_endMoved sv env s t with ⟨hemitted, -⟩ | ⟨v, hemitted, -⟩ |
    ⟨v, op, reply, race, after, round, hslot, -, hchange, hround, hemitted, -⟩ |
    ⟨race, round, bonusPoints, rest, -, hemitted, hrest, -⟩
  · simpa [Output.tellsEnd] using hemitted _ h
  · simp [hemitted] at h
  · have hbattle := hchange.battleOf_claimed (hconsistent race hslot) hround
    obtain ⟨-, -, ⟨winnerId, -, -, houtputs⟩ | ⟨-, houtputs⟩⟩ :=
      hchange.settledRound_spec (hconsistent race hslot) hround race.battleId
    · rw [hemitted, houtputs] at h
      obtain ⟨rfl, rfl, -⟩ := Output.roundClaimed.inj (List.mem_singleton.mp h)
      exact hbattle
    · simp [hemitted, houtputs] at h
  · rw [hemitted] at h
    rcases List.mem_cons.mp h with heq | hmem
    · simp at heq
    · simpa [Output.tellsEnd] using hrest _ hmem

theorem Turned.winsCounted (h : Turned (fun env t s => Task.resume sv env s t) w turn w' emitted)
    (hspawn : ∀ t, turn = .spawn t → t.isFirst)
    (hown : ∀ t ∈ turn.task? w, t.CountsInOwnBattle w.shared.room)
    (honce : ∀ t ∈ turn.task? w, t.SavesOnce w.log) (hw : WinsCounted sv.rt w) :
    WinsCounted sv.rt w' := by
  have hcalls : ∀ t, turn = .spawn t → ∀ playerId, t ≠ .call (.awardWordBonus playerId) := by
    rintro t ht playerId rfl
    simpa [Task.isFirst] using hspawn _ ht
  obtain ⟨hconsistent, hcall, htallied, hcounted, hsettled, hclaimed, hsaved⟩ := hw
  have hbalanced : ∀ battleId dancerId, roundsWon battleId dancerId w'.shared.room +
      (w'.tasks.map (Task.unpaidFor battleId dancerId)).sum ≤
        (claimedRounds battleId dancerId w'.log).length := by
    intro battleId dancerId
    refine h.balanced (fun s _ => roundsWon battleId dancerId s.room)
      (fun _ log => (claimedRounds battleId dancerId log).length)
      (Task.unpaidFor battleId dancerId) (hcounted battleId dancerId) (fun t ht => ?_)
      fun index env t hturn ht => ?_
    · have hfirst := hspawn t ht
      cases t <;> simp_all [Task.isFirst, Task.unpaidFor, Task.unpaid]
    · have hpiece := resume_unpaid env battleId dancerId hconsistent
        (hcall t (List.mem_of_getElem? ht)) (hown t (hturn ▸ ht))
      rw [claimedRounds_append, List.length_append]
      omega
  cases h with
  | idle => exact ⟨hconsistent, hcall, htallied, hcounted, hsettled, hclaimed, hsaved⟩
  | spawned t =>
    refine ⟨hconsistent, fun u hu => ?_, htallied, hbalanced, hsettled, hclaimed, hsaved⟩
    rcases List.mem_append.mp hu with hu | hu
    · exact hcall u hu
    · exact List.mem_singleton.mp hu ▸ hcalls t rfl
  | @resumed index env t rest htask htasks =>
    refine ⟨consistent_resume hconsistent, fun u hu => ?_, ?_, hbalanced,
      fun roundId => settledWithin_resume hconsistent (hsettled roundId),
      fun battleId roundId playerId hmem => ?_, fun battleId => ?_⟩
    · rcases List.mem_append.mp hu with hu | hu
      · exact hcall u (htasks.mem_iff.mpr (List.mem_cons_of_mem _ hu))
      · cases follows_of_mem hu <;> simp
    · show ∀ room ∈ (t.resume sv env w.shared).shared.room, ∀ battle ∈ room.battle, battle.Tallied
      rw [room_resume]
      split
      next op hop => exact (step_spec sv.rt sv.code w.shared.room op).tallied htallied
      next => exact htallied
    · rcases List.mem_append.mp hmem with hmem | hmem
      · exact hclaimed battleId roundId playerId hmem
      · exact battleOf_of_claimed_resume hconsistent hmem
    · have hpiece := countP_saves_resume sv env w.shared t battleId
      rw [List.countP_append]
      split_ifs at hpiece with hsaving
      · have hfirst : w.log.countP (Output.saves battleId) = 0 :=
          List.countP_eq_zero.mpr fun o ho => by simp [honce t htask battleId hsaving o ho]
        omega
      · have hlog := hsaved battleId
        omega

end Runs

/-- The claims of a dancer in a battle are of different rounds. -/
theorem WinsCounted.nodup_claimedRounds {w : World Shared Task Output} {rt : Runtime}
    (h : WinsCounted rt w) : (claimedRounds battleId dancerId w.log).Nodup := by
  have hsaved := h.saved battleId
  refine List.nodup_iff_count_le_one.mpr fun roundId => ?_
  by_cases hmem : roundId ∈ claimedRounds battleId dancerId w.log
  · obtain ⟨o, ho, hround⟩ := List.mem_filterMap.mp hmem
    have hbattle : battleOf roundId = battleId := by
      cases o with
      | roundClaimed id r playerId =>
        obtain ⟨⟨rfl, -⟩, heq⟩ := Option.ite_none_right_eq_some.mp hround
        obtain rfl := Option.some.inj heq
        exact h.claimed _ _ _ ho
      | _ => simp at hround
    have hcount : (claimedRounds battleId dancerId w.log).count roundId ≤
        w.log.countP (Output.settles roundId) := by
      rw [claimedRounds, List.count_filterMap]
      refine List.countP_mono_left fun o _ ho => ?_
      cases o with
      | roundClaimed id r playerId =>
        obtain ⟨-, heq⟩ := Option.ite_none_right_eq_some.mp (eq_of_beq ho)
        simpa [Output.settles] using heq
      | _ => simp at ho
    have hsettled := h.settled roundId
    rw [SettledWithin, hbattle] at hsettled
    omega
  · rw [List.count_eq_zero_of_not_mem hmem]
    exact Nat.zero_le _

/-- In every run in which each win counts while its own battle is the one that runs, if any runs,
and no race of a battle is saved twice, a battle counts at most the rounds that the dancer claimed
in its race, each once. -/
theorem wins_count_in_own_battle (sv : Service) (turns : List (Turn Env Task))
    (hspawn : ∀ turn ∈ turns, ∀ t ∈ turn.spawned?, t.isFirst)
    (hown : ∀ e ∈ (service sv).trace ⟨{}, [], []⟩ turns, ∀ t ∈ e.input.task? e.before,
      t.CountsInOwnBattle e.before.shared.room ∧ t.SavesOnce e.before.log) :
    ∀ pre post, turns = pre ++ post → ∀ w, w = (service sv).run ⟨{}, [], []⟩ pre →
      ∀ room ∈ w.shared.room, ∀ battle ∈ room.battle, ∀ dancerId tally,
        battle.wordsWon.own? dancerId = some tally → ∃ n, tally = .number n ∧
          n ≤ (claimedRounds battle.id dancerId w.log).length ∧
          (claimedRounds battle.id dancerId w.log).Nodup := by
  rintro pre post rfl w rfl room hroom battle hbattle dancerId tally htally
  rw [Machine.trace_append, List.forall_mem_append] at hown
  have hcounted : WinsCounted sv.rt ((service sv).run ⟨{}, [], []⟩ pre) := by
    refine Machine.run_invariant (fun e he hw => (turned_of_mem_trace he).winsCounted
      (fun t ht => hspawn e.input ?_ t (ht ▸ rfl)) (fun t ht => (hown.1 e he t ht).1)
      (fun t ht => (hown.1 e he t ht).2) hw) ?_
    · exact List.mem_append_left _ (Machine.input_mem_of_mem_trace he)
    · refine ⟨by simp [Shared.Consistent], by simp, by simp, ?_, ?_, by simp, by simp⟩
      · simp [roundsWon]
      · simp [SettledWithin, pending, Unsettled]
  obtain ⟨n, rfl⟩ := (hcounted.tallied room hroom battle hbattle).number dancerId tally htally
  refine ⟨n, rfl, ?_, hcounted.nodup_claimedRounds⟩
  have hcount := hcounted.counted battle.id dancerId
  have hwon : roundsWon battle.id dancerId ((service sv).run ⟨{}, [], []⟩ pre).shared.room = n := by
    rw [show ((service sv).run ⟨{}, [], []⟩ pre).shared.room = some room from hroom]
    simp [roundsWon, show room.battle = some battle from hbattle, Battle.roundsWon, htally]
  omega

/-- Ana wins round `b1:1`; her win is still to be counted. -/
def sampleWin : List (Turn Env Task) :=
  sampleCalls 0 sampleBattle ++ samplePieces 0 3 ++ sampleOpening ++ [sampleWord (js "ana")] ++
    samplePieces 0 3

/-- The next battle of the room, `b2`, starts after a rematch. -/
def sampleNextBattle : List RoomOp :=
  [.setReady (js "ana") (.boolean true), .setReady (js "bob") (.boolean true),
    .setReady (js "eve") (.boolean true),
    .startChallenge (js "ana") { now := 101000, challengeId := js "c2", random := .first },
    .submitPhrase (js "bob") (.string (js "ritmo")) 102000 .first,
    .chooseSong (js "bob") (js "song-1") { now := 103000, battleId := js "b2" }]

/-- Before Ana's win is counted, `b1` finishes and `b2` starts. -/
def sampleLateAward : List (Turn Env Task) :=
  sampleWin ++ sampleCalls 1 [.finishAtDeadline (js "b1") 93000] ++ samplePieces 1 1 ++
    sampleCalls 1 [.rematch (js "ana")] ++ samplePieces 1 1 ++ sampleCalls 1 sampleNextBattle ++
    samplePieces 0 1

/-- A win of battle `b1` counts in battle `b2`, in whose race Ana claimed nothing. -/
theorem late_award_counts_in_next_battle :
    (∀ turn ∈ sampleLateAward, ∀ t ∈ turn.spawned?, t.isFirst) ∧
    ∃ room ∈ ((service ⟨.ascii, js "ROOM22", {}⟩).run ⟨{}, [], []⟩ sampleLateAward).shared.room,
      ∃ battle ∈ room.battle, battle.id = js "b2" ∧
        battle.wordsWon.own? (js "ana") = some (.number 1) ∧
        claimedRounds battle.id (js "ana")
          ((service ⟨.ascii, js "ROOM22", {}⟩).run ⟨{}, [], []⟩ sampleLateAward).log = [] := by
  decide +kernel

/-- Ana's win counts at once. -/
def sampleAward : List (Turn Env Task) := sampleWin ++ samplePieces 0 1

theorem wins_count_in_own_battle_sampleAward :
    ∃ w, w = (service ⟨.ascii, js "ROOM22", {}⟩).run ⟨{}, [], []⟩ sampleAward ∧
      ∃ room ∈ w.shared.room, ∃ battle ∈ room.battle,
        battle.wordsWon.own? (js "ana") = some (.number 1) ∧
        1 ≤ (claimedRounds battle.id (js "ana") w.log).length := by
  have hsample : ∃ room ∈ ((service ⟨.ascii, js "ROOM22", {}⟩).run ⟨{}, [], []⟩
      sampleAward).shared.room, ∃ battle ∈ room.battle,
        battle.wordsWon.own? (js "ana") = some (.number 1) := by decide +kernel
  obtain ⟨room, hroom, battle, hbattle, hown⟩ := hsample
  refine ⟨_, rfl, room, hroom, battle, hbattle, hown, ?_⟩
  obtain ⟨n, hn, hle, -⟩ := wins_count_in_own_battle ⟨.ascii, js "ROOM22", {}⟩ sampleAward
    (by decide +kernel) (by decide +kernel) sampleAward [] (List.append_nil _).symm _ rfl
    room hroom battle hbattle (js "ana") _ hown
  obtain rfl : 1 = n := Tally.number.inj hn
  exact hle

end DanceSync
