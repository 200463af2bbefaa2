import DanceSync.Handlers.RoundEnds
import DanceSync.Handlers.Submissions

/-!
# Every round is played

`WordRaceScheduler` keeps one timer for the opening of each round and, once a round opened, one for
its close, which is set again when it fires early. Whoever settles a round announces its end.

A race is followed from the moment its rounds are scheduled. Other handlers, timers that fire twice
or early, and claims of dancers go on in between, in any order, until a piece clears the timers of
the room: a battle that starts, or the end of this one.

## Main definitions

* `statusOf`: the status of a round of the stored race.
* `Task.clears`: the pieces that stop or replace a race.
* `RoundTimer.Attended`: the timer of a round is pending, or a handler goes on with the round.
* `Scheduled`: every round that is not over is attended.
* `Task.startOwed`, `Task.endOwed`: the announcements that are left to a task.

## Main results

* `resume_roundMoved`: one piece keeps a round, opens it or settles it.
* `Scheduled.turned`: every turn keeps the rounds attended.
* `every_round_played`.
-/

namespace DanceSync

/-- The status of a round of the stored race. -/
def statusOf (slot : Option WordRace) (roundId : JsString) : Option WordRoundStatus :=
  (slot.bind (·.round? roundId)).map (·.status)

/-- The start of the round is announced. -/
def Output.starts (roundId : JsString) : Output → Bool
  | .roundStarted payload => payload.roundId = roundId
  | _ => false

namespace Task

/-- The next piece clears the timers of the race, discards the race or stores one. -/
def clears : Task → Bool
  | .announceBattleStarted | .planRace _ | .scheduleRounds _ => true
  | t => t.stops

/-- The task goes on with the opening of the round. -/
def opens (roundId : JsString) : Task → Bool
  | .openRoom id _ | .openRace id _ (some _) => id = roundId
  | _ => false

/-- The task sets the timer of the close of the round, for the first time or again. -/
def closes (roundId : JsString) : Task → Bool
  | .announceRound _ round => round.id = roundId
  | .expireRace id none => id = roundId
  | .announceExpired id none race => id = roundId ∧ statusOf race id = some .open
  | _ => false

/-- The announcements of the start of the round that the task goes on to make. -/
def startOwed (roundId : JsString) : Task → ℕ
  | .announceRound _ round => if round.id = roundId then 1 else 0
  | _ => 0

/-- The announcements of the end of the round that the task goes on to make. -/
def endOwed (roundId : JsString) : Task → ℕ
  | .submitClaim _ _ _ (.claimed round) | .awardWordBonus _ _ round | .announceWon _ _ round _
  | .expireRace _ (some round) | .announceExpired _ (some round) (some _) =>
    if round.id = roundId then 1 else 0
  | _ => 0

end Task

/-- The timer that fired as the task starts. -/
def Task.fired? : Task → Option RoundTimer
  | .open roundId => some (.opening roundId)
  | .expire roundId => some (.closing roundId)
  | _ => none

/-- The timer is pending, or a handler goes on with its work or is about to stop the race. -/
def RoundTimer.Attended (timer : RoundTimer) (goesOn : Task → Bool)
    (w : World Shared Task Output) : Prop :=
  (∃ timers ∈ w.shared.timers, timer ∈ timers) ∨ ∃ t ∈ w.tasks, goesOn t ∨ t = .stopRace

/-- The race is stored with a set of timers, and each round that is not over is attended. -/
structure Scheduled (rt : Runtime) (race : WordRace) (w : World Shared Task Output) : Prop where
  consistent : w.shared.Consistent rt
  stored : ∃ r, w.shared.race = some r ∧ race.SameRace r
  timers : w.shared.timers.isSome
  opening : ∀ roundId, statusOf w.shared.race roundId = some .scheduled →
    RoundTimer.Attended (.opening roundId) (Task.opens roundId) w
  closing : ∀ roundId, statusOf w.shared.race roundId = some .open →
    RoundTimer.Attended (.closing roundId) (Task.closes roundId) w

/-- One for a round that did not open yet. -/
def unopened (roundId : JsString) (slot : Option WordRace) : ℕ :=
  if statusOf slot roundId = some .scheduled then 1 else 0

/-- One for a round that is not over. -/
def unended (roundId : JsString) (slot : Option WordRace) : ℕ :=
  if (statusOf slot roundId).any (!·.isFinal) then 1 else 0

variable {sv : Service} {env : Env} {s : Shared} {t u : Task} {roundId id : JsString}
  {race after : WordRace} {round : WordRound} {op : RaceOp} {reply : RaceReply} {rt : Runtime}

theorem clears_of_stops (h : t.stops) : t.clears := by
  cases t <;> first | rfl | exact h

/-! ### The status of a round -/

theorem WordRace.round?_withRound (race : WordRace) (round : WordRound) (roundId : JsString) :
    (race.withRound round).round? roundId =
      (race.round? roundId).map fun r => if r.id = round.id then round else r := by
  rw [round?, round?, withRound, List.find?_map]
  congr 1
  congr 1
  funext r
  simp only [Function.comp_apply]
  split_ifs with hid
  · rw [hid]
  · rfl

/-- A call that moves a round leaves the others. -/
theorem RaceChange.statusOf_of_ne (h : RaceChange rt race op reply after) (hne : op.roundId ≠ id) :
    statusOf (some after) id = statusOf (some race) id := by
  obtain ⟨hround, hstep, wins, -⟩ := h
  rename_i round round'
  have hmoved : round'.id = op.roundId :=
    hstep.id_eq.trans (WordRace.mem_of_round? hround).2
  show ((race.withRound round').round? id).map (·.status) = (race.round? id).map (·.status)
  rw [WordRace.round?_withRound, Option.map_map]
  cases hfound : race.round? id with
  | none => rfl
  | some r =>
    have hid := (WordRace.mem_of_round? hfound).2
    have hother : r.id ≠ round'.id := by
      rw [hid, hmoved]
      exact hne.symm
    simp [hother]

/-- A call that moves a round opens a scheduled one, or settles an open one. -/
theorem RaceChange.statusOf_moved (h : RaceChange rt race op reply after) :
    (∃ round, reply = .opened (some round) ∧ round.id = op.roundId ∧
        statusOf (some race) op.roundId = some .scheduled ∧
        statusOf (some after) op.roundId = some .open) ∨
      ∃ round, reply.settledRound = some round ∧ round.id = op.roundId ∧
        statusOf (some race) op.roundId = some .open ∧
        statusOf (some after) op.roundId = some round.status ∧ round.status.isFinal := by
  obtain ⟨hround, hstep, wins, -⟩ := h
  rename_i round round'
  have hid : round.id = op.roundId := (WordRace.mem_of_round? hround).2
  have hbefore : statusOf (some race) op.roundId = some round.status := by
    simp [statusOf, hround]
  have hafter : statusOf (some { race.withRound round' with wins }) op.roundId =
      some round'.status := by
    show ((race.withRound round').round? op.roundId).map (·.status) = _
    rw [WordRace.round?_withRound, hround]
    simp [hstep.id_eq]
  cases hstep with
  | opened hstatus => exact Or.inl ⟨_, rfl, hid, hbefore.trans (by rw [hstatus]), hafter⟩
  | won hstatus | expired hstatus =>
    exact Or.inr ⟨_, rfl, hid, hbefore.trans (by rw [hstatus]), hafter, rfl⟩

/-! ### One piece -/

/-- What a piece does to a round of the stored race: nothing, but perhaps to announce it; or it
opens the round, or settles it, and goes on with one task that announces that. -/
inductive RoundMoved (s : Shared) (t : Task) (roundId : JsString) (r : Resumed Shared Task Output) :
    Prop
  | kept (hstatus : statusOf r.shared.race roundId = statusOf s.race roundId)
      (hstart : r.emitted.countP (Output.starts roundId) +
        (r.tasks.map (Task.startOwed roundId)).sum = t.startOwed roundId)
      (hend : r.emitted.countP (Output.ends roundId) +
        (r.tasks.map (Task.endOwed roundId)).sum = t.endOwed roundId)
  | opened (race : WordRace) (round : WordRound) (hid : round.id = roundId)
      (hbefore : statusOf s.race roundId = some .scheduled)
      (hafter : statusOf r.shared.race roundId = some .open) (hemitted : r.emitted = [])
      (htasks : r.tasks = [.announceRound race round]) (howed : t.startOwed roundId = 0)
      (hendOwed : t.endOwed roundId = 0)
  | settled (u : Task) (status : WordRoundStatus) (hfinal : status.isFinal)
      (hbefore : statusOf s.race roundId = some .open)
      (hafter : statusOf r.shared.race roundId = some status)
      (hstarts : r.emitted.countP (Output.starts roundId) = 0)
      (hends : r.emitted.countP (Output.ends roundId) = 0) (htasks : r.tasks = [u])
      (hu : u.endOwed roundId = 1) (hustart : u.startOwed roundId = 0)
      (howed : t.startOwed roundId = 0) (hendOwed : t.endOwed roundId = 0)

/-- A piece that stores what a call answered moves the round of the call, and no other. -/
theorem roundMoved_of_change {r : Resumed Shared Task Output} (hslot : s.race = some race)
    (hafter : r.shared.race = some after) (h : RaceChange rt race op reply after)
    (hemitted : ∀ o ∈ r.emitted, o.starts roundId = false ∧ o.ends roundId = false)
    (hopened : ∀ round, reply = .opened (some round) →
      r.emitted = [] ∧ ∃ read, r.tasks = [.announceRound read round])
    (hsettled : ∀ round, reply.settledRound = some round → ∃ u, r.tasks = [u] ∧
      ∀ id, u.endOwed id = (if round.id = id then 1 else 0) ∧ u.startOwed id = 0)
    (howed : t.startOwed roundId = 0) (hendOwed : t.endOwed roundId = 0) :
    RoundMoved s t roundId r := by
  have hquiet (p : Output → Bool) (hp : ∀ o ∈ r.emitted, p o = false) : r.emitted.countP p = 0 :=
    List.countP_eq_zero.mpr fun o ho htrue => absurd (hp o ho) (by simp [htrue])
  have hstarts := hquiet _ fun o ho => (hemitted o ho).1
  have hends := hquiet _ fun o ho => (hemitted o ho).2
  rcases h.statusOf_moved with ⟨round, hreply, hid, hbefore, hopen⟩ |
    ⟨round, hround, hid, hbefore, hstatus, hfinal⟩
  · obtain ⟨hnothing, read, htasks⟩ := hopened round hreply
    by_cases hsame : op.roundId = roundId
    · subst hsame
      exact .opened read round hid (hslot ▸ hbefore) (hafter ▸ hopen) hnothing htasks howed hendOwed
    · refine .kept ?_ ?_ ?_
      · rw [hafter, hslot, h.statusOf_of_ne hsame]
      · rw [howed, hstarts, htasks]
        simp [Task.startOwed, hid, hsame]
      · rw [hendOwed, hends, htasks]
        rfl
  · obtain ⟨u, htasks, hu⟩ := hsettled round hround
    by_cases hsame : op.roundId = roundId
    · subst hsame
      exact .settled u round.status hfinal (hslot ▸ hbefore) (hafter ▸ hstatus) hstarts hends htasks
        ((hu _).1.trans (if_pos hid)) (hu _).2 howed hendOwed
    · refine .kept ?_ ?_ ?_
      · rw [hafter, hslot, h.statusOf_of_ne hsame]
      · rw [howed, hstarts, htasks]
        simp [(hu roundId).2]
      · rw [hendOwed, hends, htasks]
        simp [(hu roundId).1, hid, hsame]

/-- A piece keeps a round, opens it or settles it. -/
theorem resume_roundMoved (sv : Service) (env : Env) (hstored : s.race.isSome)
    (hclears : t.clears = false) (roundId : JsString) :
    RoundMoved s t roundId (t.resume sv env s) := by
  have hcalled {op : RoomOp} {u : Task} (hu : Follows sv s (.call op) u) :
      u.startOwed roundId = 0 ∧ u.endOwed roundId = 0 := by
    cases hu <;> exact ⟨rfl, rfl⟩
  cases t with
  | call op =>
    refine .kept rfl ?_ ?_
    · show 0 + _ = 0
      rw [Nat.zero_add]
      refine List.sum_eq_zero fun n hn => ?_
      obtain ⟨u, hu, rfl⟩ := List.mem_map.mp hn
      exact (hcalled (follows_of_mem hu)).1
    · show 0 + _ = 0
      rw [Nat.zero_add]
      refine List.sum_eq_zero fun n hn => ?_
      obtain ⟨u, hu, rfl⟩ := List.mem_map.mp hn
      exact (hcalled (follows_of_mem hu)).2
  | announceLeave left =>
    have hstops : left.stops = false := hclears
    simp only [Task.resume, hstops]
    exact .kept rfl rfl rfl
  | announceBattleFinished | announceRematch | announceBattleStarted | planRace | scheduleRounds
  | stopRace => cases hclears
  | «open» | openRoom => exact .kept rfl rfl rfl
  | openRace id room read =>
    show RoundMoved s _ roundId (Task.resumeOpen s id room read)
    have hspec := resumeOpen_spec sv s id room read
    generalize Task.resumeOpen s id room read = r at hspec
    cases hspec with
    | refused | battleOver => exact .kept rfl rfl rfl
    | opened read race after round hslot hchange =>
      refine roundMoved_of_change hslot rfl hchange (by simp) ?_ (by simp [RaceReply.settledRound])
        rfl rfl
      rintro _ ⟨⟩
      exact ⟨rfl, read, rfl⟩
  | announceRound race round =>
    refine .kept rfl ?_ rfl
    by_cases hid : round.id = roundId <;>
      simp [Task.resume, Output.starts, roundStartedPayload, Task.startOwed, hid]
  | expire id =>
    show RoundMoved s _ roundId (Task.resumeExpire env s id)
    have hspec := resumeExpire_spec sv env s id
    generalize Task.resumeExpire env s id = r at hspec
    cases hspec with
    | refused => exact .kept rfl rfl rfl
    | expired race after round hslot hchange =>
      refine roundMoved_of_change hslot rfl hchange (by simp [Output.starts, Output.ends])
        (by simp) ?_ rfl rfl
      rintro _ ⟨⟩
      exact ⟨_, rfl, fun id => ⟨rfl, rfl⟩⟩
  | expireRace id expired =>
    obtain ⟨race, hrace⟩ := Option.isSome_iff_exists.mp hstored
    refine .kept rfl rfl ?_
    cases expired <;> simp [Task.resume, hrace, Task.endOwed]
  | announceExpired id expired read =>
    simp only [Task.resume, Task.resumeExpired]
    split
    next round race =>
      refine .kept rfl rfl ?_
      by_cases hid : round.id = roundId <;>
        simp [Output.ends, roundEndedPayload, Task.endOwed, hid]
    next hnot =>
      have howed : (Task.announceExpired id expired read).endOwed roundId = 0 := by
        cases expired with
        | none => rfl
        | some round =>
          cases read with
          | none => rfl
          | some race => exact absurd rfl (hnot round race rfl)
      split_ifs <;> exact .kept rfl rfl howed.symm
  | submitWord playerId text id =>
    simp only [Task.resume]
    split <;> exact .kept rfl rfl rfl
  | submitRace playerId text id read =>
    show RoundMoved s _ roundId (Task.resumeSubmit sv env s playerId text id read)
    have hspec := resumeSubmit_spec sv env s playerId text id read
    generalize Task.resumeSubmit sv env s playerId text id read = r at hspec
    cases hspec with
    | answered | refused => exact .kept rfl rfl rfl
    | claimed read now race after round hslot hchange =>
      refine roundMoved_of_change hslot rfl hchange (by simp [Output.starts, Output.ends])
        (by simp) ?_ rfl rfl
      rintro _ ⟨⟩
      exact ⟨_, rfl, fun id => ⟨rfl, rfl⟩⟩
  | submitClaim playerId race now claim =>
    simp only [Task.resume, Task.resumeClaim]
    split <;> exact .kept rfl rfl (by simp [Output.ends, Task.endOwed])
  | awardWordBonus playerId race round =>
    exact .kept rfl rfl (by simp [Task.resume, Task.resumeAward, Task.endOwed])
  | announceWon playerId race round bonus =>
    refine .kept rfl rfl ?_
    by_cases hid : round.id = roundId <;>
      simp [Task.resume, Output.ends, roundEndedPayload, Task.endOwed, hid]

/-! ### Timers -/

/-- A piece keeps the pending timers, but for the one that fired. -/
theorem timers_resume (sv : Service) (env : Env) (hclears : t.clears = false)
    {timers : List RoundTimer} (h : s.timers = some timers) :
    ∃ timers', (t.resume sv env s).shared.timers = some timers' ∧
      ∀ timer ∈ timers, timer ∈ timers' ∨ t.fired? = some timer := by
  have hkept {shared : Shared} (hsame : shared.timers = s.timers) : ∃ timers',
      shared.timers = some timers' ∧ ∀ timer ∈ timers, timer ∈ timers' ∨ t.fired? = some timer :=
    ⟨timers, hsame.trans h, fun timer htimer => Or.inl htimer⟩
  have hfired {shared : Shared} {timer : RoundTimer}
      (hsame : shared.timers = (s.fired timer).timers) (hfires : t.fired? = some timer) : ∃ timers',
      shared.timers = some timers' ∧ ∀ timer ∈ timers, timer ∈ timers' ∨ t.fired? = some timer := by
    refine ⟨timers.erase timer, by simp [hsame, Shared.fired, h], fun other hother => ?_⟩
    by_cases heq : other = timer
    · exact Or.inr (heq ▸ hfires)
    · exact Or.inl ((List.mem_erase_of_ne heq).mpr hother)
  have hset {timer : RoundTimer} : ∃ timers',
      (s.schedule timer).timers = some timers' ∧
        ∀ other ∈ timers, other ∈ timers' ∨ t.fired? = some other :=
    ⟨timers ++ [timer], by simp [Shared.schedule, h], fun other hother =>
      Or.inl (List.mem_append_left _ hother)⟩
  cases t with
  | announceLeave left =>
    have hstops : left.stops = false := hclears
    simp only [Task.resume, hstops]
    exact hkept rfl
  | announceBattleFinished | announceRematch | announceBattleStarted | planRace | scheduleRounds
  | stopRace => cases hclears
  | «open» roundId => exact hfired rfl rfl
  | openRace roundId room read =>
    show ∃ timers', (Task.resumeOpen s roundId room read).shared.timers = _ ∧ _
    have hspec := resumeOpen_spec sv s roundId room read
    generalize Task.resumeOpen s roundId room read = r at hspec
    cases hspec <;> exact hkept rfl
  | announceRound race round => exact hset
  | expire roundId =>
    show ∃ timers', (Task.resumeExpire env s roundId).shared.timers = _ ∧ _
    have hspec := resumeExpire_spec sv env s roundId
    generalize Task.resumeExpire env s roundId = r at hspec
    cases hspec <;> exact hfired rfl rfl
  | announceExpired roundId expired read =>
    simp only [Task.resume, Task.resumeExpired]
    split
    next => exact hkept rfl
    next =>
      split_ifs
      · exact hset
      · exact hkept rfl
  | submitWord playerId text roundId =>
    simp only [Task.resume]
    split <;> exact hkept rfl
  | submitRace playerId text roundId read =>
    show ∃ timers', (Task.resumeSubmit sv env s playerId text roundId read).shared.timers = _ ∧ _
    have hspec := resumeSubmit_spec sv env s playerId text roundId read
    generalize Task.resumeSubmit sv env s playerId text roundId read = r at hspec
    cases hspec <;> exact hkept rfl
  | submitClaim playerId race now claim =>
    simp only [Task.resume, Task.resumeClaim]
    split <;> exact hkept rfl
  | call | openRoom | expireRace | awardWordBonus | announceWon => exact hkept rfl

/-- A handler that goes on with the opening of a round that stays scheduled hands it on, or is about
to stop the race. -/
theorem opens_resume (sv : Service) (env : Env) (hstored : s.race.isSome) (hopens : t.opens roundId)
    (hstatus : statusOf (t.resume sv env s).shared.race roundId = some .scheduled) :
    ∃ u ∈ (t.resume sv env s).tasks, u.opens roundId ∨ u = .stopRace := by
  obtain ⟨stored, hrace⟩ := Option.isSome_iff_exists.mp hstored
  have hclears : t.clears = false := by
    cases t <;> first | rfl | cases hopens
  have hmoved := resume_roundMoved sv env hstored hclears roundId
  cases t with
  | openRoom id room =>
    refine ⟨.openRace id room s.race, List.mem_singleton_self _, Or.inl ?_⟩
    rw [hrace]
    exact hopens
  | openRace id room read =>
    cases read with
    | none => cases hopens
    | some read =>
      obtain rfl : id = roundId := of_decide_eq_true hopens
      cases hmoved with
      | opened _ _ _ _ hafter => exact absurd (hafter.symm.trans hstatus) (by decide)
      | settled _ status hfinal _ hafter =>
        obtain rfl := Option.some.inj (hafter.symm.trans hstatus)
        cases hfinal
      | kept hsame hstart =>
        rw [hsame, hrace] at hstatus
        obtain ⟨round, hround, hscheduled⟩ := Option.map_eq_some_iff.mp hstatus
        have hround : stored.round? id = some round := hround
        simp only [Task.resume, Task.resumeOpen] at hstart ⊢
        split_ifs at hstart ⊢ with hover
        · exact ⟨.stopRace, List.mem_singleton_self _, Or.inr rfl⟩
        · -- The round would be announced.
          have hid := (WordRace.mem_of_round? hround).2
          simp [InMemoryWordRaceRepository.openRound, hrace, hround, hscheduled, Task.startOwed,
            WordRace.opened, hid] at hstart
  | _ => cases hopens

/-- A handler that goes on with the close of an open round sets its timer, or hands it on. -/
theorem closes_resume (sv : Service) (env : Env) (htimers : s.timers.isSome)
    (hcloses : t.closes roundId) (hstatus : statusOf s.race roundId = some .open) :
    (∃ timers ∈ (t.resume sv env s).shared.timers, .closing roundId ∈ timers) ∨
      ∃ u ∈ (t.resume sv env s).tasks, u.closes roundId ∨ u = .stopRace := by
  obtain ⟨timers, htimers⟩ := Option.isSome_iff_exists.mp htimers
  have hset : ∃ timers ∈ (s.schedule (.closing roundId)).timers, .closing roundId ∈ timers :=
    ⟨timers ++ [.closing roundId], by simp [Shared.schedule, htimers], by simp⟩
  cases t with
  | announceRound race round =>
    obtain rfl : round.id = roundId := of_decide_eq_true hcloses
    exact Or.inl hset
  | expireRace id expired =>
    cases expired with
    | some => cases hcloses
    | none =>
      obtain rfl : id = roundId := of_decide_eq_true hcloses
      exact Or.inr ⟨.announceExpired id none s.race, List.mem_singleton_self _,
        Or.inl (decide_eq_true ⟨rfl, hstatus⟩)⟩
  | announceExpired id expired read =>
    cases expired with
    | some => cases hcloses
    | none =>
      obtain ⟨rfl, hopen⟩ : id = roundId ∧ statusOf read id = some .open :=
        of_decide_eq_true hcloses
      left
      simp only [Task.resume, Task.resumeExpired]
      split_ifs with hnot
      · exact hset
      · exact absurd hopen hnot
  | _ => cases hcloses

/-- A timer that fired is followed by a handler that goes on with its round. -/
theorem opens_of_fired (sv : Service) (env : Env) (h : t.fired? = some (.opening roundId)) :
    ∃ u ∈ (t.resume sv env s).tasks, u.opens roundId ∨ u = .stopRace := by
  cases t with
  | «open» id =>
    obtain rfl : id = roundId := RoundTimer.opening.inj (Option.some.inj h)
    exact ⟨.openRoom id s.room, List.mem_singleton_self _, Or.inl (decide_eq_true rfl)⟩
  | _ => cases h

theorem closes_of_fired (sv : Service) (env : Env) (h : t.fired? = some (.closing roundId))
    (hstatus : statusOf (t.resume sv env s).shared.race roundId = some .open) :
    ∃ u ∈ (t.resume sv env s).tasks, u.closes roundId ∨ u = .stopRace := by
  cases t with
  | expire id =>
    obtain rfl : id = roundId := RoundTimer.closing.inj (Option.some.inj h)
    have hspec := resumeExpire_spec sv env s id
    change statusOf (Task.resumeExpire env s id).shared.race id = _ at hstatus
    show ∃ u ∈ (Task.resumeExpire env s id).tasks, _
    generalize Task.resumeExpire env s id = r at hspec hstatus
    cases hspec with
    | refused => exact ⟨.expireRace id none, List.mem_singleton_self _, Or.inl (decide_eq_true rfl)⟩
    | expired race after round hslot hchange =>
      rcases hchange.statusOf_moved with ⟨_, hreply, -⟩ | ⟨round, -, -, -, hafter, hfinal⟩
      · cases hreply
      · have hopen : round.status = .open := Option.some.inj (hafter.symm.trans hstatus)
        rw [hopen] at hfinal
        cases hfinal
  | _ => cases h

/-! ### Whole runs -/

section Runs

variable {w w' : World Shared Task Output} {turn : Turn Env Task} {emitted : List Output}
  {timer : RoundTimer} {goesOn : Task → Bool} {rest : List Task}

/-- What attends a round is still there after a piece, when the timer that fired and the task that
went on are made up for. -/
theorem RoundTimer.Attended.resumed {log : List Output} (h : RoundTimer.Attended timer goesOn w)
    (htasks : w.tasks.Perm (t :: rest)) (hclears : t.clears = false)
    (hfired : t.fired? = some timer →
      ∃ u ∈ (t.resume sv env w.shared).tasks, goesOn u ∨ u = .stopRace)
    (hgoesOn : goesOn t → (∃ timers ∈ (t.resume sv env w.shared).shared.timers, timer ∈ timers) ∨
      ∃ u ∈ (t.resume sv env w.shared).tasks, goesOn u ∨ u = .stopRace) :
    RoundTimer.Attended timer goesOn ⟨(t.resume sv env w.shared).shared,
      rest ++ (t.resume sv env w.shared).tasks, log⟩ := by
  have hhanded (h : ∃ u ∈ (t.resume sv env w.shared).tasks, goesOn u ∨ u = .stopRace) :
      ∃ u ∈ rest ++ (t.resume sv env w.shared).tasks, goesOn u ∨ u = .stopRace := by
    obtain ⟨u, hu, hgoes⟩ := h
    exact ⟨u, List.mem_append_right _ hu, hgoes⟩
  rcases h with ⟨timers, htimers, htimer⟩ | ⟨u, hu, hgoes⟩
  · obtain ⟨timers', htimers', hkept⟩ := timers_resume sv env hclears htimers
    rcases hkept timer htimer with hpending | hfires
    · exact Or.inl ⟨timers', htimers', hpending⟩
    · exact Or.inr (hhanded (hfired hfires))
  · rcases List.mem_cons.mp (htasks.mem_iff.mp hu) with rfl | hrest
    · rcases hgoes with hgoes | rfl
      · exact (hgoesOn hgoes).imp_right hhanded
      · cases hclears
    · exact Or.inr ⟨u, List.mem_append_left _ hrest, hgoes⟩

/-- A task that is spawned takes nothing away. -/
theorem RoundTimer.Attended.spawned (h : RoundTimer.Attended timer goesOn w) (t : Task) :
    RoundTimer.Attended timer goesOn { w with tasks := w.tasks ++ [t] } := by
  rcases h with hpending | ⟨u, hu, hgoes⟩
  · exact Or.inl hpending
  · exact Or.inr ⟨u, List.mem_append_left _ hu, hgoes⟩

/-- Every turn that clears nothing keeps the rounds attended. -/
theorem Scheduled.turned (h : Turned (fun env t s => Task.resume sv env s t) w turn w' emitted)
    (hclears : ∀ t ∈ turn.task? w, t.clears = false) (hw : Scheduled sv.rt race w) :
    Scheduled sv.rt race w' := by
  cases h with
  | idle => exact hw
  | spawned t =>
    exact ⟨hw.consistent, hw.stored, hw.timers, fun id hid => (hw.opening id hid).spawned t,
      fun id hid => (hw.closing id hid).spawned t⟩
  | @resumed index env t rest htask htasks =>
    have ht : t.clears = false := hclears t htask
    obtain ⟨r, hrace, hsame⟩ := hw.stored
    have hstored : w.shared.race.isSome := Option.isSome_iff_exists.mpr ⟨r, hrace⟩
    obtain ⟨timers, htimers⟩ := Option.isSome_iff_exists.mp hw.timers
    refine ⟨consistent_resume hw.consistent, ?_, ?_, fun roundId hstatus => ?_,
      fun roundId hstatus => ?_⟩
    · rcases resume_raceMoved sv env w.shared t with ⟨hkept, -⟩ |
        ⟨op, reply, before, after, hslot, hafter, hchange, -⟩ | ⟨room, saved, rfl, -⟩ |
        ⟨hstops, -⟩
      · exact ⟨r, hkept.trans hrace, hsame⟩
      · obtain rfl := Option.some.inj (hslot.symm.trans hrace)
        exact ⟨after, hafter, hsame.trans hchange.sameRace⟩
      · cases ht
      · exact absurd (ht.symm.trans (clears_of_stops hstops)) (by decide)
    · obtain ⟨timers', htimers', -⟩ := timers_resume sv env ht htimers
      exact Option.isSome_iff_exists.mpr ⟨timers', htimers'⟩
    · have hbefore : statusOf w.shared.race roundId = some .scheduled := by
        cases resume_roundMoved sv env hstored ht roundId with
        | kept hkept => exact hkept.symm.trans hstatus
        | opened _ _ _ _ hafter => exact absurd (hafter.symm.trans hstatus) (by decide)
        | settled _ status hfinal _ hafter =>
          obtain rfl := Option.some.inj (hafter.symm.trans hstatus)
          cases hfinal
      exact (hw.opening roundId hbefore).resumed htasks ht (opens_of_fired sv env)
        fun hopens => Or.inr (opens_resume sv env hstored hopens hstatus)
    · cases resume_roundMoved sv env hstored ht roundId with
      | kept hkept =>
        have hbefore := hkept.symm.trans hstatus
        exact (hw.closing roundId hbefore).resumed htasks ht
          (fun hfired => closes_of_fired sv env hfired hstatus)
          fun hcloses => closes_resume sv env hw.timers hcloses hbefore
      | opened read round hid _ _ _ hnew =>
        refine Or.inr ⟨.announceRound read round, List.mem_append_right _ ?_,
          Or.inl (decide_eq_true hid)⟩
        rw [hnew]
        exact List.mem_singleton_self _
      | settled _ status hfinal _ hafter =>
        obtain rfl := Option.some.inj (hafter.symm.trans hstatus)
        cases hfinal

/-- A piece passes on the announcements it owes, and owes one more for a round that it opens or
settles. -/
theorem resume_conserves (sv : Service) (env : Env) (hstored : s.race.isSome)
    (hclears : t.clears = false) (roundId : JsString) :
    ((t.resume sv env s).emitted.countP (Output.starts roundId) +
        unopened roundId (t.resume sv env s).shared.race +
        ((t.resume sv env s).tasks.map (Task.startOwed roundId)).sum =
      unopened roundId s.race + t.startOwed roundId) ∧
    ((t.resume sv env s).emitted.countP (Output.ends roundId) +
        unended roundId (t.resume sv env s).shared.race +
        ((t.resume sv env s).tasks.map (Task.endOwed roundId)).sum =
      unended roundId s.race + t.endOwed roundId) := by
  unfold unopened unended
  cases resume_roundMoved sv env hstored hclears roundId with
  | kept hstatus hstart hend =>
    rw [hstatus]
    omega
  | opened read round hid hbefore hafter hemitted htasks howed hendOwed =>
    have hannounced : (Task.announceRound read round).startOwed roundId = 1 := if_pos hid
    rw [hbefore, hafter, hemitted, htasks, howed, hendOwed]
    simp [hannounced, Task.endOwed, WordRoundStatus.isFinal]
  | settled u status hfinal hbefore hafter hstarts hends htasks hu hustart howed hendOwed =>
    have hover : ¬status = .scheduled := by
      rintro rfl
      cases hfinal
    have hopen : WordRoundStatus.open.isFinal = false := rfl
    rw [hbefore, hafter, hstarts, hends, htasks, howed, hendOwed]
    simp [hu, hustart, hover, hfinal, hopen]

/-- The announcements that were made and those that are owed, with the rounds that are still to
open and to end, are `starts` and `ends`. -/
structure Accounted (roundId : JsString) (starts ends : ℕ) (w : World Shared Task Output) :
    Prop where
  starts : w.log.countP (Output.starts roundId) + unopened roundId w.shared.race +
    (w.tasks.map (Task.startOwed roundId)).sum = starts
  ends : w.log.countP (Output.ends roundId) + unended roundId w.shared.race +
    (w.tasks.map (Task.endOwed roundId)).sum = ends

theorem Accounted.turned {starts ends : ℕ}
    (h : Turned (fun env t s => Task.resume sv env s t) w turn w' emitted)
    (hspawn : ∀ t, turn = .spawn t → t.isFirst) (hclears : ∀ t ∈ turn.task? w, t.clears = false)
    (hstored : w.shared.race.isSome) (hw : Accounted roundId starts ends w) :
    Accounted roundId starts ends w' := by
  have howes {t : Task} (hfirst : t.isFirst) : t.startOwed roundId = 0 ∧ t.endOwed roundId = 0 := by
    cases t <;> first | exact ⟨rfl, rfl⟩ | cases hfirst
  have hturn : ∀ index env t, turn = .resume index env → w.tasks[index]? = some t →
      t.clears = false := by
    rintro index env t rfl ht
    exact hclears t ht
  constructor
  · refine (h.conserved (fun s log => log.countP (Output.starts roundId) + unopened roundId s.race)
      (Task.startOwed roundId) (fun t ht => (howes (hspawn t ht)).1)
      fun index env t hresume ht => ?_).trans hw.starts
    have hpiece := (resume_conserves sv env hstored (hturn index env t hresume ht) roundId).1
    rw [List.countP_append]
    omega
  · refine (h.conserved (fun s log => log.countP (Output.ends roundId) + unended roundId s.race)
      (Task.endOwed roundId) (fun t ht => (howes (hspawn t ht)).2)
      fun index env t hresume ht => ?_).trans hw.ends
    have hpiece := (resume_conserves sv env hstored (hturn index env t hresume ht) roundId).2
    rw [List.countP_append]
    omega

/-- The expiry of an open round that is called at its close or later settles it. -/
theorem statusOf_expire (hconsistent : s.Consistent sv.rt) (hrace : s.race = some race)
    (hround : race.round? roundId = some round) (hopen : round.status = .open)
    (hdue : round.closesAt ≤ env.now) :
    statusOf ((Task.expire roundId).resume sv env s).shared.race roundId = some .expired := by
  obtain ⟨hmem, hid⟩ := WordRace.mem_of_round? hround
  have hwinner : round.winnerId = none := by
    have hiff := (hconsistent race hrace).winner round hmem
    rw [hopen] at hiff
    simpa using hiff
  have hexpired : InMemoryWordRaceRepository.expireRound s.race roundId env.now =
      (some (race.withRound (WordRace.expired round)), some (WordRace.expired round)) := by
    simp [InMemoryWordRaceRepository.expireRound, hrace, hround, hopen, hwinner, hdue]
  show statusOf (InMemoryWordRaceRepository.expireRound s.race roundId env.now).1 roundId = _
  rw [hexpired]
  show ((race.withRound (WordRace.expired round)).round? roundId).map (·.status) = _
  rw [WordRace.round?_withRound, hround]
  simp [WordRace.expired]

/-- The rounds are attended once their timers are set. -/
theorem scheduled_start (hplanned : race.Planned rt) (hrace : w.shared.race = some race)
    (htimers : w.shared.timers = some (race.rounds.map fun round => .opening round.id)) :
    Scheduled rt race w where
  consistent r hr := by
    obtain rfl := Option.some.inj (hrace.symm.trans hr)
    exact hplanned.consistent
  stored := ⟨race, hrace, .refl race⟩
  timers := Option.isSome_iff_exists.mpr ⟨_, htimers⟩
  opening roundId hstatus := by
    rw [hrace] at hstatus
    obtain ⟨round, hround, -⟩ := Option.map_eq_some_iff.mp hstatus
    obtain ⟨hmem, rfl⟩ := WordRace.mem_of_round? hround
    exact Or.inl ⟨_, htimers, List.mem_map_of_mem hmem⟩
  closing roundId hstatus := by
    rw [hrace] at hstatus
    obtain ⟨round, hround, hopen⟩ := Option.map_eq_some_iff.mp hstatus
    have hscheduled := hplanned.scheduled round (WordRace.mem_of_round? hround).1
    exact absurd (hscheduled.symm.trans hopen) (by decide)

/-- A round of a race that is stored with its ids. -/
theorem exists_statusOf {r : WordRace} (hsame : race.SameRace r) (hround : round ∈ race.rounds) :
    ∃ status, statusOf (some r) round.id = some status := by
  have hid : round.id ∈ r.rounds.map (·.id) := hsame.ids ▸ List.mem_map_of_mem hround
  obtain ⟨found, hfound, heq⟩ := List.mem_map.mp hid
  have hsome : (r.round? round.id).isSome :=
    List.find?_isSome.mpr ⟨found, hfound, decide_eq_true heq⟩
  obtain ⟨stored, hstored⟩ := Option.isSome_iff_exists.mp hsome
  exact ⟨stored.status, congrArg (Option.map WordRound.status) hstored⟩

/-- From the moment that the rounds of a planned race are scheduled until a handler clears their
timers, and whatever else goes on, each round that is not over has its timer pending or a handler at
work. Once nothing is pending any more, every round is over, and its start and its end were
announced once. -/
theorem every_round_played (sv : Service) {planned : Room} {random : ℕ → RandomIndex}
    (hplan : WordRaceService.plan .double sv.rt planned sv.options random = .ok race) {index : ℕ}
    (htask : w.tasks[index]? = some (.scheduleRounds race)) (hrace : w.shared.race = some race)
    {turns : List (Turn Env Task)} (hspawn : ∀ turn ∈ turns, ∀ t ∈ turn.spawned?, t.isFirst)
    (hclears : ∀ e ∈ (service sv).trace ((service sv).next w (.resume index env)) turns,
      ∀ t ∈ e.input.task? e.before, t.clears = false) :
    let after := (service sv).run w (.resume index env :: turns)
    Scheduled sv.rt race after ∧
    (∀ r ∈ after.shared.race, ∀ roundId, ∀ round ∈ r.round? roundId, round.status = .open →
      ∀ late : Env, round.closesAt ≤ late.now →
        statusOf ((Task.expire roundId).resume sv late after.shared).shared.race roundId =
          some .expired) ∧
    ((∀ t ∈ w.tasks, ∀ round ∈ race.rounds,
        t.startOwed round.id = 0 ∧ t.endOwed round.id = 0) →
      after.tasks = [] → after.shared.timers = some [] → ∀ round ∈ race.rounds,
        (statusOf after.shared.race round.id).any (·.isFinal) ∧
        after.log.countP (Output.starts round.id) =
          w.log.countP (Output.starts round.id) + 1 ∧
        after.log.countP (Output.ends round.id) = w.log.countP (Output.ends round.id) + 1) := by
  intro after
  have hplanned := (WordRaceService.plan_eq_ok hplan).1
  set start := (service sv).next w (.resume index env) with hstart
  have hnext : start = ⟨{ w.shared with
      timers := some (race.rounds.map fun round => .opening round.id) },
      w.tasks.eraseIdx index ++ [], w.log ++ []⟩ := by
    show (w.resume _ index env).1 = _
    rw [World.resume, htask]
    rfl
  have hscheduled : Scheduled sv.rt race start :=
    scheduled_start hplanned (by rw [hnext]; exact hrace) (by rw [hnext])
  have hafter : Scheduled sv.rt race ((service sv).run start turns) :=
    Machine.run_invariant (P := Scheduled sv.rt race)
      (fun e he h => h.turned (turned_of_mem_trace he) (hclears e he)) hscheduled
  change Scheduled sv.rt race after at hafter
  obtain ⟨r, hstored, hsame⟩ := hafter.stored
  refine ⟨hafter, fun r hr roundId round hround hopen late hdue =>
    statusOf_expire hafter.consistent hr hround hopen hdue, ?_⟩
  intro hidle htasks htimers round hround
  have hgone {timer : RoundTimer} {goesOn : Task → Bool} :
      ¬RoundTimer.Attended timer goesOn after := by
    rintro (⟨timers, htimers', htimer⟩ | ⟨t, ht, -⟩)
    · obtain rfl := Option.some.inj (htimers.symm.trans htimers')
      simp at htimer
    · simp [htasks] at ht
  obtain ⟨status, hstatus⟩ := exists_statusOf hsame hround
  rw [← hstored] at hstatus
  have hfinal : status.isFinal := by
    cases status with
    | scheduled => exact absurd (hafter.opening round.id hstatus) hgone
    | «open» => exact absurd (hafter.closing round.id hstatus) hgone
    | won | expired => rfl
  -- Nothing was owed before the rounds were scheduled, and nothing is owed now.
  have haccounted : Accounted round.id (w.log.countP (Output.starts round.id) + 1)
      (w.log.countP (Output.ends round.id) + 1) after := by
    refine (Machine.run_invariant (M := service sv) (P := fun v => Scheduled sv.rt race v ∧
      Accounted round.id (w.log.countP (Output.starts round.id) + 1)
        (w.log.countP (Output.ends round.id) + 1) v) (s := start) (fun e he h => ?_)
        ⟨hscheduled, ?_⟩).2
    · obtain ⟨r, hr, -⟩ := h.1.stored
      exact ⟨h.1.turned (turned_of_mem_trace he) (hclears e he), h.2.turned
        (turned_of_mem_trace he)
        (fun t ht => hspawn _ (Machine.input_mem_of_mem_trace he) t (ht ▸ rfl)) (hclears e he)
        (Option.isSome_iff_exists.mpr ⟨r, hr⟩)⟩
    · have hmem : ∀ t ∈ w.tasks.eraseIdx index ++ [],
          t.startOwed round.id = 0 ∧ t.endOwed round.id = 0 := by
        intro t ht
        rw [List.append_nil] at ht
        exact hidle t (List.mem_of_mem_eraseIdx ht) round hround
      have hbefore : statusOf (some race) round.id = some .scheduled := by
        obtain ⟨status, hstatus⟩ := exists_statusOf (.refl race) hround
        obtain ⟨found, hfound, rfl⟩ := Option.map_eq_some_iff.mp hstatus
        rw [hstatus, hplanned.scheduled found (WordRace.mem_of_round? hfound).1]
      have hsum (weight : Task → ℕ)
          (hweight : ∀ t ∈ w.tasks.eraseIdx index ++ [], weight t = 0) :
          ((w.tasks.eraseIdx index ++ []).map weight).sum = 0 := by
        refine List.sum_eq_zero fun n hn => ?_
        obtain ⟨t, ht, rfl⟩ := List.mem_map.mp hn
        exact hweight t ht
      rw [hnext]
      constructor
      · show (w.log ++ []).countP _ + unopened round.id w.shared.race + _ = _
        rw [hsum _ fun t ht => (hmem t ht).1, hrace, unopened, if_pos hbefore, List.append_nil]
      · show (w.log ++ []).countP _ + unended round.id w.shared.race + _ = _
        rw [hsum _ fun t ht => (hmem t ht).2, hrace, unended, hbefore, List.append_nil]
        rfl
  have hstarts := haccounted.starts
  have hends := haccounted.ends
  have hover : ¬status = .scheduled := by
    rintro rfl
    cases hfinal
  refine ⟨by simp [hstatus, hfinal], ?_, ?_⟩
  · simpa [htasks, unopened, hstatus, hover] using hstarts
  · simpa [htasks, unended, hstatus, hfinal] using hends

end Runs

/-- A round opens, its close fires early, is set again and fires late. -/
def sampleExpiry (roundId : JsString) : List (Turn Env Task) :=
  .spawn (.open roundId) :: samplePieces 0 4 ++ .spawn (.expire roundId) :: samplePieces 0 3 ++
    .spawn (.expire roundId) :: List.replicate 3 (.resume 0 ⟨100000, fun _ => .first⟩)

/-- The service and the moment at which the rounds of the sample race are scheduled. -/
def sampleService : Service := ⟨.ascii, js "ROOM22", WordRaceService.sampleOptions⟩

def sampleScheduling (race : WordRace) : World Shared Task Output :=
  ⟨⟨some WordRaceService.sampleRaceRoom, some race, none⟩, [.scheduleRounds race], []⟩

/-- Nobody types in any of the three rounds. -/
def sampleTurns : List (Turn Env Task) :=
  ["b1:1", "b1:2", "b1:3"].flatMap fun roundId => sampleExpiry (js roundId)

/-- The end of each round is announced. -/
theorem every_round_played_sampleTurns : ∃ race, SubmitWord.samplePlan = .ok race ∧
    ∀ round ∈ race.rounds,
      ((service sampleService).run (sampleScheduling race)
        (.resume 0 sampleEnv :: sampleTurns)).log.countP (Output.ends round.id) = 0 + 1 := by
  obtain ⟨race, hplan⟩ := SubmitWord.exists_samplePlan
  have hrace : race ∈ SubmitWord.samplePlan.toOption := by
    rw [hplan]
    rfl
  have hclears : ∀ race ∈ SubmitWord.samplePlan.toOption, ∀ e ∈ (service sampleService).trace
      ((service sampleService).next (sampleScheduling race) (.resume 0 sampleEnv)) sampleTurns,
      ∀ t ∈ e.input.task? e.before, t.clears = false := by
    decide +kernel
  have hrest : ∀ race ∈ SubmitWord.samplePlan.toOption,
      ((service sampleService).run (sampleScheduling race)
        (.resume 0 sampleEnv :: sampleTurns)).tasks.length = 0 ∧
      ((service sampleService).run (sampleScheduling race)
        (.resume 0 sampleEnv :: sampleTurns)).shared.timers = some [] := by
    decide +kernel
  obtain ⟨-, -, hplayed⟩ := every_round_played sampleService hplan
    (show (sampleScheduling race).tasks[0]? = some (.scheduleRounds race) from rfl) rfl
    (by decide +kernel) (hclears race hrace)
  refine ⟨race, hplan, fun round hround => ?_⟩
  exact (hplayed (by simp [sampleScheduling, Task.startOwed, Task.endOwed])
    (List.length_eq_zero_iff.mp (hrest race hrace).1) (hrest race hrace).2 round hround).2.2

end DanceSync
