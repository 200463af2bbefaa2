import DanceSync.Handlers.Tasks
import DanceSync.Lifecycle.Battles
import DanceSync.WordRace.Rounds

/-!
# What a piece of a handler does

Each piece keeps the stored race, moves one of its rounds, saves a new race or discards the race;
and it keeps the stored room or calls one use case on it. The facts about interleavings are drawn
from these two.

## Main definitions

* `Task.stops`: the tasks that discard the race.
* `Task.isFirst`: the tasks that handlers and timers start as.
* `Task.startsBattle`: the tasks on the way to a new race.
* `Task.roomOp?`: the use case that a task calls on the room.
* `Submitting`, `Expiring`, `Opening`: the pieces that move a round.
* `RaceMoved`: what a piece does to the stored race.

## Main results

* `resume_raceMoved`, `room_resume`.
-/

namespace DanceSync

namespace Output

/-- The output is a change of the stored race. -/
def changesRace : Output → Bool
  | .raceSaved _ | .raceStopped | .roundClaimed .. | .roundExpired .. => true
  | _ => false

/-- A race of the battle is saved. -/
def saves (battleId : JsString) : Output → Bool
  | .raceSaved race => race.battleId = battleId
  | _ => false

/-- The race is discarded. -/
def stops : Output → Bool
  | .raceStopped => true
  | _ => false

end Output

/-- What is seen of a call that moves a round of the race of a battle. -/
def RaceReply.outputs (battleId : JsString) (op : RaceOp) : RaceReply → List Output
  | .claim (.claimed round) => op.claimant.toList.map (.roundClaimed battleId round.id)
  | .expired (some round) => [.roundExpired battleId round.id]
  | _ => []

namespace Task

/-- The tasks whose next piece discards the race. -/
def stops : Task → Bool
  | .announceLeave left => left.stops
  | .announceBattleFinished | .announceRematch | .stopRace => true
  | _ => false

/-- The tasks that handlers and timers start as: a message that arrives or a timer that fires. -/
def isFirst : Task → Bool
  | .call (.awardWordBonus _) => false
  | .call _ | .open _ | .expire _ | .submitWord .. => true
  | _ => false

/-- The tasks on the way to a new race: the start of a battle and the handler it starts. -/
def startsBattle : Task → Bool
  | .call op => op.battleOptions?.isSome
  | .announceBattleStarted | .planRace _ => true
  | _ => false

/-- The use case that the next piece of a task calls on the room. -/
def roomOp? : Task → Option RoomOp
  | .call op => some op
  | .awardWordBonus playerId _ _ => some (.awardWordBonus playerId)
  | _ => none

end Task

variable {sv : Service} {env : Env} {s : Shared} {t u : Task}

/-! ### The pieces that move a round -/

/-- A submission that read the race answers at once, or asks for the round. -/
inductive Submitting (sv : Service) (s : Shared) (playerId roundId : JsString) :
    Resumed Shared Task Output → Prop
  | answered (answer : Except JsError (SubmitWordOutcome × Option JsString)) :
      Submitting sv s playerId roundId
        { shared := s, emitted := [.wordAnswered playerId answer] }
  | refused (read : WordRace) (now : Instant) (round : Option WordRound) :
      Submitting sv s playerId roundId
        { shared := s, tasks := [.submitClaim playerId read now (.refused round)] }
  | claimed (read : WordRace) (now : Instant) (race after : WordRace) (round : WordRound)
      (hslot : s.race = some race)
      (h : RaceChange sv.rt race (.claimRound roundId playerId now) (.claim (.claimed round))
        after) :
      Submitting sv s playerId roundId
        { shared := { s with race := some after }
          tasks := [.submitClaim playerId read now (.claimed round)]
          emitted := [.roundClaimed race.battleId round.id playerId] }

/-- The timer of a closing expires its round, or finds nothing to expire. -/
inductive Expiring (sv : Service) (s : Shared) (roundId : JsString) (now : Instant) :
    Resumed Shared Task Output → Prop
  | refused : Expiring sv s roundId now
      { shared := s.fired (.closing roundId), tasks := [.expireRace roundId none] }
  | expired (race after : WordRace) (round : WordRound) (hslot : s.race = some race)
      (h : RaceChange sv.rt race (.expireRound roundId now) (.expired (some round)) after) :
      Expiring sv s roundId now
        { shared := { s.fired (.closing roundId) with race := some after }
          tasks := [.expireRace roundId (some round)]
          emitted := [.roundExpired race.battleId round.id] }

/-- An opening that read the room and the race stops the race of a battle that is over, finds
nothing to open, or opens its round. -/
inductive Opening (sv : Service) (s : Shared) (roundId : JsString) (room : Option Room) :
    Option WordRace → Resumed Shared Task Output → Prop
  | refused (read : Option WordRace) : Opening sv s roundId room read { shared := s }
  | battleOver (read : WordRace) (h : OpenWordRound.battleOver room read) :
      Opening sv s roundId room (some read) { shared := s, tasks := [.stopRace] }
  | opened (read race after : WordRace) (round : WordRound) (hslot : s.race = some race)
      (h : RaceChange sv.rt race (.openRound roundId) (.opened (some round)) after) :
      Opening sv s roundId room (some read)
        { shared := { s with race := some after }, tasks := [.announceRound read round] }

theorem resumeSubmit_spec (sv : Service) (env : Env) (s : Shared)
    (playerId text roundId : JsString) (read : Option WordRace) :
    Submitting sv s playerId roundId
      (Task.resumeSubmit sv env s playerId text roundId read) := by
  unfold Task.resumeSubmit
  cases read with
  | none => exact .answered _
  | some read =>
    dsimp only
    split
    next => exact .answered _
    next round hround =>
      split
      next => exact .answered _
      next => exact .answered _
      next => exact .answered _
      next =>
        have hanswered := claimRound_answered sv.rt s.race roundId playerId env.now
        generalize InMemoryWordRaceRepository.claimRound sv.rt s.race roundId playerId env.now =
          out at hanswered ⊢
        obtain ⟨stored, claim⟩ := out
        cases claim with
        | claimed round =>
          generalize hslot : s.race = slot at hanswered
          cases hanswered with
          | unchanged hmoved => simp [RaceReply.moved] at hmoved
          | @changed race after _ hrace _ hchange =>
            subst hrace
            exact .claimed read env.now race after round hslot hchange
        | refused round =>
          cases hanswered with
          | unchanged => exact .refused read env.now round
          | changed _ hmoved => simp [RaceReply.moved] at hmoved

theorem resumeExpire_spec (sv : Service) (env : Env) (s : Shared) (roundId : JsString) :
    Expiring sv s roundId env.now (Task.resumeExpire env s roundId) := by
  unfold Task.resumeExpire
  have hanswered := expireRound_answered sv.rt s.race roundId env.now
  generalize InMemoryWordRaceRepository.expireRound s.race roundId env.now = out at hanswered ⊢
  obtain ⟨stored, expired⟩ := out
  cases expired with
  | none =>
    cases hanswered with
    | unchanged => exact .refused
    | changed _ hmoved => simp [RaceReply.moved] at hmoved
  | some round =>
    generalize hslot : s.race = slot at hanswered ⊢
    cases hanswered with
    | unchanged hmoved => simp [RaceReply.moved] at hmoved
    | @changed race after _ hrace _ hchange =>
      subst hrace
      exact .expired race after round hslot hchange

theorem resumeOpen_spec (sv : Service) (s : Shared) (roundId : JsString) (room : Option Room)
    (read : Option WordRace) :
    Opening sv s roundId room read (Task.resumeOpen s roundId room read) := by
  unfold Task.resumeOpen
  cases read with
  | none => exact .refused none
  | some read =>
    dsimp only
    split_ifs with hover
    · exact .battleOver read hover
    · have hanswered := openRound_answered sv.rt s.race roundId
      generalize InMemoryWordRaceRepository.openRound s.race roundId = out at hanswered ⊢
      obtain ⟨stored, opened⟩ := out
      cases opened with
      | none =>
        cases hanswered with
        | unchanged => exact .refused _
        | changed _ hmoved => simp [RaceReply.moved] at hmoved
      | some round =>
        generalize hslot : s.race = slot at hanswered
        cases hanswered with
        | unchanged hmoved => simp [RaceReply.moved] at hmoved
        | @changed race after _ hrace _ hchange =>
          subst hrace
          exact .opened read race after round hslot hchange

/-! ### The stored race -/

/-- What a piece does to the stored race. -/
inductive RaceMoved (sv : Service) (env : Env) (s : Shared) (t : Task)
    (r : Resumed Shared Task Output) : Prop
  | kept (hrace : r.shared.race = s.race) (hquiet : ∀ o ∈ r.emitted, o.changesRace = false)
  | moved (op : RaceOp) (reply : RaceReply) (race after : WordRace) (hslot : s.race = some race)
      (hrace : r.shared.race = some after) (h : RaceChange sv.rt race op reply after)
      (hemitted : r.emitted = reply.outputs race.battleId op)
  | saved (room : Room) (race : WordRace) (htask : t = .planRace (some room))
      (hplan : WordRaceService.plan .double sv.rt room sv.options env.random = .ok race)
      (hrace : r.shared.race = some race) (hemitted : r.emitted = [.raceSaved race])
  | stopped (htask : t.stops) (hrace : r.shared.race = none) (hemitted : r.emitted = [.raceStopped])

/-- A piece keeps the stored race, moves one of its rounds, saves a race or discards the race. -/
theorem resume_raceMoved (sv : Service) (env : Env) (s : Shared) (t : Task) :
    RaceMoved sv env s t (t.resume sv env s) := by
  cases t with
  | announceLeave left =>
    simp only [Task.resume]
    split_ifs with hstops
    · exact .stopped hstops rfl rfl
    · exact .kept rfl (by simp)
  | announceBattleFinished | announceRematch | stopRace => exact .stopped rfl rfl rfl
  | planRace room =>
    cases room with
    | none => exact .kept rfl (by simp [Task.resume, Task.resumePlan])
    | some room =>
      simp only [Task.resume, Task.resumePlan]
      split
      next => exact .kept rfl (by simp)
      next race hplan => exact .saved room race rfl hplan rfl rfl
  | openRace roundId room read =>
    show RaceMoved sv env s _ (Task.resumeOpen s roundId room read)
    have hspec := resumeOpen_spec sv s roundId room read
    generalize Task.resumeOpen s roundId room read = r at hspec
    cases hspec with
    | refused | battleOver => exact .kept rfl (by simp)
    | opened read race after round hslot hchange =>
      exact .moved _ _ race after hslot rfl hchange rfl
  | expire roundId =>
    show RaceMoved sv env s _ (Task.resumeExpire env s roundId)
    have hspec := resumeExpire_spec sv env s roundId
    generalize Task.resumeExpire env s roundId = r at hspec
    cases hspec with
    | refused => exact .kept rfl (by simp)
    | expired race after round hslot hchange =>
      exact .moved _ _ race after hslot rfl hchange rfl
  | submitRace playerId text roundId read =>
    show RaceMoved sv env s _ (Task.resumeSubmit sv env s playerId text roundId read)
    have hspec := resumeSubmit_spec sv env s playerId text roundId read
    generalize Task.resumeSubmit sv env s playerId text roundId read = r at hspec
    cases hspec with
    | answered | refused => exact .kept rfl (by simp [Output.changesRace])
    | claimed read now race after round hslot hchange =>
      exact .moved _ _ race after hslot rfl hchange rfl
  | submitWord playerId text roundId =>
    simp only [Task.resume]
    split <;> exact .kept rfl (by simp [Output.changesRace])
  | submitClaim playerId race now claim =>
    simp only [Task.resume, Task.resumeClaim]
    split <;> exact .kept rfl (by simp [Output.changesRace])
  | announceExpired roundId expired race =>
    simp only [Task.resume, Task.resumeExpired]
    split
    next => exact .kept rfl (by simp [Output.changesRace])
    next => split_ifs <;> exact .kept rfl (by simp)
  | _ =>
    exact .kept rfl (by simp [Task.resume, Task.resumeCall, Task.resumeAward, Output.changesRace])

/-! ### The stored room -/

/-- A piece keeps the stored room or calls one use case on it. -/
theorem room_resume (sv : Service) (env : Env) (s : Shared) (t : Task) :
    (t.resume sv env s).shared.room = match t.roomOp? with
      | some op => (roomMachine sv.rt sv.code).next s.room op
      | none => s.room := by
  cases t with
  | announceLeave left =>
    simp only [Task.resume]
    split_ifs <;> rfl
  | planRace room =>
    simp only [Task.resume, Task.resumePlan]
    split
    next => rfl
    next => split <;> rfl
  | openRace roundId room read =>
    show (Task.resumeOpen s roundId room read).shared.room = s.room
    have hspec := resumeOpen_spec sv s roundId room read
    generalize Task.resumeOpen s roundId room read = r at hspec
    cases hspec <;> rfl
  | expire roundId =>
    show (Task.resumeExpire env s roundId).shared.room = s.room
    have hspec := resumeExpire_spec sv env s roundId
    generalize Task.resumeExpire env s roundId = r at hspec
    cases hspec <;> rfl
  | submitRace playerId text roundId read =>
    show (Task.resumeSubmit sv env s playerId text roundId read).shared.room = s.room
    have hspec := resumeSubmit_spec sv env s playerId text roundId read
    generalize Task.resumeSubmit sv env s playerId text roundId read = r at hspec
    cases hspec <;> rfl
  | submitWord playerId text roundId =>
    simp only [Task.resume]
    split <;> rfl
  | submitClaim playerId race now claim =>
    simp only [Task.resume, Task.resumeClaim]
    split <;> rfl
  | announceExpired roundId expired race =>
    simp only [Task.resume, Task.resumeExpired]
    split
    next => rfl
    next => split_ifs <;> rfl
  | _ => rfl

/-! ### What a task goes on with -/

/-- The task `u` goes on after a piece of the task `t`. -/
inductive Follows (sv : Service) (s : Shared) : Task → Task → Prop
  | battleStarted {op : RoomOp} (hop : op.battleOptions?.isSome) :
      Follows sv s (.call op) .announceBattleStarted
  | left {playerId : JsString} {random : RandomIndex} {now : Instant}
      {output : JoinRoom.LeaveRoomOutput}
      (hreply : ((RoomOp.leave playerId random now).step sv.rt sv.code s.room).2 =
        .ok (.left output)) :
      Follows sv s (.call (.leave playerId random now)) (.announceLeave output)
  | finished {battleId : JsString} {now : Instant} {room : Room}
      (hreply : ((RoomOp.finishAtDeadline battleId now).step sv.rt sv.code s.room).2 =
        .ok (.finished (some (room, true)))) :
      Follows sv s (.call (.finishAtDeadline battleId now)) .announceBattleFinished
  | rematched {requesterId : JsString} {reply : Reply}
      (hreply : ((RoomOp.rematch requesterId).step sv.rt sv.code s.room).2 = .ok reply) :
      Follows sv s (.call (.rematch requesterId)) .announceRematch
  | started : Follows sv s .announceBattleStarted (.planRace s.room)
  | saved {room : Room} {race : WordRace} :
    Follows sv s (.planRace (some room)) (.scheduleRounds race)
  | roomRead {roundId : JsString} : Follows sv s (.open roundId) (.openRoom roundId s.room)
  | raceRead {roundId : JsString} {room : Option Room} :
      Follows sv s (.openRoom roundId room) (.openRace roundId room s.race)
  | battleOver {roundId : JsString} {room : Option Room} {read : WordRace}
      (h : OpenWordRound.battleOver room read) :
      Follows sv s (.openRace roundId room (some read)) .stopRace
  | opened {roundId : JsString} {room : Option Room} {read : WordRace} {round : WordRound} :
      Follows sv s (.openRace roundId room (some read)) (.announceRound read round)
  | expired {roundId : JsString} {expired : Option WordRound} :
      Follows sv s (.expire roundId) (.expireRace roundId expired)
  | expiredRead {roundId : JsString} {expired : Option WordRound} :
      Follows sv s (.expireRace roundId expired) (.announceExpired roundId expired s.race)
  | submitted {playerId text roundId : JsString} {textValue roundValue : JsValue} :
      Follows sv s (.submitWord playerId textValue roundValue)
        (.submitRace playerId text roundId s.race)
  | claimed {playerId text roundId : JsString} {read : Option WordRace} {race : WordRace}
      {now : Instant} {claim : ClaimRoundResult} :
      Follows sv s (.submitRace playerId text roundId read) (.submitClaim playerId race now claim)
  | won {playerId : JsString} {race : WordRace} {now : Instant} {round : WordRound} :
      Follows sv s (.submitClaim playerId race now (.claimed round))
        (.awardWordBonus playerId (s.race.getD race) round)
  | awarded {playerId : JsString} {race : WordRace} {round : WordRound} {bonus : Option Room} :
      Follows sv s (.awardWordBonus playerId race round) (.announceWon playerId race round bonus)

theorem follows_call {op : RoomOp} {reply : Reply}
    (hreply : (op.step sv.rt sv.code s.room).2 = .ok reply) (hu : u ∈ Reply.next op reply) :
    Follows sv s (.call op) u := by
  unfold Reply.next at hu
  split at hu
  case h_1 => exact List.mem_singleton.mp hu ▸ .battleStarted rfl
  case h_2 | h_3 =>
    split_ifs at hu
    · exact List.mem_singleton.mp hu ▸ .battleStarted rfl
    · simp at hu
  case h_4 => exact List.mem_singleton.mp hu ▸ .left hreply
  case h_5 => exact List.mem_singleton.mp hu ▸ .finished hreply
  case h_6 => exact List.mem_singleton.mp hu ▸ .rematched hreply
  case h_7 => simp at hu

theorem follows_of_mem (hu : u ∈ (t.resume sv env s).tasks) : Follows sv s t u := by
  cases t with
  | call op =>
    cases hreply : (op.step sv.rt sv.code s.room).2 with
    | error e => simp [Task.resume, Task.resumeCall, hreply, Except.toOption] at hu
    | ok reply =>
      refine follows_call hreply ?_
      simpa [Task.resume, Task.resumeCall, hreply, Except.toOption] using hu
  | announceLeave left =>
    simp only [Task.resume] at hu
    split_ifs at hu <;> simp [WordRaceScheduler.stop] at hu
  | announceBattleStarted => exact List.mem_singleton.mp hu ▸ .started
  | planRace room =>
    simp only [Task.resume, Task.resumePlan] at hu
    split at hu
    next => simp at hu
    next =>
      split at hu
      next => simp at hu
      next => exact List.mem_singleton.mp hu ▸ .saved
  | «open» roundId => exact List.mem_singleton.mp hu ▸ .roomRead
  | openRoom roundId room => exact List.mem_singleton.mp hu ▸ .raceRead
  | openRace roundId room read =>
    have hu : u ∈ (Task.resumeOpen s roundId room read).tasks := hu
    have hspec := resumeOpen_spec sv s roundId room read
    generalize Task.resumeOpen s roundId room read = r at hspec hu
    cases hspec with
    | refused => simp at hu
    | battleOver read hover => exact List.mem_singleton.mp hu ▸ .battleOver hover
    | opened => exact List.mem_singleton.mp hu ▸ .opened
  | expire roundId => exact List.mem_singleton.mp hu ▸ .expired
  | expireRace roundId expired => exact List.mem_singleton.mp hu ▸ .expiredRead
  | announceExpired roundId expired race =>
    simp only [Task.resume, Task.resumeExpired] at hu
    split at hu
    next => simp at hu
    next => split_ifs at hu <;> simp at hu
  | submitWord playerId text roundId =>
    simp only [Task.resume] at hu
    split at hu
    next => exact List.mem_singleton.mp hu ▸ .submitted
    next => simp at hu
  | submitRace playerId text roundId read =>
    have hu : u ∈ (Task.resumeSubmit sv env s playerId text roundId read).tasks := hu
    have hspec := resumeSubmit_spec sv env s playerId text roundId read
    generalize Task.resumeSubmit sv env s playerId text roundId read = r at hspec hu
    cases hspec with
    | answered => simp at hu
    | refused => exact List.mem_singleton.mp hu ▸ .claimed
    | claimed => exact List.mem_singleton.mp hu ▸ .claimed
  | submitClaim playerId read now claim =>
    simp only [Task.resume, Task.resumeClaim] at hu
    split at hu
    next => exact List.mem_singleton.mp hu ▸ .won
    next => simp at hu
    next => simp at hu
  | awardWordBonus playerId race round => exact List.mem_singleton.mp hu ▸ .awarded
  | _ => simp [Task.resume, WordRaceScheduler.stop] at hu

/-- Only the handler of a battle that starts goes on towards a new race. -/
theorem startsBattle_resume (h : t.startsBattle = false) :
    ∀ u ∈ (t.resume sv env s).tasks, u.startsBattle = false := by
  intro u hu
  cases follows_of_mem hu with
  | battleStarted hop => simp [Task.startsBattle] at h; simp [h] at hop
  | started => simp [Task.startsBattle] at h
  | _ => rfl

end DanceSync
