import DanceSync.Domain.MatchRecord
import DanceSync.Lifecycle.BattleEnd
import DanceSync.Lifecycle.ChosenBattle

/-!
# What a call obliges its handler to announce

A call that starts a battle tells its caller so, and so does the one that finishes it: a handler
announces a battle from the answer of its own call, and asks for the record of the match where it
announces the end.

## Main definitions

* `Notice`: an announcement of a battle, with the room that it carries.
* `RoomOp.notices`: what an answer obliges to announce.
* `Noticed`: what the stored room says about that.

## Main results

* `noticed`: an answer obliges to announce exactly what its call did to the battle.
* `RoomInvariant.exists_record`: a room whose battle is over has a match record.
-/

namespace DanceSync

/-- An announcement of a battle, with the room that it carries. -/
inductive Notice where
  | started (room : Room)
  | finished (room : Room)
  /-- The match is handed over for the history. -/
  | recorded (room : Room)
  deriving DecidableEq

namespace Notice

def room : Notice → Room
  | started room | finished room | recorded room => room

/-- The announcement is about the battle of this id. -/
def isAbout (battleId : JsString) (notice : Notice) : Bool :=
  notice.room.battle.map (·.id) = some battleId

def startOf (battleId : JsString) : Notice → Bool
  | started room => (started room).isAbout battleId
  | _ => false

def finishOf (battleId : JsString) : Notice → Bool
  | finished room => (finished room).isAbout battleId
  | _ => false

def recordOf (battleId : JsString) : Notice → Bool
  | recorded room => (recorded room).isAbout battleId
  | _ => false

/-- The end of a battle is announced and recorded. -/
def ended (room : Room) : Multiset Notice := {finished room} + {recorded room}

end Notice

/-- What a reply obliges its handler to announce. -/
def Reply.notices : RoomOp → Reply → Multiset Notice
  | .startBattle .., .room r => {.started r}
  | .chooseSong .., .chosen r battleStarted => if battleStarted then {.started r} else 0
  | .autoPick .., .picked output =>
    if output.picked ∧ output.battleStarted then {.started output.room} else 0
  | .leave .., .left output =>
    if output.battleFinished then output.room.elim 0 Notice.ended else 0
  | .finishAtDeadline .., .finished (some (r, done)) => if done then Notice.ended r else 0
  | _, _ => 0

/-- A call that throws obliges to nothing. -/
def RoomOp.notices (op : RoomOp) : Except JsError Reply → Multiset Notice
  | .ok reply => reply.notices op
  | .error _ => 0

/-- A call that neither starts nor finishes battles obliges to nothing. -/
theorem RoomOp.notices_eq_zero {op : RoomOp} (hstarts : op.battleOptions? = none)
    (hfinishes : op.mayFinish = false) (answer : Except JsError Reply) : op.notices answer = 0 := by
  cases answer with
  | error e => rfl
  | ok reply =>
    cases op with
    | startBattle | chooseSong | autoPick => cases hstarts
    | leave | finishAtDeadline => cases hfinishes
    | _ => rfl

/-- What the stored room says about the announcements that are due: no battle began or ended, or
the stored one is the room that is announced. -/
inductive Noticed (slot : Option Room) (op : RoomOp) (slot' : Option Room) :
    Multiset Notice → Prop
  | quiet (h : ∀ battleId, Running battleId slot' ↔ Running battleId slot) : Noticed slot op slot' 0
  | started (room : Room) (battle : Battle) (options : StartBattleOptions)
      (hop : op.battleOptions? = some options) (hid : battle.id = options.battleId)
      (hbefore : ¬Battling slot) (hslot' : slot' = some room) (hstatus : room.status = .battling)
      (hbattle : room.battle = some battle) : Noticed slot op slot' {.started room}
  | finished (room : Room) (battle : Battle) (hbefore : Running battle.id slot)
      (hslot' : slot' = some room) (hstatus : room.status = .finished)
      (hbattle : room.battle = some battle) : Noticed slot op slot' (Notice.ended room)

variable {rt : Runtime} {code playerId : JsString} {room next : Room} {op : RoomOp}
  {options : StartBattleOptions} {slot slot' : Option Room} {reply : Reply} {now : Instant}

namespace Noticed

theorem unchanged : Noticed slot op slot 0 := quiet fun _ => Iff.rfl

/-- A change that leaves the battle alone. -/
theorem of_kept (hstatus : next.status = room.status) (hbattle : next.battle = room.battle) :
    Noticed (some room) op (some next) 0 := by
  refine quiet fun battleId => ?_
  simp [Running, hstatus, hbattle]

/-- A call that neither starts nor finishes a battle. -/
theorem of_neither (hstored : Stored rt code slot op slot') (hinv : ∀ r ∈ slot, RoomInvariant rt r)
    (hstarts : op.battleOptions? = none)
    (hfinishes : op.mayFinish → ∀ r ∈ slot', r.status = .finished → ¬Battling slot) :
    Noticed slot op slot' 0 := by
  refine quiet fun battleId => ⟨fun h => ?_, fun h => ?_⟩
  · by_contra hnot
    exact hstored.not_running (fun options hoptions => by simp [hstarts] at hoptions) hnot h
  · rcases hstored.running hinv h with hrunning | ⟨hop, r, hr, hfinished, -⟩
    · exact hrunning
    · obtain ⟨before, hbefore, hbattling, -⟩ := h
      exact absurd ⟨before, hbefore, hbattling⟩ (hfinishes hop r hr hfinished)

/-- The call stored the battle that it started. -/
theorem of_started {source : Room} (h : RoomService.Started source options next)
    (hop : op.battleOptions? = some options) (hstatus : source.status = room.status)
    (version : ℕ) : Noticed (some room) op (some { next with version })
      {.started { next with version }} := by
  have hwaiting : room.status = .waiting := hstatus ▸ h.waiting
  obtain ⟨selected, song⟩ := h
  refine started _ _ options hop rfl ?_ rfl rfl rfl
  rintro ⟨r, ⟨⟩, hbattling⟩
  simp [hwaiting] at hbattling

end Noticed

/-- A start that is answered. -/
theorem battle_of_reply {requesterId : JsString} {dancerIds : JsValue}
    (h : ((RoomOp.startBattle requesterId dancerIds options).step rt code slot).2 = .ok reply) :
    ∃ room next, slot = some room ∧ RoomService.Started room options next ∧
      ((RoomOp.startBattle requesterId dancerIds options).step rt code slot).1 =
        some { next with version := room.version + 1 } ∧
      reply = .room { next with version := room.version + 1 } := by
  obtain ⟨returned, hexecuted, rfl⟩ := RoomOp.executed_of_reply h
  cases hexecuted with
  | rescued e he => simp [StartBattle.execute, RoomUpdate.plain] at he
  | same room flags hslot hmutate | null room flags hslot hmutate =>
    have hdecide := congrArg Prod.snd hmutate
    simp only [StartBattle.execute, RoomUpdate.plain, bind_eq_ok, throwIf_eq_ok,
      exists_const] at hdecide
    cases hstart : RoomService.startBattle rt room dancerIds options <;>
      simp [hstart, Functor.map, Except.map] at hdecide
  | room room next flags hslot hmutate hstored hresult =>
    have hdecide := congrArg Prod.snd hmutate
    simp only [StartBattle.execute, RoomUpdate.plain, bind_eq_ok, throwIf_eq_ok,
      exists_const] at hdecide
    obtain rfl := Except.ok.inj hresult
    exact ⟨room, next, hslot, RoomService.startBattle_spec (map_room_eq_ok.mp hdecide.2), hstored,
      rfl⟩

/-- A choice that is answered found a room. -/
theorem slot_of_timing (hop : op.timing? = some options)
    (h : (op.step rt code slot).2 = .ok reply) : ∃ room, slot = some room := by
  cases slot with
  | some room => exact ⟨room, rfl⟩
  | none =>
    exfalso
    cases op with
    | chooseSong | autoPick =>
      simp [RoomOp.step, RoomOp.runUpdate, RoomUpdate.execute_none, RoomUpdate.caught,
        ChooseSong.execute, ChooseSong.autoPick, Functor.map, Except.map] at h
    | _ => cases hop

/-- A timer that picks nothing stores nothing. -/
theorem unchanged_of_not_picks {challengeId : JsString} {random : RandomIndex}
    (h : ((RoomOp.autoPick challengeId random options).step rt code slot).2 = .ok reply)
    (hpicks : reply.picks = false) :
    ((RoomOp.autoPick challengeId random options).step rt code slot).1 = slot := by
  obtain ⟨returned, hexecuted, rfl⟩ := RoomOp.executed_of_reply h
  cases hexecuted with
  | rescued e he hstored => exact hstored
  | same room flags hslot hmutate hstored => exact hslot ▸ hstored
  | null room flags hslot hmutate =>
    simp only [ChooseSong.autoPick] at hmutate
    split at hmutate
    · simp at hmutate
    · simp at hmutate
    · split at hmutate <;> simp at hmutate
  | room room next flags hslot hmutate hstored hresult =>
    obtain rfl := Except.ok.inj hresult
    simp only [ChooseSong.autoPick] at hmutate
    split at hmutate
    · simp at hmutate
    · simp at hmutate
    · split at hmutate
      · simp at hmutate
      · obtain ⟨rfl, -⟩ := Prod.mk.inj hmutate
        cases hpicks

theorem noticed_leave {random : RandomIndex} (hinv : ∀ r ∈ slot, RoomInvariant rt r)
    (h : ((RoomOp.leave playerId random now).step rt code slot).2 = .ok reply) :
    Noticed slot (.leave playerId random now)
      ((RoomOp.leave playerId random now).step rt code slot).1
      (reply.notices (.leave playerId random now)) := by
  have hstored : Stored rt code slot (.leave playerId random now) _ := step_spec rt code slot _
  obtain ⟨room, updated, rfl, hdeparted, hafter, rfl⟩ := left_of_reply h
  by_cases hends : room.status = .battling ∧ updated.status = .finished
  · have hslot' : departedSlot room updated = some { updated with version := room.version + 1 } :=
      if_neg (players_ne_nil_of_battling (hinv room rfl) hends.1 hdeparted)
    rw [hafter, hslot', Reply.notices, if_pos (decide_eq_true hends), Option.elim_some]
    have hchange : BattleChange rt room (.leave playerId random now) updated :=
      .departed rfl hdeparted
    cases hchange with
    | finished battle battle' _ hstatus hbattle hnext hbattle' hid =>
      exact .finished _ battle' ⟨room, rfl, hstatus, battle, hbattle, hid.symm⟩ rfl hnext hbattle'
    | kept hstatus => simp [hstatus, hends.1] at hends
    | started _ hop => cases hop
    | continued _ _ _ _ hnext => simp [hnext] at hends
    | rematched hop => cases hop
  · rw [Reply.notices, if_neg (by simpa using hends)]
    refine Noticed.of_neither hstored hinv rfl fun _ r hr hfinished => ?_
    rintro ⟨before, ⟨⟩, hbattling⟩
    rw [hafter, departedSlot] at hr
    split_ifs at hr
    · cases hr
    · obtain rfl := Option.some.inj hr
      exact hends ⟨hbattling, hfinished⟩

theorem noticed_finishAtDeadline {battleId : JsString} (hinv : ∀ r ∈ slot, RoomInvariant rt r)
    (h : ((RoomOp.finishAtDeadline battleId now).step rt code slot).2 = .ok reply) :
    Noticed slot (.finishAtDeadline battleId now)
      ((RoomOp.finishAtDeadline battleId now).step rt code slot).1
      (reply.notices (.finishAtDeadline battleId now)) := by
  rcases finished_of_reply h with ⟨rfl, hafter⟩ | ⟨room, -, rfl, hafter⟩ |
    ⟨room, battle, stored, rfl, hstatus, hbattle, -, -, rfl, rfl, hafter⟩
  · rw [hafter]
    exact .unchanged
  · rw [hafter]
    exact .unchanged
  · rw [hafter]
    exact .finished _ (RoomService.closed rt battle .songEnd now)
      ⟨room, rfl, hstatus, battle, hbattle, rfl⟩ rfl rfl rfl

/-- An answer obliges to announce exactly what its call did to the battle. -/
theorem noticed (rt : Runtime) (code : JsString) {slot : Option Room} (op : RoomOp)
    (hinv : ∀ r ∈ slot, RoomInvariant rt r) :
    Noticed slot op (op.step rt code slot).1 (op.notices (op.step rt code slot).2) := by
  have hstored : Stored rt code slot op (op.step rt code slot).1 := step_spec rt code slot op
  cases hanswer : (op.step rt code slot).2 with
  | error e =>
    have hsame : (op.step rt code slot).1 = slot := (answered rt code slot op).refused e hanswer
    rw [hsame]
    exact .unchanged
  | ok reply =>
    show Noticed slot op _ (reply.notices op)
    cases op with
    | startBattle requesterId dancerIds options =>
      obtain ⟨room, next, rfl, hstarted, hafter, rfl⟩ := battle_of_reply hanswer
      rw [hafter]
      exact .of_started hstarted rfl rfl _
    | chooseSong playerId songId options =>
      obtain ⟨room, rfl⟩ := slot_of_timing rfl hanswer
      obtain ⟨chosen, next, battleStarted, hchosen, hstart, hafter, rfl⟩ := chosen_of_reply hanswer
      have hchosen := SongSelectionService.choose_spec hchosen
      rcases startIfPossible_spec hstart with ⟨rfl, rfl⟩ | ⟨hstarted, rfl⟩
      · rw [hafter]
        cases hchosen
        exact .of_kept rfl rfl
      · rw [hafter]
        refine .of_started hstarted rfl ?_ _
        cases hchosen
        rfl
    | autoPick challengeId random options =>
      cases hpicks : reply.picks with
      | false =>
        have hnone : reply.notices (.autoPick challengeId random options) = 0 := by
          obtain ⟨returned, -, rfl⟩ := RoomOp.executed_of_reply hanswer
          have hnot : returned.picked = false := hpicks
          simp [Reply.notices, hnot]
        rw [unchanged_of_not_picks hanswer hpicks, hnone]
        exact .unchanged
      | true =>
        obtain ⟨room, rfl⟩ := slot_of_timing rfl hanswer
        obtain ⟨chosen, next, battleStarted, hchosen, hstart, hafter, rfl⟩ :=
          autoPicked_of_reply hanswer hpicks
        have hpicked := SongSelectionService.autoPick_spec hchosen
        rcases startIfPossible_spec hstart with ⟨rfl, rfl⟩ | ⟨hstarted, rfl⟩
        · rw [hafter]
          cases hpicked <;> exact .of_kept rfl rfl
        · rw [hafter]
          refine .of_started hstarted rfl ?_ _
          cases hpicked <;> rfl
    | leave => exact noticed_leave hinv hanswer
    | finishAtDeadline => exact noticed_finishAtDeadline hinv hanswer
    | _ => exact .of_neither hstored hinv rfl (fun hop => by cases hop)

/-- A room whose battle is over has a match record. -/
theorem RoomInvariant.exists_record (h : RoomInvariant rt room) (hstatus : room.status = .finished)
    {battle : Battle} (hbattle : room.battle = some battle) :
    ∃ record, MatchRecordService.fromFinishedRoom rt room = some record ∧
      record.id = battle.id := by
  obtain ⟨battle', hbattle', hclosed⟩ := h.finished hstatus
  obtain rfl := Option.some.inj (hbattle.symm.trans hbattle')
  obtain ⟨finishedAt, hfinishedAt, -⟩ := hclosed.finishedAt
  exact ⟨_, MatchRecordService.fromFinishedRoom_eq_some rt hstatus hbattle hclosed.result
    hfinishedAt hclosed.endReason, rfl⟩

end DanceSync
