import DanceSync.Lifecycle.Timers
import DanceSync.Application.Replies
import DanceSync.Machine.Interleaving

/-!
# Handlers that publish the room

The handlers of `src/infrastructure/ws/socketHandlers.ts` that write the room of one code, with the
departures over HTTP, the deadline timers of `src/infrastructure/scheduling/RoomTimers.ts` and the
sweep. A handler calls a use case, which is one atomic step, and later announces what its own call
returned; any other handler may go on in between.

Modelled are the stored room, its deadline timers, `room:updated` and `vote:mine`. A timer may fire
at any time. Sockets, the word race and the match record are left out.

## Main definitions

* `RoomTimers`, `Room.deadline`: the timers of a room and the ones its state asks for.
* `Publishing.State`, `Publishing.Task`, `Publishing.Sent`.
* `State.armRoomTimers`.
* `publishing`: the machine of all interleavings.

## Main results

* `Publishing.room_resume`: a piece keeps the stored room or calls a use case on it.
* `Publishing.announced_of_reply`: what a call returns is announced when it changed the room.
-/

namespace DanceSync

/-! ### Deadline timers -/

/-- What a room timer is for; at most one timer of each kind per room. -/
inductive RoomTimerKind where
  | songChallenge
  | songChoose
  | battleEnd
  deriving DecidableEq, Repr

/-- The use case that the timer of a kind calls. -/
def RoomTimerKind.call (kind : RoomTimerKind) (id : JsString) (random : RandomIndex)
    (options : StartBattleOptions) : RoomOp :=
  match kind with
  | .songChallenge => .expireChallenge id random options.now
  | .songChoose => .autoPick id random options
  | .battleEnd => .finishAtDeadline id options.now

/-- A pending timer: when it fires, and the challenge or battle that its task names. -/
structure RoomTimer where
  deadline : Date
  id : JsString
  deriving DecidableEq

/-- The pending timers of one room. -/
abbrev RoomTimers := RoomTimerKind → Option RoomTimer

namespace RoomTimers

/-- (Re)schedules the timer of a kind. -/
def set (timers : RoomTimers) (kind : RoomTimerKind) (timer : RoomTimer) : RoomTimers :=
  Function.update timers kind (some timer)

def clear (timers : RoomTimers) (kind : RoomTimerKind) : RoomTimers :=
  Function.update timers kind none

/-- Clears every timer of the room. -/
def clearRoom : RoomTimers := fun _ => none

/-- Schedules the timer of a kind, or clears it. -/
def follow (timers : RoomTimers) (kind : RoomTimerKind) : Option RoomTimer → RoomTimers
  | some timer => timers.set kind timer
  | none => timers.clear kind

end RoomTimers

/-- The deadline of each kind that is pending in a room. -/
def Room.deadline (room : Room) : RoomTimers
  | .songChallenge => room.songSelection.bind fun selection =>
    if room.status = .waiting ∧ selection.phase = .typing then
      some ⟨selection.challenge.expiresAt, selection.challenge.id⟩
    else none
  | .songChoose => room.songSelection.bind fun selection =>
    if room.status = .waiting ∧ selection.phase = .choosing then
      selection.chooseDeadline.map fun deadline => ⟨deadline, selection.challenge.id⟩
    else none
  | .battleEnd => room.battle.bind fun battle =>
    if room.status = .battling then some ⟨battle.endsAt, battle.id⟩ else none

namespace Publishing

/-! ### The state -/

/-- What the handlers of one room share. -/
structure State where
  room : Option Room := none
  roomTimers : RoomTimers := .clearRoom
  /-- Version of the room state the timers were last armed from. -/
  armedVersion : Option ℕ := none

/-- A suspended handler, by what it does next. -/
inductive Task where
  /-- A handler or a timer calls a use case of the room. -/
  | call (op : RoomOp)
  /-- The timer of a kind fires. -/
  | fire (kind : RoomTimerKind)
  /-- The sweep reads the room. -/
  | sweep
  /-- `room:join` on a socket that is bound to the room as `previousPlayer`. -/
  | switch (playerId displayName : JsValue) (previousPlayer : JsString)
  | leavePreviousBinding (playerId displayName : JsValue) (previousPlayer : JsString)
  /-- The departure is announced; a handler that switches identities goes on with its payload. -/
  | announceLeave (left : JoinRoom.LeaveRoomOutput) (payload : Option (JsValue × JsValue))
  | rejoin (playerId displayName : JsValue)
  | publishRoom (room : Room)
  | armRoomTimers (room : Room)
  | announceVote (room : Room) (voterId : JsString) (dancerId : Lookup JsString) (changed : Bool)
  | announceRematch (room : Room) (clearedVoterIds : List JsString)

/-- What a handler sends, and what is seen of a call that throws. -/
inductive Sent where
  /-- `room:updated`, by the room it is made from. -/
  | roomUpdated (room : Room)
  /-- `vote:mine` to the player channel of a voter; `.absent` is `null`. -/
  | voteMine (voterId roomCode : JsString) (dancerId : Lookup JsString)
  /-- A handler answers with an error before it changed anything. -/
  | refused (op : RoomOp) (error : JsError)
  /-- A timer, or a handler in the middle of its work, ends with an error. -/
  | failed (op : RoomOp) (error : JsError)

/-- What a piece reads from outside: the random source, and the clock with the options of a battle
that starts. -/
structure Env where
  random : RandomIndex
  options : StartBattleOptions

namespace State

/-- Derives the pending deadlines of a room from its state, unless a newer state did. -/
def armRoomTimers (s : State) (room : Room) : State :=
  if s.armedVersion.any (room.version < ·) then s
  else
    { s with
      armedVersion := some room.version
      roomTimers := ((s.roomTimers.follow .songChallenge (room.deadline .songChallenge)).follow
        .songChoose (room.deadline .songChoose)).follow .battleEnd (room.deadline .battleEnd) }

def forgetRoomTimers (s : State) : State :=
  { s with roomTimers := .clearRoom, armedVersion := none }

end State

/-- A timer, or a handler in the middle of its work, threw. -/
def Sent.fails : Sent → Bool
  | .failed .. => true
  | _ => false

/-! ### The pieces -/

/-- What is announced after a use case returned; `create` is answered over HTTP alone. -/
def announcements : RoomOp → Reply → List Task
  | .create .., _ => []
  | _, .room room | _, .submitted room _ | _, .chosen room _ => [.publishRoom room]
  | _, .left left => [.announceLeave left none]
  | _, .expired room => room.toList.map .publishRoom
  | _, .picked output =>
    -- Fired a moment early, or for a turn that was renewed: follow the stored state.
    if output.picked then [.publishRoom output.room] else [.armRoomTimers output.room]
  | .castVote voterId .., .voted output =>
    [.announceVote output.room voterId output.dancerId output.changed]
  | _, .finished (some (room, finished)) =>
    if finished then [.publishRoom room] else [.armRoomTimers room]
  | _, .rematched room clearedVoterIds => [.announceRematch room clearedVoterIds]
  | _, _ => []

/-- A handler answers with what its use case throws. A timer fails, except that a pick for a room
that is gone is dropped. -/
def thrown (op : RoomOp) (error : JsError) : List Sent :=
  match op, error with
  | .autoPick .., .domain .roomNotFound _ => []
  | .expireChallenge .., _ | .autoPick .., _ | .finishAtDeadline .., _ => [.failed op error]
  | _, _ => [.refused op error]

namespace Task

variable (rt : Runtime) (code : JsString) (env : Env) (s : State)

/-- A use case of the room is called. -/
def resumeCall (op : RoomOp) : Resumed State Task Sent :=
  let (room, reply) := op.step rt code s.room
  match reply with
  | .ok reply => { shared := { s with room }, tasks := announcements op reply }
  | .error e => { shared := { s with room }, emitted := thrown op e }

/-- `room:join` under a new identity takes the new seat. -/
def resumeSwitch (playerId displayName : JsValue) (previousPlayer : JsString) :
    Resumed State Task Sent :=
  let op := RoomOp.join playerId displayName
  let (room, reply) := op.step rt code s.room
  match reply with
  | .ok reply =>
    { shared := { s with room }
      tasks := if playerId.string? = some previousPlayer then announcements op reply
        else [.leavePreviousBinding playerId displayName previousPlayer] }
  | .error e => { shared := { s with room }, emitted := [.refused op e] }

/-- Joining as someone else releases the seat bound so far. -/
def resumeLeavePreviousBinding (playerId displayName : JsValue) (previousPlayer : JsString) :
    Resumed State Task Sent :=
  let op := RoomOp.leave previousPlayer env.random env.options.now
  let (room, reply) := op.step rt code s.room
  match reply with
  | .ok (.left left) =>
    { shared := { s with room }, tasks := [.announceLeave left (some (playerId, displayName))] }
  | .ok _ | .error (.domain _ _) =>
    -- Seat already released or room gone: only the channels of this socket are left.
    { shared := { s with room }, tasks := [.rejoin playerId displayName] }
  | .error e => { shared := { s with room }, emitted := [.failed op e] }

/-- The departure changed the room again. -/
def resumeRejoin (playerId displayName : JsValue) : Resumed State Task Sent :=
  let op := RoomOp.join playerId displayName
  let (room, reply) := op.step rt code s.room
  match reply with
  | .ok reply => { shared := { s with room }, tasks := announcements op reply }
  | .error e => { shared := { s with room }, emitted := [.failed op e] }

/-- Broadcasts the outcome of a departure. -/
def resumeAnnounceLeave (left : JoinRoom.LeaveRoomOutput) (payload : Option (JsValue × JsValue)) :
    Resumed State Task Sent :=
  let tasks := payload.toList.map fun payload => .rejoin payload.1 payload.2
  match left.room with
  | none => { shared := s.forgetRoomTimers, tasks }
  | some room =>
    { shared := s.armRoomTimers room
      tasks
      emitted := left.discardedVoterIds.map (.voteMine · room.code .absent) ++
        [.roomUpdated room] }

/-- One piece of a handler. -/
def resume : Task → Resumed State Task Sent
  | .call op => resumeCall rt code s op
  | .fire kind =>
    match s.roomTimers kind with
    | none => { shared := s }
    | some timer =>
      { shared := { s with roomTimers := s.roomTimers.clear kind }
        tasks := [.call (kind.call timer.id env.random env.options)] }
  | .sweep => { shared := s, tasks := s.room.toList.map .armRoomTimers }
  | .switch playerId displayName previousPlayer =>
    resumeSwitch rt code s playerId displayName previousPlayer
  | .leavePreviousBinding playerId displayName previousPlayer =>
    resumeLeavePreviousBinding rt code env s playerId displayName previousPlayer
  | .announceLeave left payload => resumeAnnounceLeave s left payload
  | .rejoin playerId displayName => resumeRejoin rt code s playerId displayName
  | .publishRoom room => { shared := s.armRoomTimers room, emitted := [.roomUpdated room] }
  | .armRoomTimers room => { shared := s.armRoomTimers room }
  | .announceVote room voterId dancerId changed =>
    -- Everyone gets the new totals; only the voter's own tabs learn the choice.
    { shared := if changed then s.armRoomTimers room else s
      emitted := (if changed then [.roomUpdated room] else []) ++
        [.voteMine voterId room.code dancerId] }
  | .announceRematch room clearedVoterIds =>
    { shared := s.armRoomTimers room
      emitted := .roomUpdated room :: clearedVoterIds.map (.voteMine · room.code .absent) }

/-- The tasks that handlers and timers start as. -/
def isFirst : Task → Bool
  | .call op => !op.isTimer
  | .fire _ | .sweep | .switch .. => true
  | _ => false

end Task

/-- All interleavings of the handlers of one room. -/
def publishing (rt : Runtime) (code : JsString) :
    Machine (World State Task Sent) (Turn Env Task) (List Sent) :=
  interleaving fun env task state => task.resume rt code env state

/-- Before the room is created. -/
def idle : World State Task Sent := { shared := {}, tasks := [], log := [] }

/-! ### What a piece does to the room -/

/-- The use case that the next piece of a task calls. -/
def Task.roomOp? (env : Env) : Task → Option RoomOp
  | .call op => some op
  | .switch playerId displayName _ | .rejoin playerId displayName =>
    some (.join playerId displayName)
  | .leavePreviousBinding _ _ previousPlayer =>
    some (.leave previousPlayer env.random env.options.now)
  | _ => none

/-- The room that the next piece of a task arms the timers from. -/
def Task.published? : Task → Option Room
  | .publishRoom room | .armRoomTimers room | .announceRematch room _ => some room
  | .announceLeave left _ => left.room
  | .announceVote room _ _ changed => if changed then some room else none
  | _ => none

/-- The next piece of the task forgets the timers of a room that is gone. -/
def Task.forgets : Task → Bool
  | .announceLeave left _ => left.room.isNone
  | _ => false

variable {rt : Runtime} {code : JsString} {env : Env} {s : State} {t : Task} {op : RoomOp}
  {slot slot' : Option Room} {reply : Reply} {room next : Room}

@[simp] theorem room_armRoomTimers (s : State) (room : Room) :
    (s.armRoomTimers room).room = s.room := by
  unfold State.armRoomTimers
  split <;> rfl

/-- A piece keeps the stored room or calls one use case on it. -/
theorem room_resume (rt : Runtime) (code : JsString) (env : Env) (s : State) (t : Task) :
    (t.resume rt code env s).shared.room =
      match t.roomOp? env with
      | some op => (op.step rt code s.room).1
      | none => s.room := by
  cases t with
  | call op =>
    simp only [Task.resume, Task.resumeCall, Task.roomOp?]
    split <;> rfl
  | fire kind =>
    simp only [Task.resume, Task.roomOp?]
    split <;> rfl
  | switch | rejoin =>
    simp only [Task.resume, Task.resumeSwitch, Task.resumeRejoin, Task.roomOp?]
    split <;> rfl
  | leavePreviousBinding =>
    simp only [Task.resume, Task.resumeLeavePreviousBinding, Task.roomOp?]
    split <;> rfl
  | announceLeave left payload =>
    simp only [Task.resume, Task.resumeAnnounceLeave, Task.roomOp?]
    split <;> simp [State.forgetRoomTimers]
  | announceVote room voterId dancerId changed =>
    simp only [Task.resume, Task.roomOp?]
    split <;> simp
  | _ => simp [Task.resume, Task.roomOp?]

theorem stored_step (rt : Runtime) (code : JsString) (slot : Option Room) (op : RoomOp) :
    Stored rt code slot op (op.step rt code slot).1 :=
  step_spec rt code slot op

/-- A call keeps the stored room or stores a newer one. -/
theorem version_of_stored (h : Stored rt code (some room) op (some next)) :
    next = room ∨ room.version < next.version := by
  cases h with
  | unchanged => exact Or.inl rfl
  | changed => exact Or.inr (Nat.lt_succ_self _)

theorem version_of_step (h : (op.step rt code (some room)).1 = some next) :
    next = room ∨ room.version < next.version :=
  version_of_stored (h ▸ stored_step rt code (some room) op)

/-- A turn keeps the stored room or answers a call on it. -/
theorem stored_of_turned {w w' : World State Task Sent} {turn : Turn Env Task}
    {emitted : List Sent}
    (h : Turned (fun env task state => task.resume rt code env state) w turn w' emitted) :
    ∃ op, Stored rt code w.shared.room op w'.shared.room := by
  cases h with
  | idle | spawned => exact ⟨_, .unchanged _ (.rematch code)⟩
  | @resumed index env t rest htask htasks =>
    simp only [room_resume]
    split
    next op hop => exact ⟨op, stored_step rt code w.shared.room op⟩
    next => exact ⟨_, .unchanged _ (.rematch code)⟩

/-- What every call preserves holds of the stored room. -/
theorem room_run {P : Option Room → Prop}
    (hP : ∀ slot op slot', Stored rt code slot op slot' → P slot → P slot') (hnone : P none)
    (turns : List (Turn Env Task)) : P ((publishing rt code).run idle turns).shared.room := by
  refine Machine.run_invariant (P := fun w : World State Task Sent => P w.shared.room)
    (fun e he hbefore => ?_) hnone
  obtain ⟨op, hstored⟩ := stored_of_turned (turned_of_mem_trace he)
  exact hP _ op _ hstored hbefore

/-! ### What is announced of a call -/

/-- An announcement of a call: the room it stored or found, or nothing when it stored nothing. A new
room is announced to nobody. -/
inductive Announced (slot slot' : Option Room) (tasks : List Task) : Prop
  | published (t : Task) (room : Room) (htasks : tasks = [t]) (ht : t.published? = some room)
      (hroom : slot' = some room)
  | silent (hsame : slot' = slot) (htasks : ∀ t ∈ tasks, t.published? = none ∧ t.forgets = false)
  | created (hnone : slot = none) (htasks : tasks = [])
  | gone (hnone : slot' = none) (htasks : ∀ t ∈ tasks, t.published? = none)

variable {φ ρ : Type} {u : RoomUpdate φ ρ} {result : Room → φ → ρ} {wrap : ρ → Reply}

/-- An update that keeps the room returns a value for what is stored. -/
theorem exists_stored_of_reply (hresult : u.result = RoomUpdate.keeping code result)
    (hrescue : ∀ e, u.rescue e = none)
    (h : (RoomOp.runUpdate code slot u wrap).2 = .ok reply) :
    ∃ room flags, (RoomOp.runUpdate code slot u wrap).1 = some room ∧
      reply = wrap (result room flags) := by
  obtain ⟨returned, hexecuted, rfl⟩ := RoomOp.executed_of_reply h
  cases hexecuted with
  | rescued e he => simp [hrescue] at he
  | same room flags hslot hmutate hstored hreturned =>
    rw [hresult] at hreturned
    exact ⟨room, flags, hstored, by rw [← Except.ok.inj hreturned]⟩
  | room room next flags hslot hmutate hstored hreturned =>
    rw [hresult] at hreturned
    exact ⟨_, flags, hstored, by rw [← Except.ok.inj hreturned]⟩
  | null room flags hslot hmutate hstored hreturned =>
    rw [hresult] at hreturned
    simp [RoomUpdate.keeping] at hreturned

theorem announced_expireChallenge {challengeId : JsString} {random : RandomIndex} {now : Instant}
    (h : ((RoomOp.expireChallenge challengeId random now).step rt code slot).2 = .ok reply) :
    Announced slot ((RoomOp.expireChallenge challengeId random now).step rt code slot).1
      (announcements (.expireChallenge challengeId random now) reply) := by
  obtain ⟨returned, hexecuted, rfl⟩ := RoomOp.executed_of_reply h
  cases hexecuted with
  | rescued e he hstored =>
    simp only [StartSongChallenge.expire] at he
    split at he
    · obtain rfl := Option.some.inj he
      exact .silent hstored (by simp [announcements])
    · simp at he
  | same room flags hslot hmutate hstored hreturned =>
    simp only [StartSongChallenge.expire] at hmutate
    split at hmutate
    next => simp at hmutate
    next updated hupdated =>
      cases updated with
      | some next => simp [Mutated.ofOption] at hmutate
      | none =>
        obtain rfl : false = flags := (Prod.mk.inj hmutate).1
        obtain rfl : none = returned := Except.ok.inj hreturned
        exact .silent (hstored.trans hslot.symm) (by simp [announcements])
  | room room next flags hslot hmutate hstored hreturned =>
    simp only [StartSongChallenge.expire] at hmutate
    split at hmutate
    next => simp at hmutate
    next updated hupdated =>
      cases updated with
      | none => simp [Mutated.ofOption] at hmutate
      | some next =>
        obtain rfl : true = flags := (Prod.mk.inj hmutate).1
        obtain rfl := Except.ok.inj hreturned
        exact .published _ _ rfl rfl hstored
  | null room flags hslot hmutate hstored hreturned =>
    simp [StartSongChallenge.expire, RoomUpdate.keeping] at hreturned

theorem announced_castVote {voterId : JsString} {dancerId : JsValue} {now : Instant}
    (h : ((RoomOp.castVote voterId dancerId now).step rt code slot).2 = .ok reply) :
    Announced slot ((RoomOp.castVote voterId dancerId now).step rt code slot).1
      (announcements (.castVote voterId dancerId now) reply) := by
  obtain ⟨returned, hexecuted, rfl⟩ := RoomOp.executed_of_reply h
  cases hexecuted with
  | rescued e he => simp [CastVote.execute] at he
  | same room flags hslot hmutate hstored hreturned =>
    simp only [CastVote.execute] at hmutate
    split at hmutate
    next => simp at hmutate
    next updated hupdated =>
      cases updated with
      | some next => simp [Mutated.ofOption] at hmutate
      | none =>
        obtain rfl : false = flags := (Prod.mk.inj hmutate).1
        obtain rfl := Except.ok.inj hreturned
        exact .silent (hstored.trans hslot.symm)
          (by simp [announcements, Task.published?, Task.forgets])
  | room room next flags hslot hmutate hstored hreturned =>
    simp only [CastVote.execute] at hmutate
    split at hmutate
    next => simp at hmutate
    next updated hupdated =>
      cases updated with
      | none => simp [Mutated.ofOption] at hmutate
      | some next =>
        obtain rfl : true = flags := (Prod.mk.inj hmutate).1
        obtain rfl := Except.ok.inj hreturned
        exact .published _ _ rfl rfl hstored
  | null room flags hslot hmutate hstored hreturned =>
    simp [CastVote.execute, RoomUpdate.keeping] at hreturned

/-- A player who joins, or had joined, is shown the room. -/
theorem published_join {playerId displayName : JsValue}
    (h : ((RoomOp.join playerId displayName).step rt code slot).2 = .ok reply) :
    ∃ room, ((RoomOp.join playerId displayName).step rt code slot).1 = some room ∧
      announcements (.join playerId displayName) reply = [.publishRoom room] := by
  simp only [RoomOp.step, RoomOp.runChecked] at h ⊢
  split at h
  next => simp at h
  next u hu =>
    obtain ⟨player, -, hv⟩ := bind_eq_ok.mp hu
    obtain rfl := pure_eq_ok.mp hv
    obtain ⟨room, flags, hstored, rfl⟩ := exists_stored_of_reply rfl (fun _ => rfl) h
    exact ⟨room, hstored, rfl⟩

/-- What a call returns is announced when it changed the room. -/
theorem announced_of_reply (h : (op.step rt code slot).2 = .ok reply) :
    Announced slot (op.step rt code slot).1 (announcements op reply) := by
  cases op with
  | create hostId displayName now =>
    cases slot with
    | none => exact .created rfl rfl
    | some room =>
      refine .silent ?_ (by simp [announcements])
      simp only [RoomOp.step, CreateRoom.attempt]
      split <;> rfl
  | join playerId displayName =>
    obtain ⟨room, hstored, htasks⟩ := published_join h
    exact .published _ room htasks rfl hstored
  | submitPhrase playerId text now random =>
    simp only [RoomOp.step, RoomOp.runChecked] at h ⊢
    split at h
    next => simp at h
    next u hu =>
      cases text with
      | string text =>
        obtain rfl := Except.ok.inj hu
        obtain ⟨room, flags, hstored, rfl⟩ := exists_stored_of_reply rfl (fun _ => rfl) h
        exact .published _ room rfl rfl hstored
      | _ => simp [SubmitSongPhrase.execute, JsValue.string?] at hu
  | leave playerId random now =>
    obtain ⟨room, updated, rfl, -, hstored, rfl⟩ := left_of_reply h
    rw [hstored]
    cases hslot : departedSlot room updated with
    | none => exact .gone rfl (by simp [announcements, Task.published?])
    | some room => exact .published _ _ rfl rfl rfl
  | expireChallenge => exact announced_expireChallenge h
  | castVote => exact announced_castVote h
  | finishAtDeadline battleId now =>
    rcases finished_of_reply h with ⟨rfl, hstored⟩ | ⟨room, rfl, rfl, hstored⟩ |
      ⟨room, battle, stored, rfl, -, -, -, -, -, rfl, hstored⟩
    · exact .silent hstored (by simp [announcements])
    · exact .published _ room rfl rfl hstored
    · exact .published _ stored rfl rfl hstored
  | autoPick challengeId random options =>
    obtain ⟨room, flags, hstored, rfl⟩ := exists_stored_of_reply rfl (fun _ => rfl) h
    refine .published (if flags.1 then .publishRoom room else .armRoomTimers room) room ?_ ?_
      hstored
    · simp only [announcements]
      split_ifs <;> rfl
    · split_ifs <;> rfl
  | rematch | kick | selectRole | setReady | startChallenge | chooseSong | startBattle
    | awardWordBonus =>
    obtain ⟨room, flags, hstored, rfl⟩ := exists_stored_of_reply rfl (fun _ => rfl) h
    exact .published _ room rfl rfl hstored

end Publishing

end DanceSync
