import DanceSync.Application.Retries
import DanceSync.Machine.CompareAndSet

/-!
# A room in a store that compares and sets

`RoomRepository.update` as its port documents it for a database, in
`src/domain/ports/RoomRepository.ts`, and as `RemoteRoomStore` of
`test/room.concurrency.test.ts` implements it: the room is read, the mutation runs on it, and its
result is written by a statement that compares the version; when somebody wrote in between, the
room is read again, up to `maxAttempts` times. Reading and comparing are one request each, and any
number of commands make theirs in any order.

A version is compared and not the room, so that a room that was deleted and created again could be
taken for the one that was read. Commands that create the room are left out: while nobody creates
it again, the commands have the effect and the answers of commands on the in-memory store.

## Main definitions

* `RoomUpdate.remote`, `RoomCommand.remote`: a use case as an operation on a versioned row.
* `remoteRoomStore`: the machine of all requests.

## Main results

* `remote_room_store_linearizes`.
-/

namespace DanceSync

open CompareAndSet

/-! ### A use case on the store -/

namespace RoomUpdate

variable {φ ρ : Type} (u : RoomUpdate φ ρ) (code : JsString)

/-- One pass of the loop of `update`, with the answer that the use case makes of it. -/
def attempt (discarded : List Room) (current : Room) : Attempt Room (Except JsError ρ) :=
  match u.mutate (u.discardedRuns discarded) current with
  | (_, .error e) => .answers (u.caught e)
  | (flags, .ok .same) => .answers (u.result (some current) flags)
  | (flags, .ok (.room next)) =>
    let stored := { next with version := current.version + 1 }
    .writes (some stored) (u.result (some stored) flags)
  | (flags, .ok .null) => .writes none (u.result none flags)

/-- Every attempt lost against another writer. -/
def gaveUp (maxAttempts : ℕ) : JsError :=
  .other (js "Gave up updating room " ++ code ++ js " after " ++ JsString.decimal maxAttempts ++
    js " conflicting attempts")

variable {u}

/-- What a discarded attempt captured does not matter to a use case that assigns its variables
anew. -/
theorem attempt_of_restarts (h : u.Restarts) (discarded : List Room) (current : Room) :
    u.attempt discarded current = u.attempt [] current := by
  rcases h current with ⟨flags, m, hdecide⟩ | ⟨e, -, hthrow⟩
  · simp only [attempt, hdecide]
  · have hanswer : ∀ discarded, u.attempt discarded current = .answers (u.caught e) := by
      intro discarded
      have hlast := hthrow (u.discardedRuns discarded)
      rcases hmutate : u.mutate (u.discardedRuns discarded) current with ⟨flags, answer⟩
      obtain rfl : answer = .error e := by rw [← hlast, hmutate]
      simp only [attempt, hmutate]
    rw [hanswer, hanswer]

/-- A use case whose mutation assigns its variables anew, as an operation on the row of its
room. -/
def remote (h : u.Restarts) (maxAttempts : ℕ) : Operation Room.version (Except JsError ρ) where
  attempt := u.attempt
  absent := u.caught (.domain .roomNotFound (js "Room " ++ code ++ js " does not exist"))
  gaveUp := u.caught (gaveUp code maxAttempts)
  restarts := attempt_of_restarts h
  version_succ := by
    intro v next answer hattempt
    unfold attempt at hattempt
    split at hattempt <;> simp only [Attempt.writes.injEq, reduceCtorEq, Option.some.injEq,
      false_and] at hattempt
    rw [← hattempt.1]

/-- In one step the operation does what the use case does on the in-memory store. -/
theorem apply_remote (h : u.Restarts) (maxAttempts : ℕ)
    (hversion : ∀ room next, u.decide room = .ok (.room next) → next.version = room.version)
    (slot : Option Room) : (u.remote code h maxAttempts).apply slot = u.execute code slot := by
  cases slot with
  | none => rfl
  | some room =>
    have hruns : u.discardedRuns [] = u.initial := rfl
    rcases hmutate : u.mutate u.initial room with ⟨flags, e | (_ | next | _)⟩
    · simp [execute_of_error hmutate, Operation.apply, remote, attempt, hruns, hmutate]
    · simp [execute_of_same hmutate, Operation.apply, remote, attempt, hruns, hmutate]
    · have hnext := hversion room next (by rw [decide, hmutate])
      simp [execute_of_room hmutate hnext, Operation.apply, remote, attempt, hruns, hmutate]
    · simp [execute_of_null hmutate, Operation.apply, remote, attempt, hruns, hmutate]

/-- A use case without captured variables assigns none. -/
theorem plain_restarts {code : JsString} {decide : Room → Except JsError Mutated} :
    (RoomUpdate.plain code decide).Restarts := by
  intro room
  cases h : decide room with
  | error e => exact Or.inr ⟨e, rfl, fun _ => h⟩
  | ok m => exact Or.inl ⟨(), m, fun _ => congrArg _ h⟩

end RoomUpdate

/-! ### Commands -/

/-- The call updates a room that exists. -/
def RoomOp.updates : RoomOp → Bool
  | .create .. => false
  | _ => true

/-- A call that updates the room of a code. -/
abbrev RoomCommand := { op : RoomOp // op.updates = true }

/-- A use case around `rooms.update` with the reply that its result makes; its mutation assigns its
variables anew, and leaves the version to the store. -/
structure Updating where
  {φ ρ : Type}
  update : RoomUpdate φ ρ
  reply : ρ → Reply
  restarts : update.Restarts
  version_eq : ∀ room next, update.decide room = .ok (.room next) → next.version = room.version

/-- A use case that only makes changes. -/
def Updating.ofKeeps {φ ρ : Type} (rt : Runtime) {u : RoomUpdate φ ρ} {op : RoomOp}
    (restarts : u.Restarts) (keeps : ∀ room, Keeps rt u room op) (reply : ρ → Reply) :
    Updating where
  update := u
  reply
  restarts
  version_eq room next h := ((keeps room).change next h).version_eq

theorem join_restarts {rt : Runtime} {code : JsString} {playerId displayName : JsValue}
    {u : RoomUpdate Unit Room} (h : JoinRoom.execute rt code playerId displayName = .ok u) :
    u.Restarts := by
  obtain ⟨player, -, hu⟩ := bind_eq_ok.mp h
  rw [← pure_eq_ok.mp hu]
  exact RoomUpdate.plain_restarts

namespace RoomCommand

variable (rt : Runtime) (code : JsString)

/-- The use case of a command, unless it is refused before the store is asked. -/
def updating : RoomCommand → Except JsError Updating
  | ⟨.create .., h⟩ => nomatch h
  | ⟨.join playerId displayName, _⟩ =>
    match h : JoinRoom.execute rt code playerId displayName with
    | .error e => .error e
    | .ok _ => .ok (.ofKeeps rt (join_restarts h) (fun _ => keeps_join h) .room)
  | ⟨.leave playerId random now, _⟩ => .ok
    { update := JoinRoom.leave rt playerId random now
      reply := .left
      restarts := leave_restarts rt playerId random now
      version_eq _ _ := version_eq_of_decide_leave }
  | ⟨.kick requesterId playerId random now, _⟩ => .ok
    (.ofKeeps rt RoomUpdate.plain_restarts
      (fun _ => @keeps_kick rt code _ requesterId playerId random now) .room)
  | ⟨.selectRole playerId role, _⟩ => .ok
    (.ofKeeps rt RoomUpdate.plain_restarts
      (fun _ => @keeps_selectRole rt code _ playerId role) .room)
  | ⟨.setReady playerId ready, _⟩ => .ok
    (.ofKeeps rt RoomUpdate.plain_restarts
      (fun _ => @keeps_setReady rt code _ playerId ready) .room)
  | ⟨.startChallenge requesterId options, _⟩ => .ok
    (.ofKeeps rt RoomUpdate.plain_restarts
      (fun _ => @keeps_startChallenge rt code _ requesterId options) .room)
  | ⟨.submitPhrase playerId text now random, _⟩ =>
    match text.string? with
    | none => .error (.domain .invalidMessage (js "The typed phrase must be text"))
    | some typed => .ok
      (.ofKeeps rt (submitPhrase_restarts rt code playerId typed now random)
        (fun _ => keeps_submitPhrase playerId typed now random) fun r => .submitted r.1 r.2)
  | ⟨.expireChallenge challengeId random now, _⟩ => .ok
    (.ofKeeps rt (expire_restarts code challengeId random now)
      (fun _ => keeps_expireChallenge challengeId random now) .expired)
  | ⟨.chooseSong playerId songId options, _⟩ => .ok
    (.ofKeeps rt (chooseSong_restarts rt code playerId songId options)
      (fun _ => keeps_chooseSong playerId songId options) fun r => .chosen r.1 r.2)
  | ⟨.autoPick challengeId random options, _⟩ => .ok
    (.ofKeeps rt (autoPick_restarts rt code challengeId random options)
      (fun _ => keeps_autoPick challengeId random options) .picked)
  | ⟨.startBattle requesterId dancerIds options, _⟩ => .ok
    (.ofKeeps rt RoomUpdate.plain_restarts
      (fun _ => @keeps_startBattle rt code _ requesterId dancerIds options) .room)
  | ⟨.castVote voterId dancerId now, _⟩ => .ok
    (.ofKeeps rt (castVote_restarts rt code voterId dancerId now)
      (fun _ => keeps_castVote voterId dancerId now) .voted)
  | ⟨.awardWordBonus playerId, _⟩ => .ok
    (.ofKeeps rt RoomUpdate.plain_restarts
      (fun _ => @keeps_awardWordBonus rt code _ playerId) .room)
  | ⟨.finishAtDeadline battleId now, _⟩ => .ok
    (.ofKeeps rt (finishAtDeadline_restarts rt code battleId now)
      (fun _ => keeps_finishAtDeadline battleId now) .finished)
  | ⟨.rematch requesterId, _⟩ => .ok
    (.ofKeeps rt (rematch_restarts code requesterId)
      (fun _ => keeps_rematch requesterId) fun r => .rematched r.1 r.2)

/-- A command as an operation on the row of its room. -/
def remote (maxAttempts : ℕ) (command : RoomCommand) :
    Operation Room.version (Except JsError Reply) :=
  match command.updating rt code with
  | .error e => .constant (.error e)
  | .ok u => (u.update.remote code u.restarts maxAttempts).map (u.reply <$> ·)

theorem step_eq (command : RoomCommand) (slot : Option Room) :
    command.1.step rt code slot =
      match command.updating rt code with
      | .error e => (slot, .error e)
      | .ok u => RoomOp.runUpdate code slot u.update u.reply := by
  obtain ⟨op, h⟩ := command
  cases op with
  | create => cases h
  | join playerId displayName =>
    show RoomOp.runChecked code slot (JoinRoom.execute rt code playerId displayName) .room = _
    cases hexecute : JoinRoom.execute rt code playerId displayName with
    | error e =>
      have hupdating : updating rt code ⟨.join playerId displayName, h⟩ = .error e := by
        simp only [updating]
        split
        next e' he => exact congrArg _ (Except.error.inj (he.symm.trans hexecute))
        next u hu => simp [hu] at hexecute
      rw [hupdating]
      rfl
    | ok u =>
      have hupdating : updating rt code ⟨.join playerId displayName, h⟩ =
          .ok (.ofKeeps rt (join_restarts hexecute) (fun _ => keeps_join hexecute) .room) := by
        simp only [updating]
        split
        next e he => simp [he] at hexecute
        next u' hu =>
          obtain rfl := Except.ok.inj (hu.symm.trans hexecute)
          rfl
      rw [hupdating]
      rfl
  | submitPhrase playerId text now random => cases text <;> rfl
  | _ => rfl

/-- In one step a command does what it does on the in-memory store. -/
theorem apply_remote (maxAttempts : ℕ) (command : RoomCommand) (slot : Option Room) :
    (command.remote rt code maxAttempts).apply slot = command.1.step rt code slot := by
  rw [step_eq, remote]
  split
  next e _ => exact Operation.apply_constant ..
  next u _ =>
    rw [Operation.apply_map, RoomUpdate.apply_remote code u.restarts maxAttempts u.version_eq]
    rfl

end RoomCommand

/-! ### The store -/

/-- The store with its commands. -/
abbrev RemoteRoomStore (ι : Type) := Store ι Room.version (Except JsError Reply)

/-- All interleavings of the requests of some commands on one room. -/
def remoteRoomStore (ι : Type) [DecidableEq ι] (maxAttempts : ℕ) :
    Machine (RemoteRoomStore ι) ι Unit :=
  compareAndSet Room.version (Except JsError Reply) maxAttempts

namespace RemoteRoomStore

variable {ι : Type} [DecidableEq ι]

/-- All commands begin with this room. -/
def start (rt : Runtime) (code : JsString) (maxAttempts : ℕ) (slot : Option Room)
    (commands : ι → RoomCommand) : RemoteRoomStore ι :=
  Store.start slot fun i => (commands i).remote rt code maxAttempts

/-- The command has returned. -/
def Returned (s : RemoteRoomStore ι) (i : ι) (answer : Except JsError Reply) : Prop :=
  (s.calls i).phase = .returned answer

end RemoteRoomStore

variable {ι : Type} [DecidableEq ι]

theorem atomic_remote (rt : Runtime) (code : JsString) (maxAttempts : ℕ) (slot : Option Room)
    (commands : List RoomCommand) :
    atomic.run slot (commands.map (·.remote rt code maxAttempts)) =
        (roomMachine rt code).run slot (commands.map (·.1)) ∧
      (atomic.trace slot (commands.map (·.remote rt code maxAttempts))).map (·.output) =
        ((roomMachine rt code).trace slot (commands.map (·.1))).map (·.output) := by
  induction commands generalizing slot with
  | nil => exact ⟨rfl, rfl⟩
  | cons command commands ih =>
    have hstep := command.apply_remote rt code maxAttempts slot
    have hnext : atomic.next slot (command.remote rt code maxAttempts) =
        (roomMachine rt code).next slot command.1 := congrArg Prod.fst hstep
    have houtput : (atomic.event slot (command.remote rt code maxAttempts)).output =
        ((roomMachine rt code).event slot command.1).output := congrArg Prod.snd hstep
    simp only [List.map_cons, Machine.run_cons, Machine.trace_cons, hnext, houtput]
    exact ⟨(ih _).1, congrArg _ (ih _).2⟩

/-- However the requests of the commands interleave, the commands that took effect have an order in
which the in-memory store leaves the same room and gives the same answers; a command takes its
place in the order, behind all that took effect before, while it makes its requests. With an
attempt for each command none of them gives up, and a command returns after at most two requests
for each attempt, and one more. -/
theorem remote_room_store_linearizes (rt : Runtime) (code : JsString) (maxAttempts : ℕ)
    (slot : Option Room) (commands : ι → RoomCommand) (schedule : List ι) :
    let s := (remoteRoomStore ι maxAttempts).run
      (.start rt code maxAttempts slot commands) schedule
    s.order.Nodup ∧ (∀ i ∈ s.order, i ∈ schedule) ∧
      (∀ before after, schedule = before ++ after → ((remoteRoomStore ι maxAttempts).run
        (.start rt code maxAttempts slot commands) before).order <+: s.order) ∧
      s.row = (roomMachine rt code).run slot (s.order.map fun i => (commands i).1) ∧
      (s.order.map fun i => (s.calls i).phase) =
        ((roomMachine rt code).trace slot (s.order.map fun i => (commands i).1)).map
          (fun e => .returned e.output) ∧
      (schedule.toFinset.card ≤ maxAttempts → ∀ i answer, s.Returned i answer → i ∈ s.order) ∧
      ∀ i, 2 * maxAttempts + 1 ≤ schedule.count i → ∃ answer, s.Returned i answer := by
  intro s
  have h : Linearized maxAttempts (fun i => (commands i).remote rt code maxAttempts) slot s :=
    Linearized.run ..
  have horder : s.order.map (fun i => (commands i).remote rt code maxAttempts) =
      (s.order.map commands).map (·.remote rt code maxAttempts) := by rw [List.map_map]; rfl
  have hops : (s.order.map commands).map (·.1) = s.order.map fun i => (commands i).1 := by
    rw [List.map_map]; rfl
  obtain ⟨hrun, htrace⟩ := atomic_remote rt code maxAttempts slot (s.order.map commands)
  rw [hops] at hrun htrace
  refine ⟨h.nodup, fun i => Linearized.mem_schedule_of_mem_order, fun before after hsplit => ?_,
    ?_, ?_, fun hcard i answer hanswer => ?_, fun i hcount => ?_⟩
  · show _ <+: ((remoteRoomStore ι maxAttempts).run _ schedule).order
    rw [hsplit, Machine.run_append]
    exact Linearized.order_prefix _ after
  · rw [h.row, horder, hrun]
  · have houtputs := congrArg
      (List.map fun answer => (Phase.returned answer : Phase Room (Except JsError Reply))) htrace
    simp only [List.map_map] at houtputs
    rw [h.answers, horder, List.map_map]
    exact houtputs
  · exact Linearized.mem_order_of_returned hcard (fun i hi => List.mem_toFinset.mpr hi) hanswer
  · exact returned_of_count hcount

end DanceSync
