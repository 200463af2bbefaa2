import DanceSync.Application.Replies

/-!
# The rooms of all codes

`src/infrastructure/persistence/InMemoryRoomRepository.ts` keeps one room for each code, ignoring
case. A use case acts on the room of the code it is given and leaves the other rooms alone, so a
store of rooms is a room machine for each code.

A seat is a player in the room of a code. `room:join` takes a seat, `room:leave` and `player:kick`
free one, and none of them touches another seat.

## Main definitions

* `RoomStore`: the stored rooms by code, `RoomStore.call`.
* `SeatKey`, `seatKey`, `RoomStore.seated`.

## Main results

* `RoomStore.seated_of_join`, `RoomStore.seated_leave`, `RoomStore.seated_of_kick`: the seats after
  a call.
* `RoomStore.rejoined`: whoever is seated joins again.
-/

namespace DanceSync

/-- The stored rooms; each is kept under its code in upper case. -/
structure RoomStore (rt : Runtime) where
  room : JsString → Option Room
  code_eq : ∀ {key : JsString} {stored : Room}, room key = some stored →
    rt.toUpperCase stored.code = key

/-- A player in the room of a code. -/
abbrev SeatKey := JsString × JsString

/-- Room codes are drawn from letters and digits, so that the text `CODE:id` is a pair. -/
def seatKey (rt : Runtime) (roomCode playerId : JsString) : SeatKey :=
  (rt.toUpperCase roomCode, playerId)

/-- The players of a stored room, nobody when there is none. -/
def storedIds (slot : Option Room) : List JsString := (slot.map (·.playerIds)).getD []

@[simp] theorem storedIds_none : storedIds none = [] := rfl

@[simp] theorem storedIds_some (room : Room) : storedIds (some room) = room.playerIds := rfl

variable {rt : Runtime} {code playerId : JsString} {slot : Option Room} {reply : Reply}
  {now : Instant} {random : RandomIndex}

/-! ### The players of one room -/

section Slot

/-- `JoinRoom.execute` of a payload that passes `validatePlayer`. -/
theorem execute_of_valid (rt : Runtime) (code : JsString) {displayName wire : JsValue}
    {who : Identity}
    (hwho : validatePlayer wire displayName = .ok who) :
    JoinRoom.execute rt code wire displayName = .ok (RoomUpdate.plain code fun room =>
      if who.id ∈ room.playerIds then .ok .same
      else Mutated.room <$> RoomService.join rt room who) := by
  rw [JoinRoom.execute, hwho]
  rfl

/-- A `room:join` that is answered seats its player. -/
theorem joined_of_reply {displayName wire : JsValue}
    (h : ((RoomOp.join wire displayName).step rt code slot).2 = .ok reply) :
    ∃ who room next, validatePlayer wire displayName = .ok who ∧ slot = some room ∧
      reply = .room next ∧ ((RoomOp.join wire displayName).step rt code slot).1 = some next ∧
      next.code = room.code ∧ ∀ id, id ∈ next.playerIds ↔ id ∈ room.playerIds ∨ id = who.id := by
  cases hwho : validatePlayer wire displayName with
  | error e =>
    simp [RoomOp.step, RoomOp.runChecked, JoinRoom.execute, hwho] at h
  | ok who =>
    simp only [RoomOp.step, execute_of_valid rt code hwho, RoomOp.runChecked] at h ⊢
    obtain ⟨returned, hexecuted, rfl⟩ := RoomOp.executed_of_reply h
    cases hexecuted with
    | rescued e he => simp [RoomUpdate.plain] at he
    | same room flags hslot hmutate hstored hresult =>
      obtain rfl := Except.ok.inj hresult
      have hseated : who.id ∈ room.playerIds := by
        by_contra hnew
        have hdecide := congrArg Prod.snd hmutate
        simp only [RoomUpdate.plain, if_neg hnew] at hdecide
        cases hjoin : RoomService.join rt room who <;>
          simp [hjoin, Functor.map, Except.map] at hdecide
      refine ⟨who, room, room, rfl, hslot, rfl, hstored, rfl, fun id => ⟨Or.inl, ?_⟩⟩
      rintro (hid | rfl)
      · exact hid
      · exact hseated
    | room room next flags hslot hmutate hstored hresult =>
      obtain rfl := Except.ok.inj hresult
      have hdecide := congrArg Prod.snd hmutate
      simp only [RoomUpdate.plain] at hdecide
      split_ifs at hdecide with hseated
      · simp at hdecide
      · obtain ⟨-, -, -, p, hid, -, -, rfl⟩ :=
          RoomService.join_eq_ok (map_room_eq_ok.mp hdecide)
        refine ⟨who, room, _, rfl, hslot, rfl, hstored, rfl, fun id => ?_⟩
        simp [Room.playerIds, hid]
    | null room flags hslot hmutate =>
      have hdecide := congrArg Prod.snd hmutate
      simp only [RoomUpdate.plain] at hdecide
      split_ifs at hdecide
      · simp at hdecide
      · exact absurd hdecide (map_room_ne_null _)

/-- Whoever is seated joins again, and nothing changes. -/
theorem step_join_of_seated (rt : Runtime) (code : JsString) {displayName wire : JsValue}
    {who : Identity} {room : Room}
    (hwho : validatePlayer wire displayName = .ok who) (hseated : who.id ∈ room.playerIds) :
    (RoomOp.join wire displayName).step rt code (some room) = (some room, .ok (.room room)) := by
  have hmutate : ∀ u, JoinRoom.execute rt code wire displayName = .ok u →
      u.mutate u.initial room = ((), .ok .same) := by
    intro u hu
    rw [execute_of_valid rt code hwho] at hu
    obtain rfl := Except.ok.inj hu
    simp [RoomUpdate.plain, hseated]
  have hu := execute_of_valid rt code hwho
  simp only [RoomOp.step, hu, RoomOp.runChecked, RoomOp.runUpdate,
    RoomUpdate.execute_of_same (hmutate _ hu)]
  rfl

/-- Whoever is not seated cannot leave. -/
theorem step_leave_of_not_seated {room : Room} (hseated : playerId ∉ room.playerIds) :
    (RoomOp.leave playerId random now).step rt code (some room) =
      (some room, .error (.domain .playerNotInRoom
        (js "Player " ++ playerId ++ js " is not in room " ++ room.code))) := by
  have hmutate : (JoinRoom.leave rt playerId random now).mutate
      (JoinRoom.leave rt playerId random now).initial room = ((false, []), .error
        (.domain .playerNotInRoom
          (js "Player " ++ playerId ++ js " is not in room " ++ room.code))) := by
    simp only [JoinRoom.leave, RoomService.leave, throwIf, if_pos hseated]
    rfl
  simp only [RoomOp.step, RoomOp.runUpdate, RoomUpdate.execute_of_error hmutate]
  rfl

/-- Whoever is seated can leave. -/
theorem isOk_leave_of_seated (rt : Runtime) (code : JsString) (random : RandomIndex) (now : Instant)
    {room : Room} (hseated : playerId ∈ room.playerIds) :
    ∃ reply, ((RoomOp.leave playerId random now).step rt code (some room)).2 = .ok reply := by
  obtain ⟨updated, hleave⟩ := RoomService.exists_leave rt random now hseated
  have hdeparted := RoomService.leave_spec hleave
  by_cases hplayers : updated.players = []
  · have hmutate : ∃ flags, (JoinRoom.leave rt playerId random now).mutate
        (JoinRoom.leave rt playerId random now).initial room = (flags, .ok .null) := by
      simp [JoinRoom.leave, hleave, hplayers]
    obtain ⟨flags, hmutate⟩ := hmutate
    simp only [RoomOp.step, RoomOp.runUpdate, RoomUpdate.execute_of_null hmutate]
    exact ⟨_, rfl⟩
  · have hmutate : ∃ flags, (JoinRoom.leave rt playerId random now).mutate
        (JoinRoom.leave rt playerId random now).initial room = (flags, .ok (.room updated)) := by
      simp [JoinRoom.leave, hleave, hplayers]
    obtain ⟨flags, hmutate⟩ := hmutate
    simp only [RoomOp.step, RoomOp.runUpdate,
      RoomUpdate.execute_of_room hmutate hdeparted.version_eq]
    exact ⟨_, rfl⟩

/-- The players after a departure. -/
theorem mem_playerIds_of_departed {room updated : Room}
    (h : RoomService.Departed rt room playerId now updated) (id : JsString) :
    id ∈ updated.playerIds ↔ id ∈ room.playerIds ∧ id ≠ playerId := by
  simp only [Room.mem_playerIds, h.players_eq, List.mem_filter, decide_eq_true_eq]
  constructor
  · rintro ⟨p, ⟨hp, hne⟩, rfl⟩
    exact ⟨⟨p, hp, rfl⟩, hne⟩
  · rintro ⟨⟨p, hp, rfl⟩, hne⟩
    exact ⟨p, ⟨hp, hne⟩, rfl⟩

/-- A departure frees the seat of the player and no other; when it throws, the seat was free. -/
theorem mem_storedIds_leave (rt : Runtime) (code playerId : JsString) (slot : Option Room)
    (random : RandomIndex) (now : Instant) (id : JsString) :
    id ∈ storedIds ((RoomOp.leave playerId random now).step rt code slot).1 ↔
      id ∈ storedIds slot ∧ id ≠ playerId := by
  cases slot with
  | none => simp [RoomOp.step, RoomOp.runUpdate, RoomUpdate.execute_none]
  | some room =>
    by_cases hseated : playerId ∈ room.playerIds
    · obtain ⟨updated, hdeparted, hstep⟩ := step_leave_of_seated rt code random now hseated
      rw [hstep, storedIds_some, ← mem_playerIds_of_departed hdeparted, departedSlot]
      split_ifs with hplayers
      · simp [Room.playerIds, hplayers]
      · rfl
    · rw [step_leave_of_not_seated hseated, storedIds_some]
      exact ⟨fun hid => ⟨hid, fun heq => hseated (heq ▸ hid)⟩, And.left⟩

/-- A departure throws nothing but a domain error. -/
theorem domain_of_leave_error {e : JsError}
    (h : ((RoomOp.leave playerId random now).step rt code slot).2 = .error e) :
    ∃ errorCode message, e = .domain errorCode message := by
  cases slot with
  | none => exact ⟨_, _, (Except.error.inj h).symm⟩
  | some room =>
    by_cases hseated : playerId ∈ room.playerIds
    · obtain ⟨reply, hreply⟩ := isOk_leave_of_seated rt code random now hseated
      simp [hreply] at h
    · rw [step_leave_of_not_seated hseated] at h
      exact ⟨_, _, (Except.error.inj h).symm⟩

/-- A kick that is answered frees the seat of the kicked player. -/
theorem kicked_of_reply {requesterId : JsString} {wire : JsValue}
    (h : ((RoomOp.kick requesterId wire random now).step rt code slot).2 = .ok reply) :
    ∃ id room next, wire = .string id ∧ slot = some room ∧ reply = .room next ∧
      ((RoomOp.kick requesterId wire random now).step rt code slot).1 = some next ∧
      next.code = room.code ∧ ∀ q, q ∈ next.playerIds ↔ q ∈ room.playerIds ∧ q ≠ id := by
  obtain ⟨returned, hexecuted, rfl⟩ := RoomOp.executed_of_reply h
  cases hexecuted with
  | rescued e he => simp [KickPlayer.execute, RoomUpdate.plain] at he
  | same room flags hslot hmutate | null room flags hslot hmutate =>
    have hdecide := congrArg Prod.snd hmutate
    simp only [KickPlayer.execute, RoomUpdate.plain] at hdecide
    cases hkick : RoomService.kick rt room requesterId wire random now <;>
      simp [hkick, Functor.map, Except.map] at hdecide
  | room room next flags hslot hmutate hstored hresult =>
    have hdecide := congrArg Prod.snd hmutate
    obtain ⟨-, -, id, rfl, -, hdeparted⟩ :=
      RoomService.kick_eq_ok (map_room_eq_ok.mp hdecide)
    obtain rfl := Except.ok.inj hresult
    exact ⟨id, room, _, rfl, hslot, rfl, hstored, hdeparted.frame.1,
      fun q => mem_playerIds_of_departed hdeparted q⟩

end Slot

/-! ### The rooms of all codes -/

namespace RoomStore

variable {store : RoomStore rt}

/-- The code of the room stays when an input changes it. -/
theorem code_of_stored {rt : Runtime} {code : JsString} {slot slot' : Option Room} {op : RoomOp}
    (h : Stored rt code slot op slot') :
    ∀ next ∈ slot', next.code = code ∨ ∃ room ∈ slot, next.code = room.code := by
  intro next hnext
  cases h with
  | unchanged => exact Or.inr ⟨next, hnext, rfl⟩
  | created =>
    obtain rfl := Option.some.inj hnext
    exact Or.inl rfl
  | changed hchange =>
    obtain rfl := Option.some.inj hnext
    exact Or.inr ⟨_, rfl, hchange.frame.1⟩
  | deleted => simp at hnext

/-- A call of a use case on the room of a code. -/
def call (store : RoomStore rt) (code : JsString) (op : RoomOp) :
    RoomStore rt × Except JsError Reply :=
  let answer := op.step rt code (store.room (rt.toUpperCase code))
  ({ room := Function.update store.room (rt.toUpperCase code) answer.1
     code_eq := by
      intro key stored hstored
      rw [Function.update_apply] at hstored
      split_ifs at hstored with hkey
      · subst hkey
        rcases code_of_stored (step_spec rt code _ op) stored hstored with h | ⟨room, hroom, h⟩
        · rw [h]
        · rw [h]
          exact store.code_eq hroom
      · exact store.code_eq hstored }, answer.2)

/-- The seat is taken in the stored rooms. -/
def seated (store : RoomStore rt) (seat : SeatKey) : Bool :=
  seat.2 ∈ storedIds (store.room seat.1)

theorem seated_iff {seat : SeatKey} :
    store.seated seat ↔ seat.2 ∈ storedIds (store.room seat.1) := by
  simp [seated]

/-- A call touches no other code; the seats of its own are those of the room it leaves. -/
theorem seated_call {op : RoomOp} {seat : SeatKey} :
    (store.call code op).1.seated seat ↔ if seat.1 = rt.toUpperCase code
      then seat.2 ∈ storedIds (op.step rt code (store.room (rt.toUpperCase code))).1
      else store.seated seat := by
  rw [seated_iff, seated_iff]
  split_ifs with hkey <;> simp [call, hkey]

/-- A call that throws changes nothing. -/
theorem call_of_error {op : RoomOp} {e : JsError} (h : (store.call code op).2 = .error e) :
    (store.call code op).1 = store := by
  have hslot := (answered rt code (store.room (rt.toUpperCase code)) op).refused e h
  obtain ⟨room, code_eq⟩ := store
  rw [RoomStore.mk.injEq]
  exact (congrArg _ hslot).trans (Function.update_eq_self _ _)

/-- A `room:join` that is answered takes the seat of its player and no other. -/
theorem seated_of_join {displayName wire : JsValue}
    (h : (store.call code (.join wire displayName)).2 = .ok reply) :
    ∃ who room, validatePlayer wire displayName = .ok who ∧ reply = .room room ∧
      rt.toUpperCase room.code = rt.toUpperCase code ∧
      ∀ seat, (store.call code (.join wire displayName)).1.seated seat ↔
        store.seated seat ∨ seat = seatKey rt code who.id := by
  obtain ⟨who, room, next, hwho, hslot, hreply, hstored, hcode, hids⟩ := joined_of_reply h
  refine ⟨who, next, hwho, hreply, by rw [hcode, store.code_eq hslot], fun seat => ?_⟩
  rw [seated_call, hstored, storedIds_some, hids, seated_iff, seatKey, Prod.ext_iff]
  split_ifs with hkey
  · rw [hkey, hslot, storedIds_some]
    simp
  · simp [hkey]

/-- A departure frees the seat of the player and no other; when it throws, the seat was free. -/
theorem seated_leave {seat : SeatKey} :
    (store.call code (.leave playerId random now)).1.seated seat ↔
      store.seated seat ∧ seat ≠ seatKey rt code playerId := by
  rw [seated_call, mem_storedIds_leave, seated_iff, seatKey, ne_eq seat, Prod.ext_iff]
  split_ifs with hkey <;> simp [hkey]

/-- A kick that is answered frees the seat of the kicked player and no other. -/
theorem seated_of_kick {requesterId : JsString} {wire : JsValue}
    (h : (store.call code (.kick requesterId wire random now)).2 = .ok reply) :
    ∃ id room, wire = .string id ∧ reply = .room room ∧
      rt.toUpperCase room.code = rt.toUpperCase code ∧
      ∀ seat, (store.call code (.kick requesterId wire random now)).1.seated seat ↔
        store.seated seat ∧ seat ≠ seatKey rt code id := by
  obtain ⟨id, room, next, hwire, hslot, hreply, hstored, hcode, hids⟩ := kicked_of_reply h
  refine ⟨id, next, hwire, hreply, by rw [hcode, store.code_eq hslot], fun seat => ?_⟩
  rw [seated_call, hstored, storedIds_some, hids, seated_iff, seatKey, ne_eq seat, Prod.ext_iff]
  split_ifs with hkey
  · rw [hkey, hslot, storedIds_some]
    simp
  · simp [hkey]

/-- Whoever is seated joins again. -/
theorem rejoined {displayName wire : JsValue} {who : Identity}
    (hwho : validatePlayer wire displayName = .ok who)
    (hseated : store.seated (seatKey rt code who.id)) :
    ∃ room, (store.call code (.join wire displayName)).2 = .ok (.room room) := by
  rw [seated_iff, seatKey] at hseated
  cases hslot : store.room (rt.toUpperCase code) with
  | none => simp [hslot] at hseated
  | some room =>
    rw [hslot, storedIds_some] at hseated
    have hstep := step_join_of_seated rt code hwho hseated
    exact ⟨room, by simp only [call, hslot, hstep]⟩

end RoomStore

end DanceSync
