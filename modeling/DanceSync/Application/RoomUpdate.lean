import DanceSync.Domain.RoomService

/-!
# Updating a stored room

`src/infrastructure/persistence/InMemoryRoomRepository.ts` on the room of one code, and
`src/application/roomUpdates.ts`. Reading, deciding, checking the version and writing are one
atomic step. A use case captures variables from inside the mutation it hands to the store.

## Main definitions

* `Mutated`: what a mutation returns.
* `InMemoryRoomRepository.insert`, `InMemoryRoomRepository.update`.
* `RoomUpdate`, `RoomUpdate.execute`: a use case around an update.

## Main results

* `RoomUpdate.execute_of_error`, `RoomUpdate.execute_of_same`, `RoomUpdate.execute_of_room`,
  `RoomUpdate.execute_of_null`: what is stored and returned, by what the mutation returned.
* `RoomUpdate.executed`: how a use case came to return a value.
* `RoomUpdate.fst_execute_of_error`: a use case that throws stores nothing.
-/

namespace DanceSync

/-- What a `RoomMutation` returns. -/
inductive Mutated where
  /-- The very room it received: nothing is written. -/
  | same
  /-- A new room: it is stored. -/
  | room (next : Room)
  /-- `null`: the room is deleted. -/
  | null

/-- `updated ?? current` of a function that answers `none` when nothing changes. -/
def Mutated.ofOption : Option Room → Mutated
  | none => .same
  | some next => .room next

namespace InMemoryRoomRepository

/-- Stores a new room unless the code is taken. -/
def insert (slot : Option Room) (room : Room) : Option Room × Bool :=
  match slot with
  | some current => (some current, false)
  | none => (some room, true)

/-- Applies a mutation to the stored room of a code. -/
def update (code : JsString) (slot : Option Room) (mutate : Room → Except JsError Mutated) :
    Option Room × Except JsError (Option Room) :=
  match slot with
  | none => (none, .error (.domain .roomNotFound (js "Room " ++ code ++ js " does not exist")))
  | some current =>
    match mutate current with
    | .error e => (some current, .error e)
    | .ok .same => (some current, .ok (some current))
    | .ok .null => (none, .ok none)
    | .ok (.room next) =>
      -- The new state must derive from the state just read.
      if next.version ≠ current.version then
        (some current, .error (.other (js "Stale write to room " ++ code ++
          js ": based on version " ++ JsString.decimal next.version ++
          js ", stored version is " ++ JsString.decimal current.version)))
      else
        let stored := { next with version := current.version + 1 }
        (some stored, .ok (some stored))

end InMemoryRoomRepository

/-- A use case around `rooms.update`: `φ` are the variables its mutation assigns, `ρ` is what it
returns. -/
structure RoomUpdate (φ ρ : Type) where
  /-- The captured variables before the mutation runs. -/
  initial : φ
  mutate : φ → Room → φ × Except JsError Mutated
  /-- What is returned for the stored room, `none` when it was deleted. -/
  result : Option Room → φ → Except JsError ρ
  /-- The errors that are caught, with what is returned for them. -/
  rescue : JsError → Option ρ := fun _ => none

namespace RoomUpdate

variable {φ ρ : Type}

/-- `updateRoom`: the mutation always keeps the room. -/
def keeping (code : JsString) (result : Room → φ → ρ) : Option Room → φ → Except JsError ρ
  | some room, flags => .ok (result room flags)
  | none, _ => .error (.other
      (js "Room " ++ code ++ js " disappeared during an update that keeps it"))

/-- An error, unless it is caught. -/
def caught (u : RoomUpdate φ ρ) (e : JsError) : Except JsError ρ :=
  match u.rescue e with
  | some r => .ok r
  | none => .error e

/-- Runs a use case on the stored room of a code. -/
def execute (u : RoomUpdate φ ρ) (code : JsString) (slot : Option Room) :
    Option Room × Except JsError ρ :=
  let flags := match slot with
    | some current => (u.mutate u.initial current).1
    | none => u.initial
  let updated := InMemoryRoomRepository.update code slot fun current =>
    (u.mutate u.initial current).2
  (updated.1, match updated.2 with
    | .error e => u.caught e
    | .ok stored => u.result stored flags)

variable {u : RoomUpdate φ ρ} {code : JsString} {room next : Room} {flags : φ}

theorem execute_none : u.execute code none = (none, u.caught
    (.domain .roomNotFound (js "Room " ++ code ++ js " does not exist"))) := rfl

theorem execute_of_error {e : JsError} (h : u.mutate u.initial room = (flags, .error e)) :
    u.execute code (some room) = (some room, u.caught e) := by
  simp [execute, InMemoryRoomRepository.update, h]

theorem execute_of_same (h : u.mutate u.initial room = (flags, .ok .same)) :
    u.execute code (some room) = (some room, u.result (some room) flags) := by
  simp [execute, InMemoryRoomRepository.update, h]

theorem execute_of_null (h : u.mutate u.initial room = (flags, .ok .null)) :
    u.execute code (some room) = (none, u.result none flags) := by
  simp [execute, InMemoryRoomRepository.update, h]

theorem execute_of_room (h : u.mutate u.initial room = (flags, .ok (.room next)))
    (hversion : next.version = room.version) :
    u.execute code (some room) = (some { next with version := room.version + 1 },
      u.result (some { next with version := room.version + 1 }) flags) := by
  simp [execute, InMemoryRoomRepository.update, h, hversion]

/-- What a use case decides on a stored room. -/
def decide (u : RoomUpdate φ ρ) (room : Room) : Except JsError Mutated :=
  (u.mutate u.initial room).2

/-- A stored room stays, is replaced by a room that derives from it, or is deleted. -/
theorem fst_execute_cases (u : RoomUpdate φ ρ) (code : JsString) (room : Room) :
    (u.execute code (some room)).1 = some room ∨
      (∃ next, u.decide room = .ok (.room next) ∧
        (u.execute code (some room)).1 = some { next with version := room.version + 1 }) ∨
      (u.decide room = .ok .null ∧ (u.execute code (some room)).1 = none) := by
  rcases hmutate : u.mutate u.initial room with ⟨flags, e | (_ | next | _)⟩
  · exact Or.inl (by rw [execute_of_error hmutate])
  · exact Or.inl (by rw [execute_of_same hmutate])
  · by_cases hversion : next.version = room.version
    · refine Or.inr (Or.inl ⟨next, by rw [decide, hmutate], ?_⟩)
      rw [execute_of_room hmutate hversion]
    · exact Or.inl (by simp [execute, InMemoryRoomRepository.update, hmutate, hversion])
  · exact Or.inr (Or.inr ⟨by rw [decide, hmutate], by rw [execute_of_null hmutate]⟩)

/-- The ways in which a use case returns a value. -/
inductive Executed (u : RoomUpdate φ ρ) (code : JsString) (slot : Option Room) (returned : ρ) :
    Prop
  | rescued (e : JsError) (h : u.rescue e = some returned)
    (hstored : (u.execute code slot).1 = slot)
  | same (room : Room) (flags : φ) (hslot : slot = some room)
      (h : u.mutate u.initial room = (flags, .ok .same))
      (hstored : (u.execute code slot).1 = some room)
      (hresult : u.result (some room) flags = .ok returned)
  | room (room next : Room) (flags : φ) (hslot : slot = some room)
      (h : u.mutate u.initial room = (flags, .ok (.room next)))
      (hstored : (u.execute code slot).1 = some { next with version := room.version + 1 })
      (hresult : u.result (some { next with version := room.version + 1 }) flags = .ok returned)
  | null (room : Room) (flags : φ) (hslot : slot = some room)
      (h : u.mutate u.initial room = (flags, .ok .null))
      (hstored : (u.execute code slot).1 = none) (hresult : u.result none flags = .ok returned)

theorem eq_ok_of_caught {e : JsError} {returned : ρ} (h : u.caught e = .ok returned) :
    u.rescue e = some returned := by
  unfold caught at h
  split at h
  next r hr => rwa [← Except.ok.inj h]
  next => simp at h

theorem executed {slot : Option Room} {returned : ρ}
    (h : (u.execute code slot).2 = .ok returned) : u.Executed code slot returned := by
  cases slot with
  | none =>
    rw [execute_none] at h
    exact .rescued _ (eq_ok_of_caught h) (by rw [execute_none])
  | some room =>
    rcases hmutate : u.mutate u.initial room with ⟨flags, e | (_ | next | _)⟩
    · rw [execute_of_error hmutate] at h
      exact .rescued e (eq_ok_of_caught h) (by rw [execute_of_error hmutate])
    · rw [execute_of_same hmutate] at h
      exact .same room flags rfl hmutate (by rw [execute_of_same hmutate]) h
    · by_cases hversion : next.version = room.version
      · rw [execute_of_room hmutate hversion] at h
        exact .room room next flags rfl hmutate (by rw [execute_of_room hmutate hversion]) h
      · refine .rescued _ (eq_ok_of_caught (e := ?_) ?_) ?_
        rotate_left
        · simpa [execute, InMemoryRoomRepository.update, hmutate, hversion] using h
        · simp [execute, InMemoryRoomRepository.update, hmutate, hversion]
    · rw [execute_of_null hmutate] at h
      exact .null room flags rfl hmutate (by rw [execute_of_null hmutate]) h

/-- A use case that throws stores nothing, when it returns a value for whatever it stores. -/
theorem fst_execute_of_error {slot : Option Room} {e : JsError}
    (h : (u.execute code slot).2 = .error e)
    (hresult : ∀ stored flags e', u.result (some stored) flags ≠ .error e')
    (hnull : ∀ room, slot = some room → u.decide room = .ok .null →
      ∀ flags e', u.result none flags ≠ .error e') :
    (u.execute code slot).1 = slot := by
  cases slot with
  | none => rw [execute_none]
  | some room =>
    rcases hmutate : u.mutate u.initial room with ⟨flags, e | (_ | next | _)⟩
    · rw [execute_of_error hmutate]
    · rw [execute_of_same hmutate]
    · by_cases hversion : next.version = room.version
      · rw [execute_of_room hmutate hversion] at h
        exact absurd h (hresult _ _ _)
      · simp [execute, InMemoryRoomRepository.update, hmutate, hversion]
    · rw [execute_of_null hmutate] at h
      exact absurd h (hnull room rfl (by rw [decide, hmutate]) _ _)

end RoomUpdate

end DanceSync
