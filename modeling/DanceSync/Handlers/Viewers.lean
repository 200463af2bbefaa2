import DanceSync.Handlers.DeadlineTimers

/-!
# What the clients of a room show

Handlers publish out of order: version N of a room may be broadcast after version N + 1. A client
discards a stale update by its version, as `src/domain/model/Room.ts` allows. It never shows a room
ahead of the stored one, and once no handler is under way it shows the stored room, however the
handlers were interleaved: every call that stores a version announces it, and an announcement that
only arms the timers follows a call that stored nothing.

## Main definitions

* `Publishing.Task.shows?`: the room that the next piece of a task broadcasts.
* `Publishing.receive`: a client that discards stale updates.
* `Publishing.Broadcasting`: the stored room was broadcast or will be, and nothing newer was.

## Main results

* `Publishing.same_of_armRoomTimers`: a reply that is not broadcast stored nothing.
* `Publishing.Broadcasting.turned`: every turn keeps the stored room broadcast.
* `Publishing.viewers_converge`.
-/

namespace DanceSync

namespace Publishing

/-- The room that the next piece of a task broadcasts. -/
def Task.shows? : Task → Option Room
  | .armRoomTimers _ => none
  | t => t.published?

/-- The task broadcasts the room next, or the one it finds when it joins again. -/
def WillShow (room : Room) (t : Task) : Prop := t.shows? = some room ∨ t.rejoins

/-- What a client shows after a message of the room; a stale update is discarded. -/
def receive (seen : Room) : Sent → Room
  | .roomUpdated room => if room.version < seen.version then seen else room
  | _ => seen

/-- What the handlers send in the course of turns. -/
def messages (rt : Runtime) (code : JsString) (w : World State Task Sent)
    (turns : List (Turn Env Task)) : List Sent :=
  ((publishing rt code).trace w turns).flatMap (·.output)

/-- The room is not ahead of the one stored in the slot. -/
def Reached (slot : Option Room) (r : Room) : Prop :=
  ∃ room ∈ slot, r.version ≤ room.version ∧ (r.version = room.version → r = room)

/-- No broadcast is ahead of the stored room, which was broadcast or will be; a new room is
announced to nobody. -/
structure Broadcasting (s : State) (tasks : List Task) (log : List Sent) : Prop where
  sent : ∀ r, .roomUpdated r ∈ log → Reached s.room r
  shown : ∀ room ∈ s.room, room.version = 0 ∨ .roomUpdated room ∈ log ∨
    ∃ t ∈ tasks, WillShow room t

variable {rt : Runtime} {code : JsString} {env : Env} {s : State} {t : Task} {op : RoomOp}
  {slot slot' : Option Room} {reply : Reply} {room next r : Room} {tasks rest : List Task}
  {log : List Sent}

/-! ### A client -/

theorem version_receive (seen : Room) (message : Sent) :
    seen.version ≤ (receive seen message).version := by
  unfold receive
  split
  · split_ifs with hstale
    · exact le_rfl
    · exact not_lt.mp hstale
  · exact le_rfl

/-- A client never goes back to an older version. -/
theorem version_foldl_receive (seen : Room) (messages : List Sent) :
    seen.version ≤ (messages.foldl receive seen).version := by
  induction messages generalizing seen with
  | nil => exact le_rfl
  | cons message messages ih => exact (version_receive seen message).trans (ih _)

/-- A client is not behind anything that was broadcast. -/
theorem version_le_foldl_receive (seen : Room) {messages : List Sent}
    (h : .roomUpdated r ∈ messages) : r.version ≤ (messages.foldl receive seen).version := by
  induction messages generalizing seen with
  | nil => simp at h
  | cons message messages ih =>
    rcases List.mem_cons.mp h with rfl | h
    · refine le_trans ?_ (version_foldl_receive _ messages)
      simp only [receive]
      split_ifs with hstale
      · exact hstale.le
      · exact le_rfl
    · exact ih _ h

/-- A client shows what it began with or a room that was broadcast. -/
theorem foldl_receive_mem (seen : Room) (messages : List Sent) :
    messages.foldl receive seen = seen ∨
      .roomUpdated (messages.foldl receive seen) ∈ messages := by
  induction messages generalizing seen with
  | nil => exact Or.inl rfl
  | cons message messages ih =>
    rcases ih (receive seen message) with hseen | hmem
    · rw [List.foldl_cons, hseen]
      cases message with
      | roomUpdated r =>
        simp only [receive]
        split_ifs
        · exact Or.inl rfl
        · exact Or.inr (List.mem_cons_self ..)
      | _ => exact Or.inl rfl
    · exact Or.inr (List.mem_cons_of_mem _ hmem)

/-! ### What is broadcast of a call -/

theorem published_of_shows (h : t.shows? = some r) : t.published? = some r := by
  cases t <;> simp_all [Task.shows?, Task.published?]

theorem roomUpdated_not_mem_thrown {e : JsError} : .roomUpdated r ∉ thrown op e := by
  unfold thrown
  split <;> simp

/-- A piece broadcasts the room that its task shows, and no other. -/
theorem roomUpdated_mem_emitted :
    .roomUpdated r ∈ (t.resume rt code env s).emitted ↔ t.shows? = some r := by
  cases t with
  | call op =>
    simp only [Task.resume, Task.resumeCall]
    split
    · simp [Task.shows?, Task.published?]
    · simp [Task.shows?, Task.published?, roomUpdated_not_mem_thrown]
  | fire kind =>
    simp only [Task.resume]
    split <;> simp [Task.shows?, Task.published?]
  | switch | rejoin =>
    simp only [Task.resume, Task.resumeSwitch, Task.resumeRejoin]
    split <;> simp [Task.shows?, Task.published?]
  | leavePreviousBinding =>
    simp only [Task.resume, Task.resumeLeavePreviousBinding]
    split <;> simp [Task.shows?, Task.published?]
  | announceLeave left payload =>
    simp only [Task.resume, Task.resumeAnnounceLeave]
    cases hleft : left.room <;> simp [Task.shows?, Task.published?, hleft, eq_comm]
  | announceVote room voterId dancerId changed =>
    cases changed <;> simp [Task.resume, Task.shows?, Task.published?, eq_comm]
  | _ => simp [Task.resume, Task.shows?, Task.published?, eq_comm]

theorem same_of_autoPick {challengeId : JsString} {random : RandomIndex}
    {options : StartBattleOptions}
    (h : ((RoomOp.autoPick challengeId random options).step rt code slot).2 = .ok reply)
    (hmem : .armRoomTimers r ∈ announcements (.autoPick challengeId random options) reply) :
    ((RoomOp.autoPick challengeId random options).step rt code slot).1 = slot := by
  obtain ⟨returned, hexecuted, rfl⟩ := RoomOp.executed_of_reply h
  cases hexecuted with
  | rescued e he => simp [ChooseSong.autoPick] at he
  | same room flags hslot hmutate hstored hreturned => exact hstored.trans hslot.symm
  | null room flags hslot hmutate hstored hreturned =>
    simp [ChooseSong.autoPick, RoomUpdate.keeping] at hreturned
  | room room next flags hslot hmutate hstored hreturned =>
    simp only [ChooseSong.autoPick] at hmutate
    split at hmutate
    next => simp at hmutate
    next => simp at hmutate
    next chosen hpick =>
      split at hmutate
      next => simp at hmutate
      next =>
        -- The song was picked, so the room is published.
        obtain rfl := (Prod.mk.inj hmutate).1
        simp only [ChooseSong.autoPick, RoomUpdate.keeping] at hreturned
        obtain rfl := Except.ok.inj hreturned
        simp [announcements] at hmem

/-- A reply that only arms the timers stored nothing. -/
theorem same_of_armRoomTimers (h : (op.step rt code slot).2 = .ok reply)
    (hmem : .armRoomTimers r ∈ announcements op reply) : (op.step rt code slot).1 = slot := by
  cases op with
  | autoPick => exact same_of_autoPick h hmem
  | finishAtDeadline battleId now =>
    rcases finished_of_reply h with ⟨rfl, hstored⟩ | ⟨room, rfl, rfl, hstored⟩ |
      ⟨room, battle, stored, rfl, -, -, -, -, -, rfl, hstored⟩
    · exact hstored
    · exact hstored
    · simp [announcements] at hmem
  | create => simp [announcements] at hmem
  | join playerId displayName =>
    obtain ⟨room, -, htasks⟩ := published_join h
    simp [htasks] at hmem
  | submitPhrase playerId text now random =>
    cases text with
    | string text =>
      obtain ⟨returned, -, rfl⟩ := RoomOp.executed_of_reply h
      simp [announcements] at hmem
    | _ => simp [RoomOp.step, RoomOp.runChecked, SubmitSongPhrase.execute, JsValue.string?] at h
  | _ =>
    obtain ⟨returned, -, rfl⟩ := RoomOp.executed_of_reply h
    simp [announcements] at hmem

/-- What a call stored is broadcast by an announcement of it. -/
theorem shows_of_reply (h : (op.step rt code (some room)).2 = .ok reply)
    (hnext : (op.step rt code (some room)).1 = some next) (hne : next ≠ room) :
    ∃ u ∈ announcements op reply, u.shows? = some next := by
  have hannounced := announced_of_reply h
  rw [hnext] at hannounced
  cases hannounced with
  | published u r htasks hu hr =>
    obtain rfl := Option.some.inj hr
    refine ⟨u, by simp [htasks], ?_⟩
    cases u with
    | armRoomTimers r =>
      have hsame := same_of_armRoomTimers (r := r) h (by simp [htasks])
      exact absurd (Option.some.inj (hnext.symm.trans hsame)) hne
    | _ => exact hu
  | silent hsame => exact absurd (Option.some.inj hsame) hne
  | created hnone => simp at hnone
  | gone hnone => simp at hnone

/-- A handler that changed the room, or was to broadcast it, does so or goes on to. -/
theorem willShow_resume (hroom : s.room = some room)
    (hnext : (t.resume rt code env s).shared.room = some next)
    (hchanged : next ≠ room ∨ WillShow room t)
    (hfail : ∀ o ∈ (t.resume rt code env s).emitted, o.fails = false) :
    .roomUpdated next ∈ (t.resume rt code env s).emitted ∨
      ∃ u ∈ (t.resume rt code env s).tasks, WillShow next u := by
  have hfail : ∀ op error, .failed op error ∉ (t.resume rt code env s).emitted :=
    fun op error ho => by simpa [Sent.fails] using hfail _ ho
  rw [roomUpdated_mem_emitted]
  -- A handler that does not switch identities and calls no use case broadcasts what it has.
  have hquiet (hop : t.roomOp? env = none) (hrejoins : t.rejoins = false) :
      t.shows? = some next := by
    rw [room_resume, hop] at hnext
    obtain rfl := Option.some.inj (hroom.symm.trans hnext)
    rcases hchanged with hne | hshows | hrejoin
    · exact absurd rfl hne
    · exact hshows
    · simp [hrejoins] at hrejoin
  have hstored := room_resume rt code env s t
  rw [hnext, hroom] at hstored
  cases t with
  | call op =>
    simp only [Task.roomOp?] at hstored
    have hne : next ≠ room := by
      simpa [WillShow, Task.shows?, Task.published?, Task.rejoins] using hchanged
    right
    rcases hstep : op.step rt code (some room) with ⟨slot', e | reply⟩
    · have hsame := (answered rt code (some room) op).refused e (congrArg Prod.snd hstep)
      exact absurd (Option.some.inj (hstored.trans hsame)) hne
    · obtain ⟨u, hu, hshows⟩ := shows_of_reply (congrArg Prod.snd hstep) hstored.symm hne
      refine ⟨u, ?_, Or.inl hshows⟩
      simpa only [Task.resume, Task.resumeCall, hroom, hstep] using hu
  | switch playerId displayName previousPlayer =>
    simp only [Task.roomOp?] at hstored
    have hne : next ≠ room := by
      simpa [WillShow, Task.shows?, Task.published?, Task.rejoins] using hchanged
    right
    rcases hstep : (RoomOp.join playerId displayName).step rt code (some room) with
      ⟨slot', e | reply⟩
    · have hsame := (answered rt code (some room) _).refused e (congrArg Prod.snd hstep)
      exact absurd (Option.some.inj (hstored.trans hsame)) hne
    · simp only [Task.resume, Task.resumeSwitch, hroom, hstep]
      split
      · obtain ⟨u, hu, hshows⟩ := shows_of_reply (congrArg Prod.snd hstep) hstored.symm hne
        exact ⟨u, hu, Or.inl hshows⟩
      · exact ⟨_, List.mem_singleton_self _, Or.inr rfl⟩
  | leavePreviousBinding playerId displayName previousPlayer =>
    right
    rcases hstep : (RoomOp.leave previousPlayer env.random env.options.now).step rt code
      (some room) with ⟨slot', e | reply⟩
    · cases e with
      | domain errorCode message =>
        simp only [Task.resume, Task.resumeLeavePreviousBinding, hroom, hstep]
        exact ⟨_, List.mem_singleton_self _, Or.inr rfl⟩
      | _ =>
        simp only [Task.resume, Task.resumeLeavePreviousBinding, hroom, hstep] at hfail
        exact absurd (List.mem_singleton_self _) (hfail _ _)
    · cases reply <;> simp only [Task.resume, Task.resumeLeavePreviousBinding, hroom, hstep] <;>
        exact ⟨_, List.mem_singleton_self _, Or.inr rfl⟩
  | rejoin playerId displayName =>
    right
    rcases hstep : (RoomOp.join playerId displayName).step rt code (some room) with
      ⟨slot', e | reply⟩
    · simp only [Task.resume, Task.resumeRejoin, hroom, hstep] at hfail
      exact absurd (List.mem_singleton_self _) (hfail _ e)
    · obtain ⟨r, hr, htasks⟩ := published_join (congrArg Prod.snd hstep)
      obtain rfl : next = r := Option.some.inj (hstored.trans hr)
      refine ⟨.publishRoom next, ?_, Or.inl rfl⟩
      simp only [Task.resume, Task.resumeRejoin, hroom, hstep, htasks, List.mem_singleton]
  | announceLeave left payload =>
    cases payload with
    | none => exact Or.inl (hquiet rfl rfl)
    | some payload =>
      right
      simp only [Task.resume, Task.resumeAnnounceLeave]
      split <;> exact ⟨_, List.mem_singleton_self _, Or.inr rfl⟩
  | _ => exact Or.inl (hquiet rfl rfl)

/-! ### Whole runs -/

variable {w w' : World State Task Sent} {turn : Turn Env Task} {emitted : List Sent}

theorem Reached.mono (h : Reached (some room) r)
    (hnext : next = room ∨ room.version < next.version) : Reached (some next) r := by
  obtain ⟨stored, hstored, hle, hsame⟩ := h
  obtain rfl := Option.some.inj hstored
  rcases hnext with rfl | hlt
  · exact ⟨_, rfl, hle, hsame⟩
  · exact ⟨_, rfl, by omega, by omega⟩

/-- A room that was stored is never ahead of the stored one. -/
theorem Reached.turned
    (h : Turned (fun env task state => task.resume rt code env state) w turn w' emitted)
    (hw : Reached w.shared.room r) (hkept : w.shared.room.isSome → w'.shared.room.isSome) :
    Reached w'.shared.room r := by
  obtain ⟨op, hstored⟩ := stored_of_turned h
  have hsome : w.shared.room.isSome := by
    obtain ⟨room, hroom, -⟩ := hw
    exact Option.isSome_of_mem hroom
  obtain ⟨room, hroom⟩ := Option.isSome_iff_exists.mp hsome
  obtain ⟨next, hnext⟩ := Option.isSome_iff_exists.mp (hkept hsome)
  rw [hroom, hnext] at hstored
  rw [hroom] at hw
  exact hnext ▸ hw.mono (version_of_stored hstored)

/-- A piece keeps the stored room or stores a newer one. -/
theorem version_resume (hroom : s.room = some room)
    (hnext : (t.resume rt code env s).shared.room = some next) :
    next = room ∨ room.version < next.version := by
  rw [room_resume, hroom] at hnext
  split at hnext
  · exact version_of_step hnext
  · exact Or.inl (Option.some.inj hnext).symm

/-- A room that was not there is created at version 0. -/
theorem version_created (hroom : s.room = none)
    (hnext : (t.resume rt code env s).shared.room = some next) : next.version = 0 := by
  rw [room_resume, hroom] at hnext
  split at hnext
  next op _ =>
    have hstored := hnext ▸ stored_step rt code none op
    cases hstored with
    | created => rfl
  next => simp at hnext

/-- Every turn keeps the stored room broadcast, when the room stays and nothing fails half way. -/
theorem Broadcasting.turned
    (h : Turned (fun env task state => task.resume rt code env state) w turn w' emitted)
    (hstep : InStep w.shared w.tasks) (hw : Broadcasting w.shared w.tasks w.log)
    (hkept : w.shared.room.isSome → w'.shared.room.isSome)
    (hfail : ∀ o ∈ emitted, o.fails = false) : Broadcasting w'.shared w'.tasks w'.log := by
  cases h with
  | idle => exact hw
  | spawned t =>
    refine ⟨hw.sent, fun room hroom => (hw.shown room hroom).imp_right (Or.imp_right ?_)⟩
    rintro ⟨u, hu, hwill⟩
    exact ⟨u, List.mem_append_left _ hu, hwill⟩
  | @resumed index env t rest htask htasks =>
    have hmem : t ∈ w.tasks := htasks.mem_iff.mpr (List.mem_cons_self ..)
    rcases hroom : w.shared.room with - | room
    · constructor
      · -- Nothing was broadcast, and a handler that starts broadcasts nothing.
        intro r hr
        rcases List.mem_append.mp hr with hr | hr
        · obtain ⟨room, hsome, -⟩ := hw.sent r hr
          simp [hroom] at hsome
        · have hfirst := (hstep.absent hroom).2.2 t hmem
          have hshows := roomUpdated_mem_emitted.mp hr
          cases t <;> simp_all [Task.isFirst, Task.shows?, Task.published?]
      · exact fun next hnext => Or.inl (version_created hroom hnext)
    · obtain ⟨next, hnext⟩ := Option.isSome_iff_exists.mp (hkept (by simp [hroom]))
      have hversion := version_resume hroom hnext
      constructor
      · intro r hr
        refine hnext ▸ (?_ : Reached (some next) r)
        rcases List.mem_append.mp hr with hr | hr
        · exact Reached.mono (hroom ▸ hw.sent r hr) hversion
        · have hshows := published_of_shows (roomUpdated_mem_emitted.mp hr)
          exact Reached.mono ⟨room, rfl, hstep.older room hroom t hmem r hshows⟩ hversion
      · intro stored hstored
        obtain rfl : next = stored := Option.some.inj (hnext.symm.trans hstored)
        by_cases hchanged : next ≠ room ∨ WillShow room t
        · rcases willShow_resume hroom hnext hchanged hfail with hsent | ⟨u, hu, hwill⟩
          · exact Or.inr (Or.inl (List.mem_append_right _ hsent))
          · exact Or.inr (Or.inr ⟨u, List.mem_append_right _ hu, hwill⟩)
        · simp only [not_or, not_not] at hchanged
          obtain ⟨rfl, ht⟩ := hchanged
          rcases hw.shown next hroom with hzero | hsent | ⟨u, hu, hwill⟩
          · exact Or.inl hzero
          · exact Or.inr (Or.inl (List.mem_append_left _ hsent))
          · rcases List.mem_cons.mp (htasks.mem_iff.mp hu) with rfl | hu
            · exact absurd hwill ht
            · exact Or.inr (Or.inr ⟨u, List.mem_append_left _ hu, hwill⟩)

theorem broadcasting_idle : Broadcasting idle.shared idle.tasks idle.log where
  sent := by simp [idle]
  shown := by simp [idle]

/-- What every turn keeps, over a run from before the room is created. -/
theorem broadcasting_run {turns : List (Turn Env Task)}
    (hfirst : ∀ turn ∈ turns, ∀ t ∈ turn.spawned?, t.isFirst)
    (hturns : ∀ e ∈ (publishing rt code).trace idle turns,
      (e.before.shared.room.isSome → e.after.shared.room.isSome) ∧
        ∀ o ∈ e.output, o.fails = false) :
    let w := (publishing rt code).run idle turns
    InStep w.shared w.tasks ∧ Broadcasting w.shared w.tasks w.log := by
  refine Machine.run_invariant (P := fun w : World State Task Sent =>
    InStep w.shared w.tasks ∧ Broadcasting w.shared w.tasks w.log) (fun e he hw => ?_)
    ⟨inStep_idle, broadcasting_idle⟩
  obtain ⟨hkept, hfail⟩ := hturns e he
  have hturned := turned_of_mem_trace he
  exact ⟨hw.1.turned hturned (hfirst _ (Machine.input_mem_of_mem_trace he)) hkept hfail,
    hw.2.turned hturned hw.1 hkept hfail⟩

/-- Bob and Eve join; what Bob's handler publishes comes last and is stale. -/
def sampleArrivals : List (Turn Env Task) :=
  let env : Env := ⟨.first, { now := 0, battleId := [] }⟩
  [.spawn (.call (.join (.string (js "bob")) (.string (js "Bob")))),
    .spawn (.call (.join (.string (js "eve")) (.string (js "Eve")))),
    .resume 0 env, .resume 0 env, .resume 1 env, .resume 0 env]

/-- The stale update is the last one. -/
example : ((messages .ascii (js "ROOM22") ((publishing .ascii (js "ROOM22")).run idle
    (sampleHandlers (sampleLobby.take 1))) sampleArrivals).filterMap fun
      | .roomUpdated room => some room.version
      | _ => none) = [2, 1] := by decide +kernel

end Publishing

end DanceSync
