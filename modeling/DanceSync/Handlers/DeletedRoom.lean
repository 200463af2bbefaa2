import DanceSync.Handlers.DeadlineTimers

/-!
# The timers of a deleted room

The departure that deletes a room goes on to forget its timers, with the version they were armed
from. A handler that stored the room before may publish it afterwards: no version is remembered, so
publishing arms the timers of a room that is gone, and nothing clears them again.

## Main definitions

* `RoomTimers.pending`: the pending timers of a room.
* `Publishing.Forgotten`: nothing is left of the timers of a room that is gone, or a handler will
  forget them.
* `Publishing.Relights`: the turns that arm the timers of a room that is gone and forgotten.

## Main results

* `Publishing.Forgotten.turned`: every other turn keeps a deleted room forgotten.
* `Publishing.Relit.turned`: what such a turn armed stays armed.
* `Publishing.timers_gone_iff`.
-/

namespace DanceSync

/-- Pending timers of a room. -/
def RoomTimers.pending (timers : RoomTimers) : ℕ :=
  [RoomTimerKind.songChallenge, .songChoose, .battleEnd].countP fun kind => (timers kind).isSome

theorem RoomTimers.pending_eq_zero {timers : RoomTimers} :
    timers.pending = 0 ↔ ∀ kind, timers kind = none := by
  simp only [RoomTimers.pending, List.countP_eq_zero, Option.not_isSome_iff_eq_none]
  constructor
  · intro h kind
    exact h kind (by cases kind <;> simp)
  · exact fun h kind _ => h kind

namespace Publishing

/-- No timer is pending and no version is remembered. -/
structure Clear (s : State) : Prop where
  timers : ∀ kind, s.roomTimers kind = none
  version : s.armedVersion = none

/-- Nothing is left of the timers of a room that is gone, or a handler will forget them. -/
def Forgotten (w : World State Task Sent) : Prop :=
  w.shared.room = none → (∃ t ∈ w.tasks, t.forgets) ∨ Clear w.shared

/-- A version is remembered of a room that is gone, and no handler will forget it. -/
structure Relit (w : World State Task Sent) : Prop where
  room : w.shared.room = none
  version : w.shared.armedVersion.isSome
  kept : ∀ t ∈ w.tasks, t.forgets = false

/-- The turn publishes a room that is gone, when no handler is left to forget its timers. -/
def Relights (w : World State Task Sent) (turn : Turn Env Task) : Prop :=
  w.shared.room = none ∧ (∃ t ∈ turn.task? w, t.published?.isSome) ∧
    ∀ t ∈ w.tasks, t.forgets = false

/-- What a piece does to the timers: it arms them from a room, forgets them, or takes at most a
timer that fires. -/
inductive TimersChange (s : State) (t : Task) (s' : State) : Prop
  | armed (h : t.published?.isSome) (hversion : s'.armedVersion.isSome)
  | forgot (h : t.forgets) (hclear : Clear s')
  | kept (hpublished : t.published? = none) (hforgets : t.forgets = false)
      (hversion : s'.armedVersion = s.armedVersion)
      (htimers : ∀ kind, s.roomTimers kind = none → s'.roomTimers kind = none)

variable {rt : Runtime} {code : JsString} {env : Env} {s : State} {t : Task} {op : RoomOp}
  {slot : Option Room} {reply : Reply} {room next : Room} {w w' : World State Task Sent}
  {turn : Turn Env Task} {emitted : List Sent}

/-! ### One piece -/

theorem isSome_armRoomTimers (s : State) (room : Room) :
    (s.armRoomTimers room).armedVersion.isSome := by
  unfold State.armRoomTimers
  split_ifs with h
  · cases hv : s.armedVersion with
    | none => simp [hv] at h
    | some v => rfl
  · rfl

theorem clear_forgetRoomTimers (s : State) : Clear s.forgetRoomTimers := ⟨fun _ => rfl, rfl⟩

/-- A piece arms, forgets or keeps the timers. -/
theorem timersChange (rt : Runtime) (code : JsString) (env : Env) (s : State) (t : Task) :
    TimersChange s t (t.resume rt code env s).shared := by
  cases t with
  | call op =>
    refine .kept rfl rfl ?_ ?_ <;> simp only [Task.resume, Task.resumeCall] <;> split
    · rfl
    · rfl
    · exact fun _ h => h
    · exact fun _ h => h
  | fire kind =>
    refine .kept rfl rfl ?_ ?_ <;> simp only [Task.resume] <;> split
    · rfl
    · rfl
    · exact fun _ h => h
    · intro other h
      show Function.update s.roomTimers kind none other = none
      by_cases hkind : other = kind
      · rw [hkind, Function.update_self]
      · rwa [Function.update_of_ne hkind]
  | sweep => exact .kept rfl rfl rfl fun _ h => h
  | switch | rejoin =>
    refine .kept rfl rfl ?_ ?_ <;>
      simp only [Task.resume, Task.resumeSwitch, Task.resumeRejoin] <;> split
    · rfl
    · rfl
    · exact fun _ h => h
    · exact fun _ h => h
  | leavePreviousBinding =>
    refine .kept rfl rfl ?_ ?_ <;>
      simp only [Task.resume, Task.resumeLeavePreviousBinding] <;> split
    · rfl
    · rfl
    · rfl
    · rfl
    · exact fun _ h => h
    · exact fun _ h => h
    · exact fun _ h => h
    · exact fun _ h => h
  | announceLeave left payload =>
    simp only [Task.resume, Task.resumeAnnounceLeave]
    cases hleft : left.room with
    | none => exact .forgot (by simp [Task.forgets, hleft]) (clear_forgetRoomTimers s)
    | some room => exact .armed (by simp [Task.published?, hleft]) (isSome_armRoomTimers s room)
  | announceVote room voterId dancerId changed =>
    cases changed with
    | true => exact .armed rfl (isSome_armRoomTimers s room)
    | false => exact .kept rfl rfl rfl fun _ h => h
  | publishRoom room | armRoomTimers room | announceRematch room =>
    exact .armed rfl (isSome_armRoomTimers s room)

/-- Only an answered departure has timers to forget. -/
theorem forgets_eq_false_of_reply (hreply : ∀ left, reply ≠ .left left) :
    ∀ u ∈ announcements op reply, u.forgets = false := by
  unfold announcements
  split
  case h_5 left _ => exact absurd rfl (hreply left)
  case h_7 => split_ifs <;> simp [Task.forgets]
  case h_9 => split_ifs <;> simp [Task.forgets]
  all_goals simp [Task.forgets]

/-- A departure is answered by `leave` alone. -/
theorem eq_leave_of_left {left : JoinRoom.LeaveRoomOutput}
    (h : (op.step rt code slot).2 = .ok (.left left)) : ∃ playerId random now,
      op = .leave playerId random now := by
  cases op with
  | leave playerId random now => exact ⟨playerId, random, now, rfl⟩
  | create hostId displayName now =>
    simp only [RoomOp.step, CreateRoom.attempt] at h
    split at h
    · simp at h
    · split_ifs at h <;> simp at h
  | join | submitPhrase =>
    simp only [RoomOp.step, RoomOp.runChecked] at h
    split at h
    · simp at h
    · obtain ⟨returned, -, hreply⟩ := RoomOp.executed_of_reply h
      cases hreply
  | _ =>
    obtain ⟨returned, -, hreply⟩ := RoomOp.executed_of_reply h
    cases hreply

/-- On a code that is free no departure is answered. -/
theorem forgets_eq_false_of_none (h : (op.step rt code none).2 = .ok reply) :
    ∀ u ∈ announcements op reply, u.forgets = false := by
  refine forgets_eq_false_of_reply fun left hleft => ?_
  subst hleft
  obtain ⟨playerId, random, now, rfl⟩ := eq_leave_of_left h
  obtain ⟨room, updated, hslot, -⟩ := left_of_reply h
  cases hslot

/-- The departure that deletes a room will forget its timers. -/
theorem forgets_of_deleted (h : (op.step rt code (some room)).2 = .ok reply)
    (hnone : (op.step rt code (some room)).1 = none) :
    ∃ u ∈ announcements op reply, u.forgets := by
  have hstored := stored_step rt code (some room) op
  rw [hnone] at hstored
  cases hstored with
  | deleted =>
    obtain ⟨r, updated, hroom, -, hslot, rfl⟩ := left_of_reply h
    refine ⟨_, List.mem_singleton_self _, ?_⟩
    simp [Task.forgets, ← hslot, hnone]

/-- A call that throws leaves the stored room. -/
theorem fst_step_of_error {e : JsError} (h : (op.step rt code slot).2 = .error e) :
    (op.step rt code slot).1 = slot :=
  (answered rt code slot op).refused e h

/-- A joining player does not delete the room. -/
theorem join_ne_none {playerId displayName : JsValue} :
    ((RoomOp.join playerId displayName).step rt code (some room)).1 ≠ none := by
  intro hnone
  have hstored := stored_step rt code (some room) (.join playerId displayName)
  rw [hnone] at hstored
  cases hstored

/-- A piece that deletes the room goes on to forget its timers. -/
theorem exists_forgets_of_resume (hroom : s.room = some room)
    (hnone : (t.resume rt code env s).shared.room = none) :
    ∃ u ∈ (t.resume rt code env s).tasks, u.forgets := by
  have hcalled := room_resume rt code env s t
  rw [hnone, hroom] at hcalled
  cases t with
  | call op =>
    cases hstep : op.step rt code s.room with
    | mk slot reply =>
      rw [hroom] at hstep
      cases reply with
      | error e =>
        have hsame := fst_step_of_error (congrArg Prod.snd hstep)
        simp [Task.roomOp?, hsame] at hcalled
      | ok reply =>
        simp only [Task.resume, Task.resumeCall, hroom, hstep]
        exact forgets_of_deleted (congrArg Prod.snd hstep) hcalled.symm
  | switch | rejoin => exact absurd hcalled.symm join_ne_none
  | leavePreviousBinding playerId displayName previousPlayer =>
    simp only [Task.roomOp?] at hcalled
    cases hstep : (RoomOp.leave previousPlayer env.random env.options.now).step rt code
        (some room) with
    | mk slot reply =>
      cases reply with
      | error e =>
        have hsame := fst_step_of_error (congrArg Prod.snd hstep)
        simp [hsame] at hcalled
      | ok reply =>
        obtain ⟨r, updated, -, -, hslot, rfl⟩ := left_of_reply (congrArg Prod.snd hstep)
        simp only [Task.resume, Task.resumeLeavePreviousBinding, hroom, hstep]
        refine ⟨_, List.mem_singleton_self _, ?_⟩
        simp [Task.forgets, ← hslot, ← hcalled]
  | _ => simp [Task.roomOp?] at hcalled

/-- While the room is gone, no piece will forget its timers again. -/
theorem forgets_of_resume (hroom : s.room = none) :
    ∀ u ∈ (t.resume rt code env s).tasks, u.forgets = false := by
  cases t with
  | call op =>
    simp only [Task.resume, Task.resumeCall, hroom]
    split
    next reply hreply => exact forgets_eq_false_of_none hreply
    next => simp
  | switch playerId displayName previousPlayer =>
    simp only [Task.resume, Task.resumeSwitch, hroom]
    split
    next reply hreply =>
      split_ifs
      · exact forgets_eq_false_of_none hreply
      · simp [Task.forgets]
    next => simp
  | rejoin playerId displayName =>
    simp only [Task.resume, Task.resumeRejoin, hroom]
    split
    next reply hreply => exact forgets_eq_false_of_none hreply
    next => simp
  | leavePreviousBinding playerId displayName previousPlayer =>
    simp only [Task.resume, Task.resumeLeavePreviousBinding, hroom]
    split
    next left hreply =>
      obtain ⟨r, updated, hslot, -⟩ := left_of_reply hreply
      cases hslot
    all_goals simp [Task.forgets]
  | announceLeave left payload =>
    simp only [Task.resume, Task.resumeAnnounceLeave]
    cases payload <;> split <;> simp [Task.forgets]
  | fire kind =>
    simp only [Task.resume]
    split <;> simp [Task.forgets]
  | sweep => simp [Task.resume, hroom]
  | _ => simp [Task.resume]

/-! ### Turns -/

/-- A turn that does not arm the timers of a room that is gone keeps it forgotten. -/
theorem Forgotten.turned
    (h : Turned (fun env task state => task.resume rt code env state) w turn w' emitted)
    (hw : Forgotten w) (hrelights : ¬Relights w turn) : Forgotten w' := by
  cases h with
  | idle => exact hw
  | spawned t =>
    intro hnone
    refine (hw hnone).imp_left ?_
    rintro ⟨u, hu, hforgets⟩
    exact ⟨u, List.mem_append_left _ hu, hforgets⟩
  | @resumed index env t rest htask htasks =>
    intro hnone
    cases hroom : w.shared.room with
    | some room =>
      obtain ⟨u, hu, hforgets⟩ := exists_forgets_of_resume hroom hnone
      exact Or.inl ⟨u, List.mem_append_right _ hu, hforgets⟩
    | none =>
      cases timersChange rt code env w.shared t with
      | forgot hforgets hclear => exact Or.inr hclear
      | armed hpublished =>
        -- Some other handler is left to forget the timers.
        have hleft : ∃ u ∈ w.tasks, u.forgets := by
          by_contra hnobody
          refine hrelights ⟨hroom, ⟨t, htask, hpublished⟩, fun u hu => ?_⟩
          exact Bool.eq_false_iff.mpr fun hforgets => hnobody ⟨u, hu, hforgets⟩
        obtain ⟨u, hu, hforgets⟩ := hleft
        rcases List.mem_cons.mp (htasks.mem_iff.mp hu) with rfl | hu
        · cases u <;> simp_all [Task.forgets, Task.published?]
        · exact Or.inl ⟨u, List.mem_append_left _ hu, hforgets⟩
      | kept hpublished hforgets hversion htimers =>
        rcases hw hroom with ⟨u, hu, hu'⟩ | hclear
        · rcases List.mem_cons.mp (htasks.mem_iff.mp hu) with rfl | hu
          · simp [hforgets] at hu'
          · exact Or.inl ⟨u, List.mem_append_left _ hu, hu'⟩
        · exact Or.inr ⟨fun kind => htimers kind (hclear.timers kind),
            hversion.trans hclear.version⟩

/-- A turn that arms the timers of a room that is gone leaves a version that nobody forgets. -/
theorem relit_of_relights (hrelights : Relights w turn)
    (hnone : ((publishing rt code).next w turn).shared.room = none) :
    Relit ((publishing rt code).next w turn) := by
  obtain ⟨hroom, ⟨t, ht, hpublished⟩, hkept⟩ := hrelights
  cases turn with
  | spawn => cases ht
  | resume index env =>
    have htask : w.tasks[index]? = some t := ht
    have hnext : (publishing rt code).next w (.resume index env) =
        { shared := (t.resume rt code env w.shared).shared
          tasks := w.tasks.eraseIdx index ++ (t.resume rt code env w.shared).tasks
          log := w.log ++ (t.resume rt code env w.shared).emitted } := by
      show (World.resume _ w index env).1 = _
      simp only [World.resume, htask]
    rw [hnext] at hnone ⊢
    refine ⟨hnone, ?_, ?_⟩
    · cases timersChange rt code env w.shared t with
      | armed _ hversion => exact hversion
      | forgot hforgets => simp [hkept t (List.mem_of_getElem? htask)] at hforgets
      | kept hnot => simp [hnot] at hpublished
    · refine List.forall_mem_append.mpr ⟨fun u hu => ?_, forgets_of_resume hroom⟩
      exact hkept u (List.mem_of_mem_eraseIdx hu)

/-- The version stays while the room is not created again. -/
theorem Relit.turned
    (h : Turned (fun env task state => task.resume rt code env state) w turn w' emitted)
    (hw : Relit w) (hfirst : ∀ t ∈ turn.spawned?, t.isFirst) (hnone : w'.shared.room = none) :
    Relit w' := by
  cases h with
  | idle => exact hw
  | spawned t =>
    refine ⟨hnone, hw.version, List.forall_mem_append.mpr ⟨hw.kept, ?_⟩⟩
    have ht : t.isFirst := hfirst t rfl
    rintro u hu
    obtain rfl := List.mem_singleton.mp hu
    cases u <;> simp_all [Task.isFirst, Task.forgets]
  | @resumed index env t rest htask htasks =>
    refine ⟨hnone, ?_, ?_⟩
    · cases timersChange rt code env w.shared t with
      | armed _ hversion => exact hversion
      | forgot hforgets =>
        have hfalse := hw.kept t (htasks.mem_iff.mpr (List.mem_cons_self ..))
        simp [hfalse] at hforgets
      | kept _ _ hversion => exact hversion ▸ hw.version
    · refine List.forall_mem_append.mpr ⟨fun u hu => ?_, forgets_of_resume hw.room⟩
      exact hw.kept u (htasks.mem_iff.mpr (List.mem_cons_of_mem _ hu))

/-! ### Runs -/

/-- A room that was created is deleted, and is not created again: once no handler is under way, no
timer is pending and no version is remembered exactly when no turn armed the timers of the room
after they were forgotten. -/
theorem timers_gone_iff (rt : Runtime) (code : JsString) (opening turns : List (Turn Env Task))
    (hfirst : ∀ turn ∈ turns, ∀ t ∈ turn.spawned?, t.isFirst)
    (hcreated : ((publishing rt code).run idle opening).shared.room.isSome)
    (hgone : ∀ e ∈ (publishing rt code).trace ((publishing rt code).run idle opening) turns,
      e.before.shared.room = none → e.after.shared.room = none)
    (hdeleted : ((publishing rt code).run idle (opening ++ turns)).shared.room = none)
    (hdone : ((publishing rt code).run idle (opening ++ turns)).tasks = []) :
    (((publishing rt code).run idle (opening ++ turns)).shared.roomTimers.pending = 0 ∧
        ((publishing rt code).run idle (opening ++ turns)).shared.armedVersion = none) ↔
      ∀ e ∈ (publishing rt code).trace ((publishing rt code).run idle opening) turns,
        ¬Relights e.before e.input := by
  rw [Machine.run_append] at hdeleted hdone ⊢
  generalize (publishing rt code).run idle opening = w at hcreated hgone hdeleted hdone ⊢
  constructor
  · rintro ⟨-, hversion⟩ e he hrelights
    obtain ⟨pre, turn, post, rfl, rfl⟩ := (Machine.mem_trace_iff _).mp he
    rw [Machine.trace_append, Machine.trace_cons] at hgone
    have hnone := hgone _ (List.mem_append_right _ (List.mem_cons_self ..)) hrelights.1
    have hrelit : Relit ((publishing rt code).run
        ((publishing rt code).next ((publishing rt code).run w pre) turn) post) := by
      refine Machine.run_invariant (P := Relit) (fun e he hw => ?_)
        (relit_of_relights hrelights hnone)
      have hstays := hgone e (List.mem_append_right _ (List.mem_cons_of_mem _ he)) hw.room
      refine hw.turned (turned_of_mem_trace he) (hfirst e.input ?_) hstays
      exact List.mem_append_right _
        (List.mem_cons_of_mem _ (Machine.input_mem_of_mem_trace he))
    rw [Machine.run_append, Machine.run_cons] at hversion
    exact absurd hrelit.version (by simp [hversion])
  · intro hrelights
    have hforgotten : Forgotten ((publishing rt code).run w turns) := by
      refine Machine.run_invariant (P := Forgotten) (fun e he hw => ?_) ?_
      · exact hw.turned (turned_of_mem_trace he) (hrelights e he)
      · intro hnone
        simp [hnone] at hcreated
    rcases hforgotten hdeleted with ⟨t, ht, -⟩ | hclear
    · simp [hdone] at ht
    · exact ⟨RoomTimers.pending_eq_zero.mpr hclear.timers, hclear.version⟩

/-- Ana and Bob are left in the lobby, with challenge `c1` on screen. -/
def samplePair : List (Turn Env Task) :=
  sampleHandlers (sampleLobby.take 9 ++ [.leave (js "eve") .first 1100])

/-- Bob leaves, and Ana after him. -/
def sampleLeaves : List (Turn Env Task) :=
  sampleHandlers [.leave (js "bob") .first 1200, .leave (js "ana") .first 1300]

theorem timers_gone_iff_sampleLeaves :
    (((publishing .ascii (js "ROOM22")).run idle
        (samplePair ++ sampleLeaves)).shared.roomTimers.pending = 0 ∧
      ((publishing .ascii (js "ROOM22")).run idle
        (samplePair ++ sampleLeaves)).shared.armedVersion = none) ↔
      ∀ e ∈ (publishing .ascii (js "ROOM22")).trace
          ((publishing .ascii (js "ROOM22")).run idle samplePair) sampleLeaves,
        ¬Relights e.before e.input :=
  timers_gone_iff .ascii (js "ROOM22") samplePair sampleLeaves (by decide) (by decide +kernel)
    (by decide +kernel) (by decide +kernel) (by decide +kernel)

/-- Ana removes Bob and leaves, and her departure is announced before the room without Bob. -/
def sampleLateNews : List (Turn Env Task) :=
  [.spawn (.call (.kick (js "ana") (.string (js "bob")) .first 1200)),
    .spawn (.call (.leave (js "ana") .first 1200)),
    .resume 0 ⟨.first, { now := 1200, battleId := [] }⟩,
    .resume 0 ⟨.first, { now := 1200, battleId := [] }⟩,
    .resume 1 ⟨.first, { now := 1200, battleId := [] }⟩,
    .resume 0 ⟨.first, { now := 1200, battleId := [] }⟩]

/-- The room is gone, nothing is under way, and the timer of the challenge is pending. -/
theorem deleted_room_keeps_timer :
    ((publishing .ascii (js "ROOM22")).run idle samplePair).shared.room.isSome ∧
      (∀ e ∈ (publishing .ascii (js "ROOM22")).trace
          ((publishing .ascii (js "ROOM22")).run idle samplePair) sampleLateNews,
        e.before.shared.room = none → e.after.shared.room = none) ∧
      ((publishing .ascii (js "ROOM22")).run idle
        (samplePair ++ sampleLateNews)).shared.room = none ∧
      ((publishing .ascii (js "ROOM22")).run idle (samplePair ++ sampleLateNews)).tasks = [] ∧
      ((publishing .ascii (js "ROOM22")).run idle
        (samplePair ++ sampleLateNews)).shared.roomTimers.pending = 1 ∧
      ((publishing .ascii (js "ROOM22")).run idle
        (samplePair ++ sampleLateNews)).shared.armedVersion.isSome := by
  decide +kernel

end Publishing

end DanceSync
