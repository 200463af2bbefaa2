import DanceSync.Handlers.Publishing
import DanceSync.Lifecycle.SelectionInvariant

/-!
# The deadline timers follow the stored room

Every handler that stores a room goes on to publish it, and publishing arms all timers of the room
from one version, unless they were armed from a newer one. So once nothing is under way the timers
are those of the stored version. A timer that fires leaves the map; its use case changes the room,
which is published, or finds that it was early, and the timers are armed from the stored room again.

## Main definitions

* `Publishing.WillPublish`: a handler on its way to publish a room.
* `Publishing.Armed`: the timers are those of a room, but for those that fired.
* `Publishing.InStep`: the timers are armed from the stored room or will be.
* `Room.TimedBy`: the timers that a room needs.

## Main results

* `Publishing.InStep.turned`: every turn keeps the timers in step.
* `Publishing.foldl_armRoomTimers`: versions armed in any order arm as the highest alone.
* `Publishing.timers_match_stored_room`.
-/

namespace DanceSync

/-- The timers that a room needs, and what each of them names. -/
structure Room.TimedBy (room : Room) (timers : RoomTimers) : Prop where
  songChallenge : ∀ timer, timers .songChallenge = some timer ↔ room.status = .waiting ∧
    ∃ selection ∈ room.songSelection, selection.phase = .typing ∧
      timer = ⟨selection.challenge.expiresAt, selection.challenge.id⟩
  songChoose : (timers .songChoose).isSome ↔ room.status = .waiting ∧
    ∃ selection ∈ room.songSelection, selection.phase = .choosing
  songChoose_eq : ∀ timer ∈ timers .songChoose, ∃ selection ∈ room.songSelection,
    selection.chooseDeadline = some timer.deadline ∧ timer.id = selection.challenge.id
  battleEnd : (timers .battleEnd).isSome ↔ room.status = .battling
  battleEnd_eq : ∀ timer ∈ timers .battleEnd, ∃ battle ∈ room.battle,
    timer = ⟨battle.endsAt, battle.id⟩

namespace Publishing

/-- The task of a timer that fired and did not call its use case yet. -/
def Fired (kind : RoomTimerKind) (id : JsString) (t : Task) : Prop :=
  ∃ random options, t = .call (kind.call id random options)

/-- A handler between the departure of one identity and the return as another. -/
def Task.rejoins : Task → Bool
  | .leavePreviousBinding .. | .rejoin .. | .announceLeave _ (some _) => true
  | _ => false

/-- The task publishes the room next, or the one it finds when it joins again. -/
def WillPublish (room : Room) (t : Task) : Prop := t.published? = some room ∨ t.rejoins

/-- The timers were armed from the room; each that is missing has fired. -/
structure Armed (room : Room) (s : State) (tasks : List Task) : Prop where
  version : s.armedVersion = some room.version ∨ (s.armedVersion = none ∧ room.version = 0)
  timers : ∀ kind, s.roomTimers kind = room.deadline kind ∨ (s.roomTimers kind = none ∧
    ∃ timer ∈ room.deadline kind, ∃ t ∈ tasks, Fired kind timer.id t)

/-- The timers are armed from the stored room, or a handler will do so. -/
structure InStep (s : State) (tasks : List Task) : Prop where
  kept : ∀ t ∈ tasks, t.forgets = false
  absent : s.room = none → s.armedVersion = none ∧ (∀ kind, s.roomTimers kind = none) ∧
    ∀ t ∈ tasks, t.isFirst
  older : ∀ room ∈ s.room, ∀ t ∈ tasks, ∀ r ∈ t.published?,
    r.version ≤ room.version ∧ (r.version = room.version → r = room)
  armed_le : ∀ room ∈ s.room, ∀ v ∈ s.armedVersion, v ≤ room.version
  pending : ∀ room ∈ s.room, (∃ t ∈ tasks, WillPublish room t) ∨ Armed room s tasks

variable {rt : Runtime} {code : JsString} {env : Env} {s : State} {t : Task} {op : RoomOp}
  {slot slot' : Option Room} {reply : Reply} {room next r : Room} {tasks tasks' rest : List Task}
  {kind : RoomTimerKind}

/-! ### Arming -/

theorem follow_eq (timers : RoomTimers) (kind : RoomTimerKind) (timer : Option RoomTimer) :
    timers.follow kind timer = Function.update timers kind timer := by
  cases timer <;> rfl

theorem armRoomTimers_of_newer {v : ℕ} (hv : s.armedVersion = some v) (h : r.version < v) :
    s.armRoomTimers r = s := by
  simp [State.armRoomTimers, hv, h]

/-- Arming from a version that is not older replaces all timers. -/
theorem armRoomTimers_of_le (h : ∀ v ∈ s.armedVersion, v ≤ r.version) :
    s.armRoomTimers r = { s with armedVersion := some r.version, roomTimers := r.deadline } := by
  have hany : ¬s.armedVersion.any (r.version < ·) := by
    cases hv : s.armedVersion with
    | none => simp
    | some v => simpa using h v hv
  rw [State.armRoomTimers, if_neg hany]
  congr 1
  funext kind
  rw [follow_eq, follow_eq, follow_eq]
  cases kind <;> simp [Function.update]

theorem armedVersion_armRoomTimers {v : ℕ} (h : v ∈ (s.armRoomTimers r).armedVersion) :
    v = r.version ∨ v ∈ s.armedVersion := by
  unfold State.armRoomTimers at h
  split at h
  · exact Or.inr h
  · exact Or.inl (Option.some.inj h).symm

/-! ### The calls of timers -/

theorem isTimer_call (kind : RoomTimerKind) (id : JsString) (random : RandomIndex)
    (options : StartBattleOptions) : (kind.call id random options).isTimer := by
  cases kind <;> rfl

/-- The timer of a deadline that is pending changes the room or asks for its timers again. -/
theorem published_of_due {timer : RoomTimer} {random : RandomIndex} {options : StartBattleOptions}
    (hdue : room.deadline kind = some timer)
    (h : ((kind.call timer.id random options).step rt code (some room)).2 = .ok reply)
    (hroom : ((kind.call timer.id random options).step rt code (some room)).1 = some next) :
    ∃ t ∈ announcements (kind.call timer.id random options) reply, t.published? = some next := by
  have hannounced := announced_of_reply h
  rw [hroom] at hannounced
  cases hannounced with
  | published t r htasks ht hnext =>
    obtain rfl := Option.some.inj hnext
    exact ⟨t, by simp [htasks], ht⟩
  | created hnone => simp at hnone
  | gone hnone => simp at hnone
  | silent hsame htasks =>
    cases kind with
    | songChallenge =>
      obtain ⟨selection, hselection, hif⟩ := Option.bind_eq_some_iff.mp hdue
      split_ifs at hif with hphase
      obtain rfl := Option.some.inj hif
      have hne : (roomMachine rt code).next (some room)
          (.expireChallenge selection.challenge.id random options.now) ≠ some room :=
        next_ne_of_typing hselection hphase.2
      exact absurd (hroom.trans hsame) hne
    | songChoose =>
      obtain ⟨r, flags, hstored, rfl⟩ := exists_stored_of_reply rfl (fun _ => rfl) h
      cases hpicked : flags.1 <;>
        simp [RoomTimerKind.call, announcements, hpicked, Task.published?] at htasks
    | battleEnd =>
      rcases finished_of_reply h with ⟨rfl, -⟩ | ⟨r, hr, rfl, -⟩ |
        ⟨r, battle, stored, hr, -, -, -, -, -, rfl, -⟩
      · exact absurd h finishAtDeadline_ne_none
      · simp [RoomTimerKind.call, announcements, Task.published?] at htasks
      · simp [RoomTimerKind.call, announcements, Task.published?] at htasks

theorem choose_ne_roomNotFound {playerId songId message : JsString} :
    SongSelectionService.choose room playerId songId ≠ .error (.domain .roomNotFound message) := by
  unfold SongSelectionService.choose
  split
  · split_ifs
    · simp
    · simp
    · split <;> simp
  · simp

theorem autoPick_ne_error {challengeId message : JsString} {now : Instant} {random : RandomIndex} :
    SongSelectionService.autoPick room challengeId now random ≠
      .error (.domain .roomNotFound message) := by
  unfold SongSelectionService.autoPick
  split
  next selection hselection =>
    split
    · simp
    · split
      next => simp
      next chooserId hchooser =>
        split
        · simp
        · cases hoptions : selection.songOptions with
          | nil => simp [RandomIndex.choose, bind, Except.bind]
          | cons song songs =>
            simp only [RandomIndex.choose, bind, Except.bind]
            split
            next e hchoose =>
              exact fun h => choose_ne_roomNotFound
                (hchoose.trans (congrArg Except.error (Except.error.inj h)))
            next => simp [pure, Except.pure]
  next => simp

/-- A pick from a stored room finds the room. -/
theorem autoPick_ne_roomNotFound {challengeId message : JsString} {random : RandomIndex}
    {options : StartBattleOptions} :
    ((RoomOp.autoPick challengeId random options).step rt code (some room)).2 ≠
      .error (.domain .roomNotFound message) := by
  intro h
  have hcaught : ((ChooseSong.autoPick rt code challengeId random options).execute code
      (some room)).2 = .error (.domain .roomNotFound message) := map_reply_eq_error h
  have hkeeps : Keeps rt (ChooseSong.autoPick rt code challengeId random options) room
      (.autoPick challengeId random options) := keeps_autoPick challengeId random options
  rcases hmutate : (ChooseSong.autoPick rt code challengeId random options).mutate
      (ChooseSong.autoPick rt code challengeId random options).initial room with
    ⟨flags, e | (_ | next | _)⟩
  · rw [RoomUpdate.execute_of_error hmutate] at hcaught
    obtain rfl : e = .domain .roomNotFound message := Except.error.inj hcaught
    simp only [ChooseSong.autoPick] at hmutate
    split at hmutate
    next e hpick =>
      exact autoPick_ne_error
        (hpick.trans (congrArg Except.error (Except.error.inj (Prod.mk.inj hmutate).2)))
    next => simp at hmutate
    next chosen hpick =>
      split at hmutate
      next e hstart =>
        exact startIfPossible_ne_refused
          (hstart.trans (congrArg Except.error (Except.error.inj (Prod.mk.inj hmutate).2)))
      next => simp at hmutate
  · rw [RoomUpdate.execute_of_same hmutate] at hcaught
    simp [ChooseSong.autoPick, RoomUpdate.keeping] at hcaught
  · have hchange := hkeeps.change next (by rw [RoomUpdate.decide, hmutate])
    rw [RoomUpdate.execute_of_room hmutate hchange.frame.2] at hcaught
    simp [ChooseSong.autoPick, RoomUpdate.keeping] at hcaught
  · exact hkeeps.keep (by rw [RoomUpdate.decide, hmutate])

/-- A timer that throws is seen to fail. -/
theorem failed_mem_thrown {e : JsError} (hop : op.isTimer)
    (h : (op.step rt code (some room)).2 = .error e) : .failed op e ∈ thrown op e := by
  cases op with
  | expireChallenge | finishAtDeadline => simp [thrown]
  | autoPick challengeId random options =>
    unfold thrown
    split
    next _ message => exact absurd h autoPick_ne_roomNotFound
    all_goals simp_all
  | _ => simp [RoomOp.isTimer] at hop

/-! ### One turn -/

namespace InStep

theorem perm (h : InStep s tasks) (hperm : tasks.Perm tasks') : InStep s tasks' where
  kept t ht := h.kept t (hperm.mem_iff.mpr ht)
  absent hroom := ⟨(h.absent hroom).1, (h.absent hroom).2.1, fun t ht =>
    (h.absent hroom).2.2 t (hperm.mem_iff.mpr ht)⟩
  older room hroom t ht := h.older room hroom t (hperm.mem_iff.mpr ht)
  armed_le := h.armed_le
  pending room hroom := by
    rcases h.pending room hroom with ⟨t, ht, hwill⟩ | harmed
    · exact Or.inl ⟨t, hperm.mem_iff.mp ht, hwill⟩
    · refine Or.inr ⟨harmed.version, fun kind => ?_⟩
      rcases harmed.timers kind with hkind | ⟨hnone, timer, htimer, t, ht, hfired⟩
      · exact Or.inl hkind
      · exact Or.inr ⟨hnone, timer, htimer, t, hperm.mem_iff.mp ht, hfired⟩

/-- A handler that starts has nothing to publish yet. -/
theorem spawned (h : InStep s tasks) (ht : t.isFirst) : InStep s (t :: tasks) where
  kept := List.forall_mem_cons.mpr ⟨by cases t <;> simp_all [Task.isFirst, Task.forgets], h.kept⟩
  absent hroom := ⟨(h.absent hroom).1, (h.absent hroom).2.1,
    List.forall_mem_cons.mpr ⟨ht, (h.absent hroom).2.2⟩⟩
  older room hroom := List.forall_mem_cons.mpr
    ⟨by cases t <;> simp_all [Task.isFirst, Task.published?], h.older room hroom⟩
  armed_le := h.armed_le
  pending room hroom := by
    rcases h.pending room hroom with ⟨u, hu, hwill⟩ | harmed
    · exact Or.inl ⟨u, List.mem_cons_of_mem _ hu, hwill⟩
    · refine Or.inr ⟨harmed.version, fun kind => ?_⟩
      rcases harmed.timers kind with hkind | ⟨hnone, timer, htimer, u, hu, hfired⟩
      · exact Or.inl hkind
      · exact Or.inr ⟨hnone, timer, htimer, u, List.mem_cons_of_mem _ hu, hfired⟩

/-- Before the room is created nothing happens but its creation. -/
theorem ended (h : InStep s (t :: rest)) (hroom : s.room = none) : InStep s rest where
  kept := (List.forall_mem_cons.mp h.kept).2
  absent _ := ⟨(h.absent hroom).1, (h.absent hroom).2.1,
    (List.forall_mem_cons.mp (h.absent hroom).2.2).2⟩
  older := by simp [hroom]
  armed_le := by simp [hroom]
  pending := by simp [hroom]

/-- A new room has no deadlines. -/
theorem created (h : InStep s (t :: rest)) (hroom : s.room = none) (hversion : next.version = 0)
    (hdeadline : ∀ kind, next.deadline kind = none) :
    InStep { s with room := some next } rest := by
  obtain ⟨harmed, htimers, hfirst⟩ := h.absent hroom
  rw [List.forall_mem_cons] at hfirst
  refine ⟨(List.forall_mem_cons.mp h.kept).2, by simp, ?_, ?_, ?_⟩
  · intro room hslot u hu r hr
    have hu := hfirst.2 u hu
    cases u <;> simp_all [Task.isFirst, Task.published?]
  · simp [harmed]
  · rintro room ⟨⟩
    exact Or.inr ⟨Or.inr ⟨harmed, hversion⟩, fun kind =>
      Or.inl ((htimers kind).trans (hdeadline kind).symm)⟩

/-- A task that calls a use case leaves the stored room to be published, when it is a newer one or
the task was to publish or to replace a timer. -/
theorem stored (h : InStep s (t :: rest)) (hroom : s.room = some room)
    (hnext : next = room ∨ room.version < next.version)
    (hkept : ∀ u ∈ tasks, u.forgets = false) (hold : ∀ u ∈ tasks, ∀ r ∈ u.published?, r = next)
    (hnew : next ≠ room ∨ WillPublish room t ∨ (∃ kind, ∃ timer ∈ room.deadline kind,
      Fired kind timer.id t) → ∃ u ∈ tasks, WillPublish next u) :
    InStep { s with room := some next } (rest ++ tasks) := by
  have hle : room.version ≤ next.version := by
    rcases hnext with rfl | hlt
    · exact le_rfl
    · exact hlt.le
  refine ⟨List.forall_mem_append.mpr ⟨(List.forall_mem_cons.mp h.kept).2, hkept⟩, by simp, ?_, ?_,
    ?_⟩
  · rintro _ ⟨⟩ u hu r hr
    rcases List.mem_append.mp hu with hu | hu
    · obtain ⟨hversion, heq⟩ := h.older room hroom u (List.mem_cons_of_mem _ hu) r hr
      refine ⟨hversion.trans hle, fun hsame => ?_⟩
      rcases hnext with rfl | hlt
      · exact heq hsame
      · omega
    · obtain rfl := hold u hu r hr
      exact ⟨le_rfl, fun _ => rfl⟩
  · rintro _ ⟨⟩ v hv
    exact (h.armed_le room hroom v hv).trans hle
  · rintro _ ⟨⟩
    by_cases hpublish : ∃ u ∈ tasks, WillPublish next u
    · obtain ⟨u, hu, hwill⟩ := hpublish
      exact Or.inl ⟨u, List.mem_append_right _ hu, hwill⟩
    have hnot := mt hnew hpublish
    simp only [not_or, not_not, not_exists, not_and] at hnot
    obtain ⟨rfl, ht, hfired⟩ := hnot
    rcases h.pending next hroom with ⟨u, hu, hwill⟩ | harmed
    · rcases List.mem_cons.mp hu with rfl | hu
      · exact absurd hwill ht
      · exact Or.inl ⟨u, List.mem_append_left _ hu, hwill⟩
    · refine Or.inr ⟨harmed.version, fun kind => ?_⟩
      rcases harmed.timers kind with hkind | ⟨hnone, timer, htimer, u, hu, hu'⟩
      · exact Or.inl hkind
      · rcases List.mem_cons.mp hu with rfl | hu
        · exact absurd hu' (hfired kind timer htimer)
        · exact Or.inr ⟨hnone, timer, htimer, u, List.mem_append_left _ hu, hu'⟩

/-- A task that publishes a version arms its timers, unless a newer one did. -/
theorem published (h : InStep s (t :: rest)) (ht : t.published? = some r)
    (hkept : ∀ u ∈ tasks, u.forgets = false ∧ u.published? = none)
    (hrejoins : t.rejoins → ∃ u ∈ tasks, u.rejoins) :
    InStep (s.armRoomTimers r) (rest ++ tasks) := by
  have hfirst : t.isFirst = false := by cases t <;> simp_all [Task.published?, Task.isFirst]
  cases hroom : s.room with
  | none =>
    have := (h.absent hroom).2.2 t (List.mem_cons_self ..)
    simp [hfirst] at this
  | some room =>
    obtain ⟨hversion, heq⟩ := h.older room hroom t (List.mem_cons_self ..) r ht
    have hcall : ∀ kind id, ¬Fired kind id t := by
      rintro kind id ⟨random, options, rfl⟩
      simp [Task.published?] at ht
    refine ⟨List.forall_mem_append.mpr ⟨(List.forall_mem_cons.mp h.kept).2, fun u hu =>
      (hkept u hu).1⟩, by simp [hroom], ?_, ?_, ?_⟩
    · intro x hx u hu
      rw [room_armRoomTimers] at hx
      rcases List.mem_append.mp hu with hu | hu
      · exact h.older x hx u (List.mem_cons_of_mem _ hu)
      · simp [(hkept u hu).2]
    · intro x hx v hv
      rw [room_armRoomTimers, hroom] at hx
      obtain rfl := Option.some.inj hx
      rcases armedVersion_armRoomTimers hv with rfl | hv
      · exact hversion
      · exact h.armed_le room hroom v hv
    · intro x hx
      rw [room_armRoomTimers, hroom] at hx
      obtain rfl := Option.some.inj hx
      by_cases hr : r = room
      · subst hr
        rw [armRoomTimers_of_le (h.armed_le r hroom)]
        exact Or.inr ⟨Or.inl rfl, fun kind => Or.inl rfl⟩
      have hlt : r.version < room.version := lt_of_le_of_ne hversion fun hsame => hr (heq hsame)
      rcases h.pending room hroom with ⟨u, hu, hwill⟩ | harmed
      · rcases List.mem_cons.mp hu with rfl | hu
        · rcases hwill with hsame | hwill
          · exact absurd (Option.some.inj (ht.symm.trans hsame)) hr
          · obtain ⟨u, hu, hwill⟩ := hrejoins hwill
            exact Or.inl ⟨u, List.mem_append_right _ hu, Or.inr hwill⟩
        · exact Or.inl ⟨u, List.mem_append_left _ hu, hwill⟩
      · rcases harmed.version with hv | ⟨-, hzero⟩
        · rw [armRoomTimers_of_newer hv hlt]
          refine Or.inr ⟨Or.inl hv, fun kind => ?_⟩
          rcases harmed.timers kind with hkind | ⟨hnone, timer, htimer, u, hu, hfired⟩
          · exact Or.inl hkind
          · rcases List.mem_cons.mp hu with rfl | hu
            · exact absurd hfired (hcall kind timer.id)
            · exact Or.inr ⟨hnone, timer, htimer, u, List.mem_append_left _ hu, hfired⟩
        · omega

/-- A timer that fires goes on to call its use case. -/
theorem fired (h : InStep s (.fire kind :: rest)) {timer : RoomTimer}
    (htimer : s.roomTimers kind = some timer) (random : RandomIndex)
    (options : StartBattleOptions) :
    InStep { s with roomTimers := s.roomTimers.clear kind }
      (rest ++ [.call (kind.call timer.id random options)]) := by
  refine ⟨List.forall_mem_append.mpr ⟨(List.forall_mem_cons.mp h.kept).2, by simp [Task.forgets]⟩,
    fun hroom => ?_, fun room hroom => List.forall_mem_append.mpr
      ⟨(List.forall_mem_cons.mp (h.older room hroom)).2, by simp [Task.published?]⟩,
    h.armed_le, fun room hroom => ?_⟩
  · simp [(h.absent hroom).2.1 kind] at htimer
  · rcases h.pending room hroom with ⟨u, hu, hwill⟩ | harmed
    · rcases List.mem_cons.mp hu with rfl | hu
      · simp [WillPublish, Task.published?, Task.rejoins] at hwill
      · exact Or.inl ⟨u, List.mem_append_left _ hu, hwill⟩
    · refine Or.inr ⟨harmed.version, fun other => ?_⟩
      by_cases hother : other = kind
      · subst hother
        rcases harmed.timers other with hkind | ⟨hnone, -⟩
        · exact Or.inr ⟨Function.update_self .., timer, hkind.symm.trans htimer, _,
            List.mem_append_right _ (List.mem_singleton_self _), random, options, rfl⟩
        · simp [hnone] at htimer
      · have hsame : s.roomTimers.clear kind other = s.roomTimers other :=
          Function.update_of_ne hother ..
        simp only [hsame]
        rcases harmed.timers other with hkind | ⟨hnone, timer', htimer', u, hu, hfired⟩
        · exact Or.inl hkind
        · rcases List.mem_cons.mp hu with rfl | hu
          · obtain ⟨random, options, hcall⟩ := hfired
            simp at hcall
          · exact Or.inr ⟨hnone, timer', htimer', u, List.mem_append_left _ hu, hfired⟩

/-- A task that ends without a use case leaves everything as it was. -/
theorem done (h : InStep s (t :: rest)) (hroom : s.room = some room) (ht : ¬WillPublish room t)
    (hcall : ∀ kind id, ¬Fired kind id t) : InStep s rest := by
  have hstored : InStep { s with room := some room } (rest ++ []) := by
    refine h.stored hroom (Or.inl rfl) (by simp) (by simp) fun hnew => ?_
    rcases hnew with hne | hwill | ⟨kind, timer, -, hfired⟩
    · exact absurd rfl hne
    · exact absurd hwill ht
    · exact absurd hfired (hcall kind timer.id)
  rwa [← hroom, List.append_nil] at hstored

/-- What a use case returned is announced. -/
theorem announced (h : InStep s (t :: rest)) (hroom : s.room = some room)
    (hnext : (op.step rt code (some room)).1 = some next)
    (hreply : (op.step rt code (some room)).2 = .ok reply)
    (hfired : ∀ kind id, Fired kind id t → t = .call op)
    (hwill : WillPublish room t → ∃ playerId displayName, op = .join playerId displayName) :
    InStep { s with room := some next } (rest ++ announcements op reply) := by
  have hannounced := announced_of_reply hreply
  rw [hnext] at hannounced
  have hnew : next ≠ room ∨ WillPublish room t ∨ (∃ kind, ∃ timer ∈ room.deadline kind,
      Fired kind timer.id t) → ∃ u ∈ announcements op reply, WillPublish next u := by
    rintro (hne | hpublish | ⟨kind, timer, htimer, hkind⟩)
    · cases hannounced with
      | published u r htasks hu hr =>
        obtain rfl := Option.some.inj hr
        exact ⟨u, by simp [htasks], Or.inl hu⟩
      | silent hsame => exact absurd (Option.some.inj hsame) hne
      | created hnone => simp at hnone
      | gone hnone => simp at hnone
    · obtain ⟨playerId, displayName, rfl⟩ := hwill hpublish
      obtain ⟨r, hr, htasks⟩ := published_join hreply
      obtain rfl : next = r := Option.some.inj (hnext.symm.trans hr)
      exact ⟨.publishRoom next, by simp [htasks], Or.inl rfl⟩
    · obtain ⟨random, options, hcall⟩ := hkind
      obtain rfl : op = kind.call timer.id random options :=
        Task.call.inj ((hfired kind timer.id ⟨random, options, hcall⟩).symm.trans hcall)
      obtain ⟨u, hu, hpublished⟩ := published_of_due htimer hreply hnext
      exact ⟨u, hu, Or.inl hpublished⟩
  refine h.stored hroom (version_of_step hnext) ?_ ?_ hnew
  · cases hannounced with
    | published u r htasks hu hr =>
      rw [htasks, List.forall_mem_singleton]
      cases u <;> simp_all [Task.published?, Task.forgets]
    | silent _ htasks => exact fun u hu => (htasks u hu).2
    | created hnone => simp at hnone
    | gone hnone => simp at hnone
  · cases hannounced with
    | published u r htasks hu hr =>
      obtain rfl := Option.some.inj hr
      rw [htasks, List.forall_mem_singleton, hu]
      rintro _ ⟨⟩
      rfl
    | silent _ htasks => exact fun u hu => by simp [(htasks u hu).1]
    | created hnone => simp at hnone
    | gone hnone => simp at hnone

/-- A handler that switches identities goes on to join again. -/
theorem switching (h : InStep s (t :: rest)) (hroom : s.room = some room)
    (hnext : (op.step rt code (some room)).1 = some next) {u : Task} (hkept : u.forgets = false)
    (hold : ∀ r ∈ u.published?, r = next) (hu : u.rejoins) :
    InStep { s with room := some next } (rest ++ [u]) :=
  h.stored hroom (version_of_step hnext) (List.forall_mem_singleton.mpr hkept)
    (List.forall_mem_singleton.mpr hold) fun _ => ⟨u, List.mem_singleton_self u, Or.inr hu⟩

/-- A use case that throws stores nothing; a timer or a handler in the middle of its work does not
throw. -/
theorem refused (h : InStep s (t :: rest)) (hroom : s.room = some room) {e : JsError}
    (he : (op.step rt code (some room)).2 = .error e) (hwill : ¬WillPublish room t)
    (hfired : ∀ kind id, ¬Fired kind id t) :
    InStep { s with room := (op.step rt code (some room)).1 } rest := by
  have hsame : (op.step rt code (some room)).1 = s.room :=
    ((answered rt code (some room) op).refused e he).trans hroom.symm
  rw [hsame]
  exact h.done hroom hwill hfired

end InStep

variable {w w' : World State Task Sent} {turn : Turn Env Task} {emitted : List Sent}

/-- Before the room is created every other call is refused. -/
theorem exists_error_of_none (hop : op.isTimer = false)
    (hcreate : ∀ hostId displayName now, op ≠ .create hostId displayName now) :
    ∃ e, op.step rt code none = (none, .error e) := by
  cases op with
  | create hostId displayName now => exact absurd rfl (hcreate hostId displayName now)
  | expireChallenge | autoPick | finishAtDeadline => simp [RoomOp.isTimer] at hop
  | join playerId displayName =>
    simp only [RoomOp.step, RoomOp.runChecked]
    split
    next e _ => exact ⟨e, rfl⟩
    next u hu =>
      obtain ⟨player, -, hv⟩ := bind_eq_ok.mp hu
      obtain rfl := pure_eq_ok.mp hv
      exact ⟨_, rfl⟩
  | submitPhrase playerId text now random =>
    cases text with
    | string text => exact ⟨_, rfl⟩
    | _ => exact ⟨_, rfl⟩
  | _ => exact ⟨_, rfl⟩

/-- Before the room is created no timers are armed, and no handler gets further than its first
call. -/
theorem InStep.resumed_of_none (h : InStep s (t :: rest)) (hroom : s.room = none) :
    InStep (t.resume rt code env s).shared (rest ++ (t.resume rt code env s).tasks) := by
  have hended := h.ended hroom
  have hself : { s with room := none } = s := by rw [← hroom]
  have hfirst := (h.absent hroom).2.2 t (List.mem_cons_self ..)
  cases t with
  | call op =>
    by_cases hcreate : ∃ hostId displayName now, op = .create hostId displayName now
    · obtain ⟨hostId, displayName, now, rfl⟩ := hcreate
      have htasks : (Task.resume rt code env s (.call (.create hostId displayName now))).tasks =
          [] := by
        simp only [Task.resume, Task.resumeCall]
        split <;> simp [announcements]
      have hslot := stored_step rt code none (.create hostId displayName now)
      have hshared : (Task.resume rt code env s (.call (.create hostId displayName now))).shared =
          { s with room := ((RoomOp.create hostId displayName now).step rt code none).1 } := by
        simp only [Task.resume, Task.resumeCall, hroom]
        split <;> rfl
      rw [htasks, List.append_nil, hshared]
      generalize ((RoomOp.create hostId displayName now).step rt code none).1 = slot' at hslot
      cases hslot with
      | unchanged => rwa [← hroom]
      | created p => exact h.created hroom rfl fun kind => by cases kind <;> rfl
    · simp only [not_exists] at hcreate
      obtain ⟨e, he⟩ : ∃ e, op.step rt code none = (none, .error e) :=
        exists_error_of_none (by simpa [Task.isFirst] using hfirst) hcreate
      simpa only [Task.resume, Task.resumeCall, hroom, he, List.append_nil, hself] using hended
  | fire kind => simpa [Task.resume, (h.absent hroom).2.1 kind] using hended
  | sweep => simpa [Task.resume, hroom] using hended
  | switch playerId displayName previousPlayer =>
    obtain ⟨e, he⟩ : ∃ e, (RoomOp.join playerId displayName).step rt code none =
        (none, .error e) := exists_error_of_none rfl (by simp)
    simpa only [Task.resume, Task.resumeSwitch, hroom, he, List.append_nil, hself] using hended
  | _ => simp [Task.isFirst] at hfirst

/-- Every turn keeps the timers in step, when the room stays and nothing fails half way. -/
theorem InStep.turned
    (h : Turned (fun env task state => task.resume rt code env state) w turn w' emitted)
    (hw : InStep w.shared w.tasks) (hfirst : ∀ t ∈ turn.spawned?, t.isFirst)
    (hkept : w.shared.room.isSome → w'.shared.room.isSome)
    (hfail : ∀ o ∈ emitted, o.fails = false) : InStep w'.shared w'.tasks := by
  have hfail : ∀ op error, .failed op error ∉ emitted := fun op error ho => by
    simpa [Sent.fails] using hfail _ ho
  cases h with
  | idle => exact hw
  | spawned t => exact (hw.spawned (hfirst t rfl)).perm (List.perm_append_singleton t w.tasks).symm
  | @resumed index env t rest htask htasks =>
    have hw := hw.perm htasks
    generalize w.shared = s at hw hkept hfail
    rcases hroom : s.room with - | room
    · exact hw.resumed_of_none hroom
    have hself : { s with room := some room } = s := by rw [← hroom]
    cases t with
    | call op =>
      rcases hstep : op.step rt code (some room) with ⟨slot', e | reply⟩
      · simp only [Task.resume, Task.resumeCall, hroom, hstep, List.append_nil] at hfail ⊢
        obtain rfl : _ = slot' := congrArg Prod.fst hstep
        refine hw.refused hroom (congrArg Prod.snd hstep) (by simp [WillPublish, Task.published?,
          Task.rejoins]) ?_
        rintro kind id ⟨random, options, hcall⟩
        obtain rfl := Task.call.inj hcall
        exact hfail _ e (failed_mem_thrown (isTimer_call ..) (congrArg Prod.snd hstep))
      · simp only [Task.resume, Task.resumeCall, hroom, hstep] at hkept ⊢
        obtain ⟨next, rfl⟩ := Option.isSome_iff_exists.mp (hkept rfl)
        exact hw.announced hroom (congrArg Prod.fst hstep) (congrArg Prod.snd hstep)
          (fun _ _ _ => rfl) (by simp [WillPublish, Task.published?, Task.rejoins])
    | fire kind =>
      cases htimer : s.roomTimers kind with
      | none =>
        simp only [Task.resume, htimer, List.append_nil]
        exact hw.done hroom (by simp [WillPublish, Task.published?, Task.rejoins])
          (by rintro _ _ ⟨_, _, hcall⟩; simp at hcall)
      | some timer =>
        simp only [Task.resume, htimer]
        exact hw.fired htimer env.random env.options
    | sweep =>
      simp only [Task.resume, hroom]
      rw [← hself]
      exact hw.stored hroom (Or.inl rfl) (by simp [Task.forgets]) (by simp [Task.published?])
        fun _ => ⟨.armRoomTimers room, by simp, Or.inl rfl⟩
    | switch playerId displayName previousPlayer =>
      rcases hstep : (RoomOp.join playerId displayName).step rt code (some room) with
        ⟨slot', e | reply⟩
      · simp only [Task.resume, Task.resumeSwitch, hroom, hstep, List.append_nil]
        obtain rfl : _ = slot' := congrArg Prod.fst hstep
        exact hw.refused hroom (congrArg Prod.snd hstep)
          (by simp [WillPublish, Task.published?, Task.rejoins])
          (by rintro _ _ ⟨_, _, hcall⟩; simp at hcall)
      · simp only [Task.resume, Task.resumeSwitch, hroom, hstep] at hkept ⊢
        obtain ⟨next, rfl⟩ := Option.isSome_iff_exists.mp (hkept rfl)
        split
        · exact hw.announced hroom (congrArg Prod.fst hstep) (congrArg Prod.snd hstep)
            (by rintro _ _ ⟨_, _, hcall⟩; simp at hcall) fun _ => ⟨_, _, rfl⟩
        · exact hw.switching hroom (congrArg Prod.fst hstep) rfl (by simp [Task.published?]) rfl
    | leavePreviousBinding playerId displayName previousPlayer =>
      rcases hstep : (RoomOp.leave previousPlayer env.random env.options.now).step rt code
        (some room) with ⟨slot', e | reply⟩
      · obtain rfl : slot' = some room := (congrArg Prod.fst hstep).symm.trans
          ((answered rt code (some room) _).refused e (congrArg Prod.snd hstep))
        cases e with
        | domain errorCode message =>
          simp only [Task.resume, Task.resumeLeavePreviousBinding, hroom, hstep]
          exact hw.switching hroom (congrArg Prod.fst hstep) rfl (by simp [Task.published?]) rfl
        | _ =>
          simp only [Task.resume, Task.resumeLeavePreviousBinding, hroom, hstep] at hfail
          exact absurd (List.mem_singleton_self _) (hfail _ _)
      · cases reply with
        | left left =>
          simp only [Task.resume, Task.resumeLeavePreviousBinding, hroom, hstep] at hkept ⊢
          obtain ⟨next, rfl⟩ := Option.isSome_iff_exists.mp (hkept rfl)
          obtain ⟨_, updated, -, -, hslot, hleft⟩ := left_of_reply (congrArg Prod.snd hstep)
          have hleft : left.room = some next := by
            rw [Reply.left.inj hleft, ← hslot, hstep]
          exact hw.switching hroom (congrArg Prod.fst hstep) (by simp [Task.forgets, hleft])
            (by simp [Task.published?, hleft]) rfl
        | _ =>
          simp only [Task.resume, Task.resumeLeavePreviousBinding, hroom, hstep] at hkept ⊢
          obtain ⟨next, rfl⟩ := Option.isSome_iff_exists.mp (hkept rfl)
          exact hw.switching hroom (congrArg Prod.fst hstep) rfl (by simp [Task.published?]) rfl
    | announceLeave left payload =>
      cases hleft : left.room with
      | none =>
        have hkept := hw.kept _ (List.mem_cons_self ..)
        simp [Task.forgets, hleft] at hkept
      | some r =>
        simp only [Task.resume, Task.resumeAnnounceLeave, hleft]
        cases payload with
        | none => exact hw.published hleft (by simp) (by simp [Task.rejoins])
        | some payload =>
          exact hw.published hleft (by simp [Task.forgets, Task.published?])
            fun _ => ⟨_, List.mem_singleton_self _, rfl⟩
    | rejoin playerId displayName =>
      rcases hstep : (RoomOp.join playerId displayName).step rt code (some room) with
        ⟨slot', e | reply⟩
      · simp only [Task.resume, Task.resumeRejoin, hroom, hstep] at hfail
        exact absurd (List.mem_singleton_self _) (hfail _ e)
      · simp only [Task.resume, Task.resumeRejoin, hroom, hstep] at hkept ⊢
        obtain ⟨next, rfl⟩ := Option.isSome_iff_exists.mp (hkept rfl)
        exact hw.announced hroom (congrArg Prod.fst hstep) (congrArg Prod.snd hstep)
          (by rintro _ _ ⟨_, _, hcall⟩; simp at hcall) fun _ => ⟨_, _, rfl⟩
    | publishRoom room | armRoomTimers room =>
      exact hw.published rfl (by simp [Task.resume]) (by simp [Task.rejoins])
    | announceVote r voterId dancerId changed =>
      cases changed with
      | true => exact hw.published rfl (by simp [Task.resume]) (by simp [Task.rejoins])
      | false =>
        simp only [Task.resume, List.append_nil]
        exact hw.done hroom (by simp [WillPublish, Task.published?, Task.rejoins])
          (by rintro _ _ ⟨_, _, hcall⟩; simp at hcall)
    | announceRematch room clearedVoterIds =>
      exact hw.published rfl (by simp [Task.resume]) (by simp [Task.rejoins])

/-! ### Versions in any order -/

/-- An older version adds nothing to what a newer one arms afterwards. -/
theorem armRoomTimers_armRoomTimers (s : State) (h : r.version ≤ next.version) :
    (s.armRoomTimers r).armRoomTimers next = s.armRoomTimers next := by
  by_cases hle : ∀ v ∈ s.armedVersion, v ≤ r.version
  · rw [armRoomTimers_of_le hle, armRoomTimers_of_le (by simpa using h),
      armRoomTimers_of_le fun v hv => (hle v hv).trans h]
  · simp only [not_forall, not_le] at hle
    obtain ⟨v, hv, hlt⟩ := hle
    rw [armRoomTimers_of_newer hv hlt]

/-- What a version armed stays when an older one, or the same again, comes after it. -/
theorem armRoomTimers_of_armed (s : State) (h : r.version ≤ next.version)
    (hsame : r.version = next.version → r = next) :
    (s.armRoomTimers next).armRoomTimers r = s.armRoomTimers next := by
  by_cases hle : ∀ v ∈ s.armedVersion, v ≤ next.version
  · rw [armRoomTimers_of_le hle]
    rcases h.lt_or_eq with hlt | heq
    · exact armRoomTimers_of_newer rfl hlt
    · obtain rfl := hsame heq
      exact armRoomTimers_of_le (by simp)
  · simp only [not_forall, not_le] at hle
    obtain ⟨v, hv, hlt⟩ := hle
    rw [armRoomTimers_of_newer hv hlt, armRoomTimers_of_newer hv (by omega)]

/-- Versions armed in any order, with repetitions, arm the timers of the highest. -/
theorem foldl_armRoomTimers (s : State) (rooms : List Room) (hmem : next ∈ rooms)
    (hle : ∀ r ∈ rooms, r.version ≤ next.version)
    (hsame : ∀ r ∈ rooms, r.version = next.version → r = next) :
    rooms.foldl State.armRoomTimers s = s.armRoomTimers next := by
  induction rooms generalizing s with
  | nil => simp at hmem
  | cons r rooms ih =>
    rw [List.forall_mem_cons] at hle hsame
    rw [List.foldl_cons]
    by_cases hrest : next ∈ rooms
    · rw [ih (s.armRoomTimers r) hrest hle.2 hsame.2, armRoomTimers_armRoomTimers s hle.1]
    · obtain rfl : next = r := (List.mem_cons.mp hmem).resolve_right hrest
      clear ih hmem hrest
      induction rooms with
      | nil => rfl
      | cons r rooms ih =>
        have hle' := List.forall_mem_cons.mp hle.2
        have hsame' := List.forall_mem_cons.mp hsame.2
        rw [List.foldl_cons, armRoomTimers_of_armed s hle'.1 hsame'.1]
        exact ih ⟨hle.1, hle'.2⟩ ⟨hsame.1, hsame'.2⟩

/-- A room that is not deleted only gets newer. -/
theorem version_run {ops : List RoomOp}
    (hkept : ∀ e ∈ (roomMachine rt code).trace (some room) ops, e.before.isSome → e.after.isSome) :
    ∃ next ∈ (roomMachine rt code).run (some room) ops,
      room.version ≤ next.version ∧ (next.version = room.version → next = room) := by
  refine Machine.run_invariant (P := fun slot : Option Room => ∃ next ∈ slot,
    room.version ≤ next.version ∧ (next.version = room.version → next = room))
    (fun e he ⟨next, hnext, hle, hsame⟩ => ?_) ⟨room, rfl, le_rfl, fun _ => rfl⟩
  obtain ⟨after, hafter⟩ := Option.isSome_iff_exists.mp (hkept e he (by rw [hnext]; rfl))
  refine ⟨after, hafter, ?_⟩
  have hstored := stored_of_mem_trace he
  rw [hnext, hafter] at hstored
  generalize e.input = op at hstored
  cases hstored with
  | unchanged => exact ⟨hle, hsame⟩
  | changed =>
    refine ⟨Nat.le_succ_of_le hle, fun h => ?_⟩
    exact absurd h (Nat.lt_succ_of_le hle).ne'

/-- Two rooms stored in one run are versions of one another. -/
theorem eq_of_version_eq {ops pre pre' post post' : List RoomOp}
    (hkept : ∀ e ∈ (roomMachine rt code).trace none ops, e.before.isSome → e.after.isSome)
    (hpre : ops = pre ++ post) (hpre' : ops = pre' ++ post')
    (hroom : (roomMachine rt code).run none pre = some room)
    (hnext : (roomMachine rt code).run none pre' = some next)
    (hversion : next.version = room.version) : next = room := by
  have hlater : ∀ {pre pre' post' room next}, ops = pre' ++ post' → pre <+: pre' →
      (roomMachine rt code).run none pre = some room →
      (roomMachine rt code).run none pre' = some next → next.version = room.version →
      next = room := by
    rintro pre _ post' room next hops ⟨mid, rfl⟩ hroom hnext hversion
    rw [Machine.run_append, hroom] at hnext
    have hmid : ∀ e ∈ (roomMachine rt code).trace (some room) mid,
        e.before.isSome → e.after.isSome := fun e he => by
      refine hkept e ?_
      rw [hops, List.append_assoc, Machine.trace_append, Machine.trace_append, hroom]
      exact List.mem_append_right _ (List.mem_append_left _ he)
    obtain ⟨last, hlast, -, hsame⟩ := version_run hmid
    obtain rfl : last = next := Option.some.inj (hlast.symm.trans hnext)
    exact hsame hversion
  rcases List.prefix_or_prefix_of_prefix (hpre ▸ List.prefix_append pre post)
    (hpre' ▸ List.prefix_append pre' post') with hprefix | hprefix
  · exact hlater hpre' hprefix hroom hnext hversion
  · exact (hlater hpre hprefix hnext hroom hversion.symm).symm

/-! ### Whole runs -/

theorem inStep_idle : InStep idle.shared idle.tasks where
  kept := by simp [idle]
  absent _ := ⟨rfl, fun _ => rfl, by simp [idle]⟩
  older := by simp [idle]
  armed_le := by simp [idle]
  pending := by simp [idle]

/-- A room that needs its deadlines is timed by them. -/
theorem timedBy_deadline (hinv : RoomInvariant rt room) (hselection : SelectionInvariant room) :
    room.TimedBy room.deadline where
  songChallenge timer := by
    simp only [Room.deadline, Option.bind_eq_some_iff, Option.ite_none_right_eq_some,
      Option.some.injEq]
    constructor
    · rintro ⟨selection, hs, ⟨hstatus, hphase⟩, rfl⟩
      exact ⟨hstatus, selection, hs, hphase, rfl⟩
    · rintro ⟨hstatus, selection, hs, hphase, rfl⟩
      exact ⟨selection, hs, ⟨hstatus, hphase⟩, rfl⟩
  songChoose := by
    cases hs : room.songSelection with
    | none => simp [Room.deadline, hs]
    | some selection =>
      by_cases hphase : room.status = .waiting ∧ selection.phase = .choosing
      · have hdeadline := ((hselection.valid selection hs).choosing hphase.2).2
        simp [Room.deadline, hs, hphase, hdeadline]
      · simp [Room.deadline, hs, hphase]
  songChoose_eq timer htimer := by
    obtain ⟨selection, hs, hif⟩ := Option.bind_eq_some_iff.mp htimer
    split_ifs at hif
    obtain ⟨deadline, hdeadline, rfl⟩ := Option.map_eq_some_iff.mp hif
    exact ⟨selection, hs, hdeadline, rfl⟩
  battleEnd := by
    by_cases hstatus : room.status = .battling
    · obtain ⟨battle, hbattle, -⟩ := hinv.battling hstatus
      simp [Room.deadline, hbattle, hstatus]
    · simp [Room.deadline, hstatus]
  battleEnd_eq timer htimer := by
    obtain ⟨battle, hbattle, hif⟩ := Option.bind_eq_some_iff.mp htimer
    split_ifs at hif
    exact ⟨battle, hbattle, (Option.some.inj hif).symm⟩

/-- When no handler is under way, the timers of a room that was not deleted are those that the
stored room needs; and the versions of a room, published in any order and with repetitions, arm the
timers of the highest. -/
theorem timers_match_stored_room (rt : Runtime) (code : JsString) :
    (∀ turns : List (Turn Env Task), (∀ turn ∈ turns, ∀ t ∈ turn.spawned?, t.isFirst) →
      (∀ e ∈ (publishing rt code).trace idle turns,
        (e.before.shared.room.isSome → e.after.shared.room.isSome) ∧
          ∀ o ∈ e.output, o.fails = false) →
      ((publishing rt code).run idle turns).tasks = [] →
      ∀ room ∈ ((publishing rt code).run idle turns).shared.room,
        room.TimedBy ((publishing rt code).run idle turns).shared.roomTimers) ∧
    ∀ (ops : List RoomOp) (rooms : List Room) (top : Room) (s : State),
      (∀ e ∈ (roomMachine rt code).trace none ops, e.before.isSome → e.after.isSome) →
      (∀ room ∈ rooms, ∃ pre post, ops = pre ++ post ∧
        (roomMachine rt code).run none pre = some room) →
      top ∈ rooms → (∀ room ∈ rooms, room.version ≤ top.version) →
      rooms.foldl State.armRoomTimers s = s.armRoomTimers top := by
  constructor
  · intro turns hfirst hturns hdone room hroom
    have hinv : RoomInvariant rt room := room_run (P := fun slot => ∀ r ∈ slot, RoomInvariant rt r)
      (fun _ _ _ hstored h => hstored.roomInvariant h) (by simp) turns room hroom
    have hselection : SelectionInvariant room :=
      room_run (P := fun slot => ∀ r ∈ slot, SelectionInvariant r)
        (fun _ _ _ hstored h => hstored.selectionInvariant h) (by simp) turns room hroom
    have hstep : InStep ((publishing rt code).run idle turns).shared
        ((publishing rt code).run idle turns).tasks := by
      refine Machine.run_invariant (P := fun w : World State Task Sent => InStep w.shared w.tasks)
        (fun e he hw => ?_) inStep_idle
      obtain ⟨hkept, hfail⟩ := hturns e he
      exact InStep.turned (turned_of_mem_trace he) hw
        (hfirst _ (Machine.input_mem_of_mem_trace he)) hkept hfail
    have htimers : ((publishing rt code).run idle turns).shared.roomTimers = room.deadline := by
      rcases hstep.pending room hroom with ⟨t, ht, -⟩ | harmed
      · simp [hdone] at ht
      · funext kind
        rcases harmed.timers kind with hkind | ⟨-, timer, -, t, ht, -⟩
        · exact hkind
        · simp [hdone] at ht
    rw [htimers]
    exact timedBy_deadline hinv hselection
  · intro ops rooms top s hkept hstored hmem hle
    obtain ⟨pre', post', hpre', htop⟩ := hstored top hmem
    refine foldl_armRoomTimers s rooms hmem hle fun room hroom hsame => ?_
    obtain ⟨pre, post, hpre, hroom⟩ := hstored room hroom
    exact eq_of_version_eq hkept hpre' hpre htop hroom hsame

/-- Every call of a list is made and announced before the next. -/
def sampleHandlers (ops : List RoomOp) : List (Turn Env Task) :=
  ops.flatMap fun op => [.spawn (.call op), .resume 0 ⟨.first, { now := 0, battleId := [] }⟩,
    .resume 0 ⟨.first, { now := 0, battleId := [] }⟩]

/-- The lobby up to the challenge `c1`; version 0 of the room is armed before and after version
1. -/
theorem timers_match_stored_room_sampleLobby :
    (∃ room ∈ ((publishing .ascii (js "ROOM22")).run idle
        (sampleHandlers (sampleLobby.take 9))).shared.room, room.TimedBy
      ((publishing .ascii (js "ROOM22")).run idle
        (sampleHandlers (sampleLobby.take 9))).shared.roomTimers) ∧
    ∃ older newer : Room, [older, newer, older].foldl State.armRoomTimers {} =
      State.armRoomTimers {} newer := by
  obtain ⟨hturns, hversions⟩ := timers_match_stored_room .ascii (js "ROOM22")
  constructor
  · have hroom : ((publishing .ascii (js "ROOM22")).run idle
        (sampleHandlers (sampleLobby.take 9))).shared.room.isSome := by decide +kernel
    obtain ⟨room, hroom⟩ := Option.isSome_iff_exists.mp hroom
    exact ⟨room, hroom, hturns _ (by decide) (by decide +kernel) (by decide +kernel) room hroom⟩
  · have holder : ((roomMachine .ascii (js "ROOM22")).run none (sampleLobby.take 1)).map
        (·.version) = some 0 := by decide +kernel
    have hnewer : ((roomMachine .ascii (js "ROOM22")).run none (sampleLobby.take 2)).map
        (·.version) = some 1 := by decide +kernel
    obtain ⟨older, holder, hzero⟩ := Option.map_eq_some_iff.mp holder
    obtain ⟨newer, hnewer, hone⟩ := Option.map_eq_some_iff.mp hnewer
    refine ⟨older, newer, hversions (sampleLobby.take 2) [older, newer, older] newer {}
      (by decide +kernel) ?_ (by simp) (by simp [hzero, hone])⟩
    simp only [List.mem_cons, List.not_mem_nil, or_false]
    rintro room (rfl | rfl | rfl)
    · exact ⟨_, (sampleLobby.take 2).drop 1, rfl, holder⟩
    · exact ⟨_, [], (List.append_nil _).symm, hnewer⟩
    · exact ⟨_, (sampleLobby.take 2).drop 1, rfl, holder⟩

end Publishing

end DanceSync
