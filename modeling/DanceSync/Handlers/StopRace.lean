import DanceSync.Handlers.Pieces
import DanceSync.Lifecycle.BattleEnd

/-!
# Which race a stop stops

`WordRaceScheduler.stop` names only the room. The handlers that call it decided to from a room, or a
room and a race, that they read before: when a battle starts and its race is saved in between, the
stop discards the new race. As long as no such handler is under way when a race is saved, and no
late start saves the race of an older battle over it, the race of the running battle is not stopped.

Battle ids are drawn by `randomUUID`: no two starts have the same.

## Main definitions

* `Task.willStop`: the handler is on its way to stop a race although the battle runs.
* `SavesInTime`: the condition on the state in which a race is saved.
* `Fresh`: the battle ids of the starts to come are new.
* `RaceKept`: the race of the running battle, once saved, is stored and nothing is about to stop it.

## Main results

* `departure_stops_next_race`: a departure from the lobby stops the race of the next battle.
* `running_race_not_stopped`.
-/

namespace DanceSync

/-- The id of the battle that runs in the stored room. -/
def runningId (slot : Option Room) : Option JsString :=
  slot.bind fun room => if room.status = .battling then room.battle.map (·.id) else none

/-- A race of the battle was saved. -/
def Saved (battleId : JsString) (log : List Output) : Prop := ∃ o ∈ log, o.saves battleId

instance (battleId : JsString) (log : List Output) : Decidable (Saved battleId log) :=
  inferInstanceAs (Decidable (∃ o ∈ log, o.saves battleId))

/-- The handler decided to stop the race, or will because of what it read, although the battle
runs. -/
def Task.willStop (battleId : JsString) : Task → Bool
  | .openRoom _ room => runningId room ≠ some battleId
  | .openRace _ room (some race) => OpenWordRound.battleOver room race
  | t => t.stops

/-- The room for which a turn plans and saves a race. -/
def Turn.planned? (sv : Service) (w : World Shared Task Output) :
    Turn Env Task → Option Room
  | .spawn _ => none
  | .resume index env =>
    match w.tasks[index]? with
    | some (.planRace (some room)) =>
      if (WordRaceService.plan .double sv.rt room sv.options env.random).isOk then some room
      else none
    | _ => none

/-- When a race is saved while a battle runs: a stored race of the running battle is not replaced by
one of another, and when the saved race is the one of the running battle, no handler is on its way
to stop it. -/
def SavesInTime (sv : Service) (w : World Shared Task Output) (turn : Turn Env Task) : Prop :=
  ∀ room ∈ turn.planned? sv w, ∀ battleId ∈ runningId w.shared.room,
    (w.shared.race.map (·.battleId) = some battleId → runningId (some room) = some battleId) ∧
    (runningId (some room) = some battleId → ∀ t ∈ w.tasks, t.willStop battleId = false)

instance (sv : Service) (w : World Shared Task Output) (turn : Turn Env Task) :
    Decidable (SavesInTime sv w turn) :=
  inferInstanceAs (Decidable (∀ room ∈ turn.planned? sv w, ∀ battleId ∈ runningId w.shared.room,
    (w.shared.race.map (·.battleId) = some battleId → runningId (some room) = some battleId) ∧
    (runningId (some room) = some battleId → ∀ t ∈ w.tasks, t.willStop battleId = false)))

/-- The id of the battle that a call may start. -/
def Task.battleId? : Task → Option JsString
  | .call op => op.battleOptions?.map (·.battleId)
  | _ => none

/-- The id of the battle that a spawned call may start. -/
def Turn.battleId? (turn : Turn Env Task) : Option JsString := turn.spawned?.bind Task.battleId?

/-- The ids of the battles that may still start: under way and to come. -/
def comingIds (turns : List (Turn Env Task)) (tasks : List Task) : List JsString :=
  tasks.filterMap Task.battleId? ++ turns.filterMap Turn.battleId?

/-- The stored room has a battle with this id. -/
def HasBattle (battleId : JsString) (slot : Option Room) : Prop :=
  ∃ room ∈ slot, ∃ battle ∈ room.battle, battle.id = battleId

/-- The id is one of a stored battle, of a battle that a start has read, or of a saved race. -/
def Seen (battleId : JsString) (w : World Shared Task Output) : Prop :=
  HasBattle battleId w.shared.room ∨
    (∃ slot, Task.planRace slot ∈ w.tasks ∧ HasBattle battleId slot) ∨ Saved battleId w.log

/-- The starts under way and to come have different ids, which were not seen. -/
structure Fresh (turns : List (Turn Env Task)) (w : World Shared Task Output) : Prop where
  nodup : (comingIds turns w.tasks).Nodup
  unseen : ∀ id ∈ comingIds turns w.tasks, ¬Seen id w

/-- The race of the running battle, once saved, is stored, and no handler is on its way to stop
it. -/
structure RaceKept (w : World Shared Task Output) : Prop where
  stored : ∀ id, Running id w.shared.room → Saved id w.log →
    w.shared.race.map (·.battleId) = some id
  tasks : ∀ id, Running id w.shared.room → Saved id w.log → ∀ t ∈ w.tasks, t.willStop id = false

variable {sv : Service} {env : Env} {s : Shared} {t u : Task} {log : List Output}
  {battleId : JsString} {room : Room} {slot slot' : Option Room} {op : RoomOp} {rt : Runtime}
  {code : JsString} {w w' : World Shared Task Output} {turn : Turn Env Task}
  {turns : List (Turn Env Task)} {emitted : List Output}

theorem runningId_eq_some_iff : runningId slot = some battleId ↔ Running battleId slot := by
  cases slot with
  | none => simp [runningId, Running]
  | some room => by_cases hstatus : room.status = .battling <;> simp [runningId, Running, hstatus]

theorem battleOver_eq_false_iff {race : WordRace} :
    OpenWordRound.battleOver slot race = false ↔ Running race.battleId slot := by
  cases slot with
  | none => simp [OpenWordRound.battleOver, Running]
  | some room => simp [OpenWordRound.battleOver, Running]

/-! ### Ids -/

/-- Only a start gives the room a battle with a new id. -/
theorem Stored.hasBattle (hstored : Stored rt code slot op slot') (h : HasBattle battleId slot') :
    HasBattle battleId slot ∨ op.battleOptions?.map (·.battleId) = some battleId := by
  obtain ⟨r, hr, battle, hbattle, rfl⟩ := h
  cases hstored with
  | unchanged => exact Or.inl ⟨r, hr, battle, hbattle, rfl⟩
  | created =>
    obtain rfl := Option.some.inj hr
    simp [RoomService.newRoom] at hbattle
  | deleted => simp at hr
  | @changed room next _ hchange =>
    obtain rfl := Option.some.inj hr
    have hbattle : next.battle = some battle := hbattle
    cases hchange.battleChange with
    | kept _ hkept => exact Or.inl ⟨room, rfl, battle, hkept.symm.trans hbattle, rfl⟩
    | started options hop _ hstarted =>
      refine Or.inr ?_
      rw [hop, Option.map_some, id_of_started hstarted hbattle]
    | continued before after _ hbefore _ hafter hid
    | finished before after _ _ hbefore _ hafter hid =>
      obtain rfl := Option.some.inj (hafter.symm.trans hbattle)
      exact Or.inl ⟨room, rfl, before, hbefore, hid.symm⟩
    | rematched _ _ _ hnone => simp [hnone] at hbattle

theorem Running.hasBattle (h : Running battleId slot) : HasBattle battleId slot := by
  obtain ⟨room, hroom, -, hbattle⟩ := h
  exact ⟨room, hroom, hbattle⟩

/-- A piece saves a race of the battle whose room a start has read. -/
theorem saved_resume (h : Saved battleId (t.resume sv env s).emitted) :
    ∃ room race, t = .planRace (some room) ∧
      WordRaceService.plan .double sv.rt room sv.options env.random = .ok race ∧
      (t.resume sv env s).shared.race = some race ∧ race.battleId = battleId ∧
      Running battleId (some room) := by
  obtain ⟨o, ho, hsaves⟩ := h
  have hchanges : o.changesRace := by cases o <;> simp_all [Output.saves, Output.changesRace]
  rcases resume_raceMoved sv env s t with ⟨-, hquiet⟩ |
    ⟨op, reply, before, after, -, -, -, hemitted⟩ |
    ⟨room, race, ht, hplan, hrace, hemitted⟩ | ⟨-, -, hemitted⟩
  · simp [hquiet o ho] at hchanges
  · rw [hemitted] at ho
    unfold RaceReply.outputs at ho
    split at ho
    next =>
      obtain ⟨playerId, -, rfl⟩ := List.mem_map.mp ho
      simp [Output.saves] at hsaves
    next =>
      obtain rfl := List.mem_singleton.mp ho
      simp [Output.saves] at hsaves
    next => simp at ho
  · rw [hemitted, List.mem_singleton] at ho
    subst ho
    obtain rfl : race.battleId = battleId := by simpa [Output.saves] using hsaves
    obtain ⟨-, battle, hstatus, hbattle, hid, -⟩ := WordRaceService.plan_eq_ok hplan
    exact ⟨room, race, ht, hplan, hrace, rfl, room, rfl, hstatus, battle, hbattle, hid.symm⟩
  · rw [hemitted, List.mem_singleton] at ho
    simp [ho, Output.saves] at hsaves

/-- A piece shows only ids that were seen before, and the one of the battle it starts. -/
theorem seen_resume {rest : List Task} (htasks : w.tasks.Perm (t :: rest))
    (h : Seen battleId
      { shared := (t.resume sv env w.shared).shared
        tasks := rest ++ (t.resume sv env w.shared).tasks
        log := w.log ++ (t.resume sv env w.shared).emitted }) :
    Seen battleId w ∨ t.battleId? = some battleId := by
  have hmem : t ∈ w.tasks := htasks.mem_iff.mpr (List.mem_cons_self ..)
  rcases h with hroom | ⟨slot, hslot, hbattle⟩ | ⟨o, ho, hsaves⟩
  · have hroom : HasBattle battleId (t.resume sv env w.shared).shared.room := hroom
    rw [room_resume] at hroom
    cases t with
    | call op =>
      rcases (step_spec sv.rt sv.code w.shared.room op).hasBattle hroom with hbattle | hstart
      · exact Or.inl (Or.inl hbattle)
      · exact Or.inr hstart
    | awardWordBonus playerId race round =>
      rcases (step_spec sv.rt sv.code w.shared.room (.awardWordBonus playerId)).hasBattle hroom with
        hbattle | hstart
      · exact Or.inl (Or.inl hbattle)
      · simp [RoomOp.battleOptions?] at hstart
    | _ => exact Or.inl (Or.inl hroom)
  · rcases List.mem_append.mp hslot with hslot | hslot
    · exact Or.inl (Or.inr (Or.inl ⟨slot, htasks.mem_iff.mpr (List.mem_cons_of_mem _ hslot),
        hbattle⟩))
    · cases follows_of_mem hslot
      exact Or.inl (Or.inl hbattle)
  · rcases List.mem_append.mp ho with ho | ho
    · exact Or.inl (Or.inr (Or.inr ⟨o, ho, hsaves⟩))
    · obtain ⟨room, race, rfl, -, -, -, hrunning⟩ := saved_resume ⟨o, ho, hsaves⟩
      exact Or.inl (Or.inr (Or.inl ⟨some room, hmem, hrunning.hasBattle⟩))

theorem Turned.fresh (h : Turned (fun env t s => Task.resume sv env s t) w turn w' emitted)
    (hspawn : ∀ t ∈ turn.spawned?, t.isFirst) (hw : Fresh (turn :: turns) w) :
    Fresh turns w' := by
  obtain ⟨hnodup, hunseen⟩ := hw
  cases h with
  | idle => exact ⟨hnodup, hunseen⟩
  | spawned t =>
    have hcoming : comingIds (.spawn t :: turns) w.tasks = comingIds turns (w.tasks ++ [t]) := by
      have hbattleId : Turn.battleId? (.spawn t) = t.battleId? := rfl
      cases hid : t.battleId? <;>
        simp [comingIds, hbattleId, hid]
    refine ⟨hcoming ▸ hnodup, fun id hmem hseen => hunseen id (hcoming ▸ hmem) ?_⟩
    rcases hseen with hroom | ⟨slot, hslot, hbattle⟩ | hsaved
    · exact Or.inl hroom
    · rcases List.mem_append.mp hslot with hslot | hslot
      · exact Or.inr (Or.inl ⟨slot, hslot, hbattle⟩)
      · have hfirst := hspawn t rfl
        simp [← List.mem_singleton.mp hslot, Task.isFirst] at hfirst
    · exact Or.inr (Or.inr hsaved)
  | @resumed index env t rest htask htasks =>
    have hnew : (t.resume sv env w.shared).tasks.filterMap Task.battleId? = [] := by
      refine List.filterMap_eq_nil_iff.mpr fun u hu => ?_
      cases follows_of_mem hu <;> rfl
    have hafter : comingIds turns (rest ++ (t.resume sv env w.shared).tasks) =
        comingIds turns rest := by
      simp [comingIds, hnew]
    have hbefore : (comingIds (.resume index env :: turns) w.tasks).Perm
        (t.battleId?.toList ++ comingIds turns rest) := by
      have hperm : (w.tasks.filterMap Task.battleId?).Perm
          (t.battleId?.toList ++ rest.filterMap Task.battleId?) := by
        refine (htasks.filterMap Task.battleId?).trans (List.Perm.of_eq ?_)
        cases hid : t.battleId? <;> simp [hid]
      rw [comingIds, comingIds, ← List.append_assoc]
      exact hperm.append_right _
    have hsplit := List.nodup_append.mp (hbefore.nodup_iff.mp hnodup)
    refine ⟨hafter ▸ hsplit.2.1, fun id hmem hseen => ?_⟩
    have hmem : id ∈ comingIds turns rest := hafter ▸ hmem
    rcases seen_resume htasks hseen with hseen | hstart
    · exact hunseen id (hbefore.mem_iff.mpr (List.mem_append_right _ hmem)) hseen
    · exact hsplit.2.2 id (by simp [hstart]) id hmem rfl

/-! ### One piece -/

/-- A departure that leaves a running battle stops nothing. -/
theorem stops_of_left {playerId : JsString} {random : RandomIndex} {now : Instant}
    {output : JoinRoom.LeaveRoomOutput}
    (hreply : ((RoomOp.leave playerId random now).step rt code slot).2 = .ok (.left output))
    (hrunning : Running battleId ((RoomOp.leave playerId random now).step rt code slot).1) :
    output.stops = false := by
  obtain ⟨room, updated, rfl, -, hafter, heq⟩ := left_of_reply hreply
  obtain rfl := Reply.left.inj heq
  obtain ⟨r, hr, hstatus, -⟩ := hrunning
  have hslot : departedSlot room updated = some r := hafter.symm.trans hr
  obtain ⟨-, ⟨⟩⟩ := Option.ite_none_left_eq_some.mp hslot
  have hstatus : updated.status = .battling := hstatus
  simp [JoinRoom.LeaveRoomOutput.stops, hslot, hstatus]

/-- While the battle runs and its race is stored, a piece leaves no handler on its way to stop
it. -/
theorem willStop_resume (hrunning : Running battleId (t.resume sv env s).shared.room)
    (hbefore : Running battleId s.room) (hrace : s.race.map (·.battleId) = some battleId)
    (ht : t.willStop battleId = false) (hu : u ∈ (t.resume sv env s).tasks) :
    u.willStop battleId = false := by
  rw [room_resume] at hrunning
  cases follows_of_mem hu with
  | left hreply => exact stops_of_left hreply hrunning
  | finished hreply =>
    obtain ⟨r, hr, hstatus, -⟩ := hrunning
    rcases finished_of_reply hreply with ⟨heq, -⟩ | ⟨room, -, heq, -⟩ |
      ⟨room, battle, stored, -, -, -, -, -, rfl, -, hafter⟩
    · simp at heq
    · simp at heq
    · obtain rfl := Option.some.inj (hafter.symm.trans hr)
      simp [RoomService.finished] at hstatus
  | rematched hreply =>
    obtain ⟨r, hr, hstatus, -⟩ := hrunning
    obtain ⟨room, hafter, hwaiting⟩ := rematched_of_reply hreply
    obtain rfl := Option.some.inj (hafter.symm.trans hr)
    simp [hwaiting] at hstatus
  | roomRead => simpa [Task.willStop] using runningId_eq_some_iff.mpr hbefore
  | raceRead =>
    obtain ⟨race, hslot, rfl⟩ := Option.map_eq_some_iff.mp hrace
    have hread := runningId_eq_some_iff.mp (by simpa [Task.willStop] using ht)
    rw [hslot]
    exact battleOver_eq_false_iff.mpr hread
  | battleOver hover =>
    have hkept : OpenWordRound.battleOver _ _ = false := ht
    simp [hover] at hkept
  | _ => rfl

/-- A running battle whose race was saved is kept by a piece, or is the one it saves the race of. -/
theorem running_before (hunseen : ∀ id ∈ t.battleId?, ¬Seen id w)
    (hrunning : Running battleId (t.resume sv env w.shared).shared.room)
    (hsaved : Saved battleId (w.log ++ (t.resume sv env w.shared).emitted)) :
    Running battleId w.shared.room ∧
      (Saved battleId w.log ∨ Saved battleId (t.resume sv env w.shared).emitted) := by
  obtain ⟨o, ho, hsaves⟩ := hsaved
  rcases List.mem_append.mp ho with ho | ho
  · refine ⟨?_, Or.inl ⟨o, ho, hsaves⟩⟩
    rw [room_resume] at hrunning
    split at hrunning
    next op hop =>
      by_contra hnot
      refine (step_spec sv.rt sv.code w.shared.room op).not_running (fun options hstart hid => ?_)
        hnot hrunning
      have hstarts : t.battleId? = some battleId := by
        cases t with
        | call op' =>
          obtain rfl := Option.some.inj hop
          rw [Task.battleId?, show op'.battleOptions? = some options from hstart, Option.map_some,
            hid]
        | awardWordBonus =>
          obtain rfl := Option.some.inj hop
          simp [RoomOp.battleOptions?] at hstart
        | _ => simp [Task.roomOp?] at hop
      exact hunseen battleId hstarts (Or.inr (Or.inr ⟨o, ho, hsaves⟩))
    next => exact hrunning
  · have hpiece : Saved battleId (t.resume sv env w.shared).emitted := ⟨o, ho, hsaves⟩
    obtain ⟨room, race, rfl, -⟩ := saved_resume hpiece
    rw [room_resume] at hrunning
    exact ⟨hrunning, Or.inr hpiece⟩

/-- The race of the running battle stays the stored one, unless it is stopped or replaced. -/
theorem race_resume (hrace : s.race.map (·.battleId) = some battleId) (hstop : t.stops = false)
    (hsaves : ∀ room race, t = .planRace (some room) →
      WordRaceService.plan .double sv.rt room sv.options env.random = .ok race →
        race.battleId = battleId) :
    (t.resume sv env s).shared.race.map (·.battleId) = some battleId := by
  rcases resume_raceMoved sv env s t with ⟨hkept, -⟩ |
    ⟨op, reply, before, after, hslot, hafter, hchange, -⟩ |
    ⟨room, race, hplanned, hplan, hsaved, -⟩ | ⟨hstops, -⟩
  · rw [hkept, hrace]
  · rw [hafter, Option.map_some, hchange.sameRace.battleId]
    rwa [hslot] at hrace
  · rw [hsaved, Option.map_some, hsaves room race hplanned hplan]
  · simp [hstops] at hstop

theorem stops_of_willStop (h : t.willStop battleId = false) : t.stops = false := by
  cases t <;> first | rfl | exact h

theorem willStop_of_isFirst (h : t.isFirst) : t.willStop battleId = false := by
  cases t <;> first | rfl | simp [Task.isFirst] at h

/-- The room and the race of a turn that saves a race. -/
theorem planned?_resume {index : ℕ} {race : WordRace}
    (htask : w.tasks[index]? = some (.planRace (some room)))
    (hplan : WordRaceService.plan .double sv.rt room sv.options env.random = .ok race) :
    Turn.planned? sv w (.resume index env) = some room ∧
      runningId (some room) = some race.battleId := by
  constructor
  · simp [Turn.planned?, htask, hplan, Except.isOk, Except.toBool]
  · obtain ⟨-, battle, hstatus, hbattle, hid, -⟩ := WordRaceService.plan_eq_ok hplan
    simp [runningId, hstatus, hbattle, hid]

theorem Turned.raceKept (h : Turned (fun env t s => Task.resume sv env s t) w turn w' emitted)
    (hspawn : ∀ t ∈ turn.spawned?, t.isFirst) (hsaves : SavesInTime sv w turn)
    (hfresh : Fresh (turn :: turns) w) (hw : RaceKept w) : RaceKept w' := by
  cases h with
  | idle => exact hw
  | spawned t =>
    refine ⟨hw.stored, fun id hrunning hsaved u hu => ?_⟩
    rcases List.mem_append.mp hu with hu | hu
    · exact hw.tasks id hrunning hsaved u hu
    · exact willStop_of_isFirst (hspawn u (List.mem_singleton.mp hu ▸ rfl))
  | @resumed index env t rest htask htasks =>
    have hmem : t ∈ w.tasks := htasks.mem_iff.mpr (List.mem_cons_self ..)
    have hunseen : ∀ id ∈ t.battleId?, ¬Seen id w := fun id hid =>
      hfresh.unseen id (List.mem_append_left _ (List.mem_filterMap.mpr ⟨t, hmem, hid⟩))
    have hkept : ∀ id, Running id (t.resume sv env w.shared).shared.room →
        Saved id (w.log ++ (t.resume sv env w.shared).emitted) →
        (t.resume sv env w.shared).shared.race.map (·.battleId) = some id ∧
          ∀ u ∈ rest ++ (t.resume sv env w.shared).tasks, u.willStop id = false := by
      intro id hrunning hsaved
      obtain ⟨hbefore, hsaved | hsaved⟩ := running_before hunseen hrunning hsaved
      · have hrace := hw.stored id hbefore hsaved
        have hstops := hw.tasks id hbefore hsaved
        refine ⟨race_resume hrace (stops_of_willStop (hstops t hmem)) ?_, fun u hu => ?_⟩
        · rintro room race rfl hplan
          obtain ⟨hplanned, hid⟩ := planned?_resume htask hplan
          have hsame := (hsaves room hplanned id (runningId_eq_some_iff.mpr hbefore)).1 hrace
          exact Option.some.inj (hid.symm.trans hsame)
        · rcases List.mem_append.mp hu with hu | hu
          · exact hstops u (htasks.mem_iff.mpr (List.mem_cons_of_mem _ hu))
          · exact willStop_resume hrunning hbefore hrace (hstops t hmem) hu
      · obtain ⟨room, race, rfl, hplan, hrace, rfl, -⟩ := saved_resume hsaved
        obtain ⟨hplanned, hid⟩ := planned?_resume htask hplan
        refine ⟨by rw [hrace, Option.map_some], fun u hu => ?_⟩
        rcases List.mem_append.mp hu with hu | hu
        · exact (hsaves room hplanned _ (runningId_eq_some_iff.mpr hbefore)).2 hid u
            (htasks.mem_iff.mpr (List.mem_cons_of_mem _ hu))
        · cases follows_of_mem hu
          rfl
    exact ⟨fun id hrunning hsaved => (hkept id hrunning hsaved).1,
      fun id hrunning hsaved => (hkept id hrunning hsaved).2⟩

/-- Only a handler on its way to stop the race stops it. -/
theorem Turned.stops (h : Turned (fun env t s => Task.resume sv env s t) w turn w' emitted)
    (hstop : ∃ o ∈ emitted, o.stops) : ∃ t ∈ w.tasks, t.stops := by
  obtain ⟨o, ho, hstops⟩ := hstop
  cases h with
  | idle | spawned => simp at ho
  | @resumed index env t rest htask htasks =>
    refine ⟨t, htasks.mem_iff.mpr (List.mem_cons_self ..), ?_⟩
    have hchanges : o.changesRace := by cases o <;> simp_all [Output.stops, Output.changesRace]
    rcases resume_raceMoved sv env w.shared t with ⟨-, hquiet⟩ |
      ⟨op, reply, before, after, -, -, -, hemitted⟩ | ⟨room, race, -, -, -, hemitted⟩ | ⟨ht, -⟩
    · simp [hquiet o ho] at hchanges
    · rw [hemitted] at ho
      unfold RaceReply.outputs at ho
      split at ho
      next =>
        obtain ⟨playerId, -, rfl⟩ := List.mem_map.mp ho
        simp [Output.stops] at hstops
      next =>
        obtain rfl := List.mem_singleton.mp ho
        simp [Output.stops] at hstops
      next => simp at ho
    · rw [hemitted, List.mem_singleton] at ho
      simp [ho, Output.stops] at hstops
    · exact ht

/-! ### Whole runs -/

/-- In every run in which each race is saved in time, no race is stopped while a battle runs whose
race was saved. -/
theorem running_race_not_stopped (sv : Service) (turns : List (Turn Env Task))
    (hspawn : ∀ turn ∈ turns, ∀ t ∈ turn.spawned?, t.isFirst)
    (hids : (turns.filterMap Turn.battleId?).Nodup)
    (hsaves : ∀ e ∈ (service sv).trace ⟨{}, [], []⟩ turns, SavesInTime sv e.before e.input) :
    ∀ e ∈ (service sv).trace ⟨{}, [], []⟩ turns, (∃ o ∈ e.output, o.stops) →
      ∀ battleId, Running battleId e.before.shared.room → ¬Saved battleId e.before.log := by
  intro e he hstop battleId hrunning hsaved
  obtain ⟨rest, -, hkept⟩ := Machine.promise_of_mem_trace
    (P := fun turns w => Fresh turns w ∧ RaceKept w) (fun e he rest hw =>
      have hspawned := hspawn _ (Machine.input_mem_of_mem_trace he)
      ⟨(turned_of_mem_trace he).fresh hspawned hw.1,
        (turned_of_mem_trace he).raceKept hspawned (hsaves e he) hw.1 hw.2⟩)
    ⟨⟨by simpa [comingIds] using hids, by simp [Seen, HasBattle, Saved]⟩,
      ⟨by simp [Saved], by simp⟩⟩ he
  obtain ⟨t, ht, hstops⟩ := (turned_of_mem_trace he).stops hstop
  have hwill := stops_of_willStop (hkept.tasks battleId hrunning hsaved t ht)
  simp [hstops] at hwill

/-- Eve leaves the lobby; before her handler goes on, `b1` starts and its race is saved. -/
def sampleDeparture : List (Turn Env Task) :=
  sampleCalls 0 (sampleLobby ++ [.leave (js "eve") .first 2500]) ++
    sampleCalls 1 [sampleStart] ++ samplePieces 1 3 ++ samplePieces 0 1

/-- A departure from the lobby stops the race of the battle that started meanwhile, with its timers,
and the battle goes on without one. -/
theorem departure_stops_next_race :
    (∀ turn ∈ sampleDeparture, ∀ t ∈ turn.spawned?, t.isFirst) ∧
    (sampleDeparture.filterMap Turn.battleId?).Nodup ∧
    ∃ e ∈ (service ⟨.ascii, js "ROOM22", {}⟩).trace ⟨{}, [], []⟩ sampleDeparture,
      (∃ o ∈ e.output, o.stops) ∧ Running (js "b1") e.before.shared.room ∧
      Saved (js "b1") e.before.log ∧ e.before.shared.race.map (·.battleId) = some (js "b1") ∧
      e.before.shared.timers.map List.length = some 3 ∧ Running (js "b1") e.after.shared.room ∧
      e.after.shared.race = none ∧ e.after.shared.timers = none := by
  decide +kernel

/-- `b1` starts, its race is saved, and its end stops the race. -/
def sampleStop : List (Turn Env Task) :=
  sampleCalls 0 sampleBattle ++ samplePieces 0 3 ++
    sampleCalls 0 [.finishAtDeadline (js "b1") 93000] ++ samplePieces 0 1

theorem running_race_not_stopped_sampleStop :
    (∃ e ∈ (service ⟨.ascii, js "ROOM22", {}⟩).trace ⟨{}, [], []⟩ sampleStop,
      ∃ o ∈ e.output, o.stops) ∧
    ∀ e ∈ (service ⟨.ascii, js "ROOM22", {}⟩).trace ⟨{}, [], []⟩ sampleStop,
      (∃ o ∈ e.output, o.stops) →
        ∀ battleId, Running battleId e.before.shared.room → ¬Saved battleId e.before.log :=
  ⟨by decide +kernel, running_race_not_stopped ⟨.ascii, js "ROOM22", {}⟩ sampleStop
    (by decide +kernel) (by decide +kernel) (by decide +kernel)⟩

end DanceSync
