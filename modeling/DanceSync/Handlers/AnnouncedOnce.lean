import DanceSync.Handlers.Announcements

/-!
# Every battle is announced and recorded once

The handlers of battle-service overtake each other at every request, in every room. The id of a
battle is drawn with `randomUUID`, so no two calls start battles of one id: a battle is started by
one call and finished by one call. Each of the two handlers announces what its own call did, and
the one whose call finished the battle also hands the match over for the history. So nothing is
announced or recorded twice, and nothing is left out once the handlers are through.

## Main definitions

* `BattleService.drawnIds`: the ids that calls were given for their battles.
* `BattleService.obliged`, `BattleService.announced`, `BattleService.tally`.
* `BattleService.Stage`: how far a battle is.
* `BattleService.AnnouncedOnce`: what clients and the history are told.

## Main results

* `BattleService.Stage.called`: what one call changes.
* `BattleService.battles_announced_once`.
-/

namespace DanceSync

/-- Only one battle runs in a room. -/
theorem Running.unique {slot : Option Room} {battleId battleId' : JsString}
    (h : Running battleId slot) (h' : Running battleId' slot) : battleId = battleId' := by
  obtain ⟨room, hroom, -, battle, hbattle, rfl⟩ := h
  obtain ⟨room', hroom', -, battle', hbattle', rfl⟩ := h'
  obtain rfl := Option.some.inj (hroom.symm.trans hroom')
  rw [Option.some.inj (hbattle.symm.trans hbattle')]

/-- What is announced is so: the battle runs, or it is over and has a match record. -/
def Notice.Sound (rt : Runtime) : Notice → Prop
  | .started room => room.status = .battling ∧ room.battle.isSome
  | .finished room | .recorded room => ∃ battle ∈ room.battle, ∃ record ∈
      MatchRecordService.fromFinishedRoom rt room, record.id = battle.id

namespace BattleService

open SocketEvents
open Bindings (BattleSocket)

variable {rt : Runtime} {battleId code : JsString} {op : RoomOp} {rooms rooms' : RoomStore rt}
  {drawn : List JsString} {dues dues' : Multiset Notice}

/-! ### What a run tells -/

/-- The id of the battle that a call may start. -/
def drawnId? : Entry → Option JsString
  | .asked (.inl (.store (.update _ op))) _ => op.battleOptions?.map (·.battleId)
  | _ => none

/-- The ids that calls were given for their battles. -/
def drawnIds (log : List Entry) : List JsString := log.filterMap drawnId?

/-- What the answers so far oblige to announce. -/
def obliged (rt : Runtime) (log : List Entry) : Multiset Notice :=
  (serviceAnnouncements rt).dues log

/-- What was announced so far. -/
def announced (rt : Runtime) (log : List Entry) : Multiset Notice :=
  (serviceAnnouncements rt).payments log

/-- How often the start of a battle, its end and its match are among the notices. -/
def tally (battleId : JsString) (notices : Multiset Notice) : ℕ × ℕ × ℕ :=
  (notices.countP (Notice.startOf battleId ·), notices.countP (Notice.finishOf battleId ·),
    notices.countP (Notice.recordOf battleId ·))

theorem tally_add : tally battleId (dues + dues') = tally battleId dues + tally battleId dues' := by
  simp only [tally, Multiset.countP_add]
  rfl

theorem tally_mono (h : dues ≤ dues') : tally battleId dues ≤ tally battleId dues' :=
  ⟨Multiset.countP_le_of_le _ h, Multiset.countP_le_of_le _ h, Multiset.countP_le_of_le _ h⟩

theorem tally_singleton (notice : Notice) : tally battleId {notice} =
    ((notice.startOf battleId).toNat, (notice.finishOf battleId).toNat,
      (notice.recordOf battleId).toNat) := by
  have hcount (p : Notice → Bool) : ({notice} : Multiset Notice).countP (p ·) =
      (p notice).toNat := by
    rw [Multiset.countP_eq_card_filter, Multiset.filter_singleton]
    cases p notice <;> rfl
  rw [tally, hcount, hcount, hcount]

theorem isAbout_eq (notice : Notice) {battle : Battle} (h : notice.room.battle = some battle) :
    notice.isAbout battleId = decide (battle.id = battleId) := by
  simp only [Notice.isAbout, h, Option.map_some, Option.some.injEq]

theorem tally_started {room : Room} {battle : Battle} (h : room.battle = some battle) :
    tally battleId {.started room} = if battle.id = battleId then (1, 0, 0) else 0 := by
  rw [tally_singleton, Notice.startOf, isAbout_eq (.started room) h]
  split_ifs with hid
  · rw [decide_eq_true hid]
    rfl
  · rw [decide_eq_false hid]
    rfl

theorem tally_ended {room : Room} {battle : Battle} (h : room.battle = some battle) :
    tally battleId (Notice.ended room) = if battle.id = battleId then (0, 1, 1) else 0 := by
  rw [Notice.ended, tally_add, tally_singleton, tally_singleton, Notice.finishOf,
    Notice.recordOf.eq_1, isAbout_eq (.finished room) h, isAbout_eq (.recorded room) h]
  split_ifs with hid
  · rw [decide_eq_true hid]
    rfl
  · rw [decide_eq_false hid]
    rfl

/-! ### One battle -/

/-- How far the battle of an id is: what was obliged to, and where it runs. -/
inductive Stage (battleId : JsString) (rooms : RoomStore rt) (drawn : List JsString)
    (dues : Multiset Notice) : Prop
  | pending (hrooms : ∀ key, ¬Running battleId (rooms.room key)) (hdues : tally battleId dues = 0)
  | running (key : JsString) (hrooms : ∀ other, Running battleId (rooms.room other) ↔ other = key)
      (hdrawn : battleId ∈ drawn) (hdues : tally battleId dues = (1, 0, 0))
  | settled (hrooms : ∀ key, ¬Running battleId (rooms.room key)) (hdrawn : battleId ∈ drawn)
      (hdues : tally battleId dues = (1, 1, 1))

/-- Nothing that concerns the battle happens. -/
theorem Stage.apart {more : List JsString} (h : Stage battleId rooms drawn dues)
    (hrooms' : ∀ key, Running battleId (rooms'.room key) ↔ Running battleId (rooms.room key))
    (hdues' : tally battleId dues' = 0) :
    Stage battleId rooms' (drawn ++ more) (dues + dues') := by
  have htally : tally battleId (dues + dues') = tally battleId dues := by
    rw [tally_add, hdues', add_zero]
  cases h with
  | pending hrooms hdues =>
    exact pending (fun key => (hrooms' key).not.mpr (hrooms key)) (htally.trans hdues)
  | running key hrooms hdrawn hdues =>
    exact running key (fun other => (hrooms' other).trans (hrooms other))
      (List.mem_append_left _ hdrawn) (htally.trans hdues)
  | settled hrooms hdrawn hdues =>
    exact settled (fun key => (hrooms' key).not.mpr (hrooms key)) (List.mem_append_left _ hdrawn)
      (htally.trans hdues)

theorem room_call (rooms : RoomStore rt) (code : JsString) (op : RoomOp) (key : JsString) :
    (rooms.call code op).1.room key = if key = rt.toUpperCase code
      then (op.step rt code (rooms.room (rt.toUpperCase code))).1 else rooms.room key := by
  exact Function.update_apply ..

/-- A call starts the battle, finishes it or leaves it alone. -/
theorem Stage.called (h : Stage battleId rooms drawn dues)
    (hinv : ∀ room ∈ rooms.room (rt.toUpperCase code), RoomInvariant rt room)
    (hfresh : (drawn ++ (op.battleOptions?.map (·.battleId)).toList).Nodup) :
    Stage battleId (rooms.call code op).1 (drawn ++ (op.battleOptions?.map (·.battleId)).toList)
      (dues + op.notices (rooms.call code op).2) := by
  have hnoticed : Noticed (rooms.room (rt.toUpperCase code)) op
      ((rooms.call code op).1.room (rt.toUpperCase code)) (op.notices (rooms.call code op).2) := by
    rw [room_call, if_pos rfl]
    exact noticed rt code op hinv
  have hother : ∀ key, key ≠ rt.toUpperCase code →
      (rooms.call code op).1.room key = rooms.room key := fun key hkey => by
    rw [room_call, if_neg hkey]
  -- What is said of the room of the code is said of every room.
  have hapart : (Running battleId ((rooms.call code op).1.room (rt.toUpperCase code)) ↔
      Running battleId (rooms.room (rt.toUpperCase code))) → ∀ key,
      (Running battleId ((rooms.call code op).1.room key) ↔ Running battleId (rooms.room key)) := by
    intro hcode key
    by_cases hkey : key = rt.toUpperCase code
    · rw [hkey]
      exact hcode
    · rw [hother key hkey]
  generalize (rooms.call code op).1 = rooms' at hnoticed hother hapart ⊢
  generalize op.notices (rooms.call code op).2 = dues' at hnoticed ⊢
  cases hnoticed with
  | quiet hsame => exact h.apart (hapart (hsame battleId)) rfl
  | started room battle options hop hid hbefore hslot' hstatus hbattle =>
    have hnot : ¬Running battleId (rooms.room (rt.toUpperCase code)) := fun ⟨r, hr, hrunning, _⟩ =>
      hbefore ⟨r, hr, hrunning⟩
    have hrunning : Running battleId (rooms'.room (rt.toUpperCase code)) ↔
        battle.id = battleId := by
      simp [Running, hslot', hstatus, hbattle]
    by_cases hbattleId : battle.id = battleId
    · have hdrawnId : op.battleOptions?.map (·.battleId) = some battleId := by
        rw [hop, ← hbattleId, hid]
        rfl
      rw [hdrawnId] at hfresh ⊢
      have hnew : battleId ∉ drawn := fun hmem =>
        List.disjoint_of_nodup_append hfresh hmem (List.mem_singleton_self _)
      cases h with
      | pending hrooms hdues =>
        refine running (rt.toUpperCase code) (fun other => ⟨fun hother' => ?_, ?_⟩)
          (List.mem_append_right _ (List.mem_singleton_self _)) ?_
        · by_contra hkey
          rw [hother other hkey] at hother'
          exact hrooms other hother'
        · rintro rfl
          exact hrunning.mpr hbattleId
        · rw [tally_add, hdues, tally_started hbattle, if_pos hbattleId, zero_add]
      | running _ _ hdrawn | settled _ hdrawn => exact absurd hdrawn hnew
    · refine h.apart (hapart ?_) ?_
      · rw [hrunning]
        exact iff_of_false hbattleId hnot
      · rw [tally_started hbattle, if_neg hbattleId]
  | finished room battle hbefore hslot' hstatus hbattle =>
    have hnot : ¬Running battleId (rooms'.room (rt.toUpperCase code)) := by
      simp [Running, hslot', hstatus]
    by_cases hbattleId : battle.id = battleId
    · subst hbattleId
      cases h with
      | running key hrooms hdrawn hdues =>
        have hcode : rt.toUpperCase code = key := (hrooms _).mp hbefore
        refine settled (fun other hother' => ?_) (List.mem_append_left _ hdrawn) ?_
        · by_cases hkey : other = rt.toUpperCase code
          · exact hnot (hkey ▸ hother')
          · rw [hother other hkey] at hother'
            exact hkey (((hrooms other).mp hother').trans hcode.symm)
        · rw [tally_add, hdues, tally_ended hbattle, if_pos rfl]
          rfl
      | pending hrooms | settled hrooms => exact absurd hbefore (hrooms _)
    · refine h.apart (hapart ?_) ?_
      · exact iff_of_false hnot fun hrunning => hbattleId (hbefore.unique hrunning)
      · rw [tally_ended hbattle, if_neg hbattleId]

/-! ### All battles -/

/-- What a piece of a handler does to the stored rooms. -/
inductive Acted (rooms : RoomStore rt) : RoomStore rt → List Entry → Prop
  | called (code : JsString) (op : RoomOp) : Acted rooms (rooms.call code op).1
      [.asked (.inl (.store (.update code op))) (rooms.call code op).2]
  | apart (emitted : List Entry) (hdues : obliged rt emitted = 0)
      (hdrawn : drawnIds emitted = []) : Acted rooms rooms emitted

theorem acted (server : Server) (p : ServiceHandler Unit) (env : ServiceSurroundings server.rt)
    (rooms : RoomStore server.rt) :
    Acted rooms (p.piece (perform server.rt) (forks server) env rooms).shared
      (p.piece (perform server.rt) (forks server) env rooms).emitted := by
  cases p with
  | done result => exact .apart [] rfl rfl
  | emit message next => exact .apart [.sent message] rfl rfl
  | request r next =>
    rcases r with r | r
    · cases r with
      | store op =>
        cases op with
        | update code op => exact .called code op
        | _ => exact .apart [.asked _ _] rfl rfl
      | _ => exact .apart [.asked _ _] rfl rfl
    · exact .apart [.asked (.inr r) _] rfl rfl

/-- What is so between any two requests. -/
structure Tracked (w : Snapshot rt) : Prop where
  rooms : ∀ key, ∀ room ∈ w.shared.room key, RoomInvariant rt room
  stage : (drawnIds w.log).Nodup → ∀ battleId,
    Stage battleId w.shared (drawnIds w.log) (obliged rt w.log)
  sound : ∀ notice ∈ obliged rt w.log, notice.Sound rt
  paired : ∀ room, .finished room ∈ obliged rt w.log ↔ .recorded room ∈ obliged rt w.log

/-- The end of a battle is announced where its match is recorded. -/
theorem paired_notices {slot : Option Room} (hinv : ∀ room ∈ slot, RoomInvariant rt room)
    (room : Room) : .finished room ∈ op.notices (op.step rt code slot).2 ↔
      .recorded room ∈ op.notices (op.step rt code slot).2 := by
  have hnoticed := noticed rt code op hinv
  generalize op.notices (op.step rt code slot).2 = notices at hnoticed ⊢
  cases hnoticed with
  | quiet | started => simp
  | finished => simp [Notice.ended]

/-- An answer obliges to nothing but the truth. -/
theorem sound_notices {slot : Option Room} (hinv : ∀ room ∈ slot, RoomInvariant rt room) :
    ∀ notice ∈ op.notices (op.step rt code slot).2, notice.Sound rt := by
  have hinv' : ∀ room ∈ (op.step rt code slot).1, RoomInvariant rt room :=
    (step_spec rt code slot op).roomInvariant hinv
  have hnoticed := noticed rt code op hinv
  generalize op.notices (op.step rt code slot).2 = notices at hnoticed ⊢
  cases hnoticed with
  | quiet => simp
  | started room battle options hop hid hbefore hslot' hstatus hbattle =>
    intro notice hnotice
    obtain rfl := Multiset.mem_singleton.mp hnotice
    exact ⟨hstatus, by rw [hbattle]; rfl⟩
  | finished room battle hbefore hslot' hstatus hbattle =>
    obtain ⟨record, hrecord, hid⟩ := (hinv' room hslot').exists_record hstatus hbattle
    intro notice hnotice
    rcases Multiset.mem_add.mp hnotice with hnotice | hnotice
    · obtain rfl := Multiset.mem_singleton.mp hnotice
      exact ⟨battle, hbattle, record, hrecord, hid⟩
    · obtain rfl := Multiset.mem_singleton.mp hnotice
      exact ⟨battle, hbattle, record, hrecord, hid⟩

/-- A turn of the service. -/
theorem Tracked.turned {server : Server} {w w' : Snapshot server.rt}
    {turn : Turn (ServiceSurroundings server.rt) (ServiceHandler Unit)} {emitted : List Entry}
    (h : Turned (Program.piece (perform server.rt) (forks server)) w turn w' emitted)
    (hw : Tracked w) : Tracked w' := by
  cases h with
  | idle => exact hw
  | spawned p => exact ⟨hw.rooms, hw.stage, hw.sound, hw.paired⟩
  | @resumed index env p others =>
    have hacted := acted server p env w.shared
    generalize (p.piece (perform server.rt) (forks server) env w.shared).shared = rooms' at hacted ⊢
    generalize (p.piece (perform server.rt) (forks server) env w.shared).emitted = emitted
      at hacted ⊢
    have hobliged : obliged server.rt (w.log ++ emitted) =
        obliged server.rt w.log + obliged server.rt emitted :=
      Account.dues_append ..
    have hdrawnIds : drawnIds (w.log ++ emitted) = drawnIds w.log ++ drawnIds emitted :=
      List.filterMap_append
    cases hacted with
    | apart _ hdues hdrawn =>
      refine ⟨hw.rooms, ?_, ?_, ?_⟩
      · rw [hobliged, hdues, hdrawnIds, hdrawn, add_zero, List.append_nil]
        exact hw.stage
      · rw [hobliged, hdues, add_zero]
        exact hw.sound
      · rw [hobliged, hdues, add_zero]
        exact hw.paired
    | called code op =>
      have hinv := hw.rooms (server.rt.toUpperCase code)
      have hdues : obliged server.rt [.asked (.inl (.store (.update code op)))
          (w.shared.call code op).2] = op.notices (w.shared.call code op).2 := add_zero _
      have hdrawn : drawnIds [.asked (.inl (.store (.update code op))) (w.shared.call code op).2] =
          (op.battleOptions?.map (·.battleId)).toList := by
        cases hid : op.battleOptions?.map (·.battleId) <;> simp [drawnIds, drawnId?, hid]
      refine ⟨fun key => ?_, ?_, ?_, fun room => ?_⟩
      · rw [room_call]
        split_ifs
        · exact (step_spec server.rt code _ op).roomInvariant hinv
        · exact hw.rooms key
      · rw [hobliged, hdues, hdrawnIds, hdrawn]
        intro hfresh battleId
        exact (hw.stage (List.nodup_append.mp hfresh).1 battleId).called hinv hfresh
      · rw [hobliged, hdues]
        intro notice hnotice
        rcases Multiset.mem_add.mp hnotice with hnotice | hnotice
        · exact hw.sound notice hnotice
        · exact sound_notices hinv notice hnotice
      · rw [hobliged, hdues, Multiset.mem_add, Multiset.mem_add]
        exact or_congr (hw.paired room) (paired_notices hinv room)

theorem tracked_run (server : Server)
    (turns : List (Turn (ServiceSurroundings server.rt) (ServiceHandler Unit))) :
    Tracked ((battleService server).run (started server.rt) turns) := by
  refine Machine.run_invariant (M := battleService server) (P := Tracked)
    (fun e he hw => hw.turned (turned_of_mem_trace he)) ⟨?_, ?_, ?_, fun room => ?_⟩
  · rintro key room ⟨⟩
  · exact fun _ battleId => .pending (by rintro key ⟨room, ⟨⟩, -⟩) rfl
  · exact fun notice hnotice => absurd hnotice (Multiset.notMem_zero _)
  · exact iff_of_false (Multiset.notMem_zero _) (Multiset.notMem_zero _)

/-- What clients and the history are told of the battles of a run. -/
structure AnnouncedOnce (server : Server)
    (turns : List (Turn (ServiceSurroundings server.rt) (ServiceHandler Unit)))
    (w : Snapshot server.rt) : Prop where
  /-- No start, no end and no match is announced twice. -/
  once : ∀ battleId, tally battleId (announced server.rt w.log) ≤ (1, 1, 1)
  /-- What a handler announces is what the answers of its own calls oblige it to. -/
  own : ∀ turn ∈ turns, ∀ p ∈ turn.spawned?, ServicePays server.rt p
  /-- So nothing is announced without an answer that obliges to it. -/
  grounded : announced server.rt w.log ≤ obliged server.rt w.log
  sound : ∀ notice ∈ announced server.rt w.log, notice.Sound server.rt
  /-- The match that is handed over is the one whose end is announced. -/
  paired : w.tasks = [] → ∀ room,
    .finished room ∈ announced server.rt w.log ↔ .recorded room ∈ announced server.rt w.log
  /-- When no handler is under way, the start of a battle that ran once is announced, and its end
  and its match are unless it still runs. -/
  complete : w.tasks = [] → ∀ past rest, turns = past ++ rest → ∀ battleId key,
    Running battleId (((battleService server).run (started server.rt) past).shared.room key) →
    (∃ key, Running battleId (w.shared.room key)) ∧
        tally battleId (announced server.rt w.log) = (1, 0, 0) ∨
      (∀ key, ¬Running battleId (w.shared.room key)) ∧
        tally battleId (announced server.rt w.log) = (1, 1, 1)

/-- Requests are answered as the account says. -/
theorem possible_perform (env : ServiceSurroundings rt) (r : ServiceRequest)
    (rooms : RoomStore rt) :
    (serviceAnnouncements rt).possible r (perform rt env r rooms).1 := by
  cases r with
  | inl r => exact ⟨_, rfl⟩
  | inr r => trivial

/-- A battle that runs was started, and its end is due when it runs no more. -/
theorem Stage.of_running {dues' : Multiset Notice} {drawn' : List JsString} {key : JsString}
    (h : Stage battleId rooms drawn dues) (hrunning : Running battleId (rooms.room key))
    (h' : Stage battleId rooms' drawn' dues') (hle : dues ≤ dues') :
    (∃ key, Running battleId (rooms'.room key)) ∧ tally battleId dues' = (1, 0, 0) ∨
      (∀ key, ¬Running battleId (rooms'.room key)) ∧ tally battleId dues' = (1, 1, 1) := by
  have hstarted : tally battleId dues = (1, 0, 0) := by
    cases h with
    | running _ _ _ hdues => exact hdues
    | pending hrooms | settled hrooms => exact absurd hrunning (hrooms key)
  cases h' with
  | running key' hrooms _ hdues => exact .inl ⟨⟨key', (hrooms key').mpr rfl⟩, hdues⟩
  | settled hrooms _ hdues => exact .inr ⟨hrooms, hdues⟩
  | pending _ hdues =>
    have hmono : (tally battleId dues).1 ≤ (tally battleId dues').1 := (tally_mono hle).1
    rw [hstarted, hdues] at hmono
    exact absurd hmono (Nat.not_succ_le_zero 0)

/-- In every interleaving of all that the service does, the start of each battle is announced at
most once, and so are its end and its match; nothing is left out once no handler is under way. -/
theorem battles_announced_once (server : Server) (parse : JsString → Option JsValue)
    {turns : List (Turn (ServiceSurroundings server.rt) (ServiceHandler Unit))}
    (hspawn : ∀ turn ∈ turns, ∀ p ∈ turn.spawned?,
      ∃ activity : Activity, p = activity.program server parse)
    (hfresh : (drawnIds ((battleService server).run (started server.rt) turns).log).Nodup) :
    AnnouncedOnce server turns ((battleService server).run (started server.rt) turns) := by
  have hown : ∀ turn ∈ turns, ∀ p ∈ turn.spawned?, ServicePays server.rt p := by
    intro turn hturn p hp
    obtain ⟨activity, rfl⟩ := hspawn turn hturn p hp
    exact pays_activity activity
  have hbalanced : (serviceAnnouncements server.rt).Balanced
      ((battleService server).run (started server.rt) turns) := by
    exact Account.balanced_run possible_perform pays_forks hown (Account.balanced_start _ _)
  have htracked : Tracked ((battleService server).run (started server.rt) turns) :=
    tracked_run server turns
  have hle : announced server.rt ((battleService server).run (started server.rt) turns).log ≤
      obliged server.rt ((battleService server).run (started server.rt) turns).log := by
    obtain ⟨owed, -, hbalance⟩ := hbalanced
    exact (Multiset.le_add_right _ _).trans_eq hbalance.symm
  refine ⟨fun battleId => (tally_mono hle).trans ?_, hown, hle,
    fun notice hnotice => htracked.sound notice (Multiset.mem_of_le hle hnotice),
    fun hidle room => ?_, fun hidle past rest hturns battleId key hrunning => ?_⟩
  · cases htracked.stage hfresh battleId with
    | pending _ hdues | running _ _ _ hdues | settled _ _ hdues =>
      exact hdues.le.trans (by decide)
  · have hpaid : obliged server.rt _ = announced server.rt _ := hbalanced.of_idle hidle
    rw [← hpaid]
    exact htracked.paired room
  · have hpaid : obliged server.rt _ = announced server.rt _ := hbalanced.of_idle hidle
    obtain ⟨more, hlog⟩ : ∃ more, ((battleService server).run (started server.rt) turns).log =
        ((battleService server).run (started server.rt) past).log ++ more := by
      rw [hturns, Machine.run_append]
      exact ⟨_, log_run ..⟩
    have hpast : (drawnIds ((battleService server).run (started server.rt) past).log).Nodup := by
      rw [hlog, drawnIds, List.filterMap_append] at hfresh
      exact (List.nodup_append.mp hfresh).1
    rw [← hpaid]
    refine Stage.of_running ((tracked_run server past).stage hpast battleId) hrunning
      (htracked.stage hfresh battleId) ?_
    rw [hlog, obliged, obliged, Account.dues_append]
    exact Multiset.le_add_right _ _

/-- What is read at a moment; nobody else is connected. -/
def sampleSurroundings (now : Instant) (uuid : JsString) : ServiceSurroundings .ascii where
  surroundings := {
    stores := { rooms := (started .ascii).shared, races := fun _ => none }
    reading := { now, random := fun _ => .first, uuid }
    channel := fun _ => []
    bound := fun _ => [] }
  connections := {
    ownData := none
    randomBytes := List.Vector.replicate ROOM_CODE_LENGTH 0
    codes := []
    abandoned := fun _ _ => false }

/-- Ana creates a room, Ben joins it, and both dance. Nobody types the phrase or chooses a song, so
timers start their battle `b1`, and another one ends it. -/
def sampleActivities : List (ServiceSurroundings .ascii × Activity) :=
  let room := (js "roomCode", JsValue.string (js "AAAAAA"))
  let ana : BattleSocket := { data := some ⟨js "AAAAAA", js "ana"⟩ }
  let ben : BattleSocket := { data := some ⟨js "AAAAAA", js "ben"⟩ }
  let player := fun id => (js "playerId", JsValue.string (js id))
  let dancer := (js "role", JsValue.string (js "dancer"))
  let ready := (js "ready", JsValue.boolean true)
  let lobby := sampleSurroundings 0 (js "c1")
  [(lobby, .request .postRoom (.ok (.object [(js "hostId", .string (js "ana")),
      (js "displayName", .string (js "Ana"))])) 1),
    (lobby, .join (.object [room, player "ben", (js "displayName", .string (js "Ben"))]) true),
    (lobby, .event ana .roleSelect (.object [room, player "ana", dancer]) true),
    (lobby, .event ben .roleSelect (.object [room, player "ben", dancer]) true),
    (lobby, .event ana .playerReady (.object [room, player "ana", ready]) true),
    (lobby, .event ben .playerReady (.object [room, player "ben", ready]) true),
    (lobby, .event ana .songChallengeStart
      (.object [room, (js "requesterId", .string (js "ana"))]) true),
    (sampleSurroundings 15000 (js "d1"), .songChallenge (js "AAAAAA") (js "c1")),
    (sampleSurroundings 35000 (js "b1"), .songChoose (js "AAAAAA") (js "c1")),
    (sampleSurroundings 130000 (js "e1"), .battleEnd (js "AAAAAA") (js "b1"))]

def sampleServer : Server := { rt := .ascii, env := Config.defaultEnv, printed := fun _ => [] }

/-- One activity after another. -/
def sampleTurns : List (Turn (ServiceSurroundings .ascii) (ServiceHandler Unit)) :=
  sampleActivities.flatMap fun (env, activity) =>
    .spawn (activity.program sampleServer fun _ => none) :: List.replicate 20 (.resume 0 env)

theorem battles_announced_once_sampleTurns :
    let w := (battleService sampleServer).run (started .ascii) sampleTurns
    AnnouncedOnce sampleServer sampleTurns w ∧ w.tasks.length = 0 ∧
      tally (js "b1") (announced .ascii w.log) = (1, 1, 1) := by
  intro w
  have hfresh : (drawnIds w.log).Nodup := by decide +kernel
  refine ⟨battles_announced_once sampleServer (fun _ => none) ?_ hfresh, by decide +kernel,
    by decide +kernel⟩
  intro turn hturn p hp
  obtain ⟨⟨env, activity⟩, -, hturn⟩ := List.mem_flatMap.mp hturn
  rcases List.mem_cons.mp hturn with rfl | hturn
  · exact ⟨activity, (Option.mem_some.mp hp).symm⟩
  · obtain rfl := List.eq_of_mem_replicate hturn
    cases hp

end BattleService

end DanceSync
