import DanceSync.Lifecycle.Battles

/-!
# A battle finishes once

A departure and the timer of the end of the song may both end a battle, and each reports whether it
was the one. Whatever else happens to the room, one of them ends a battle and the other finds it
ended; nothing touches the battle afterwards.

Battle ids are drawn by `randomUUID`: no later battle has the id of an earlier one.

## Main definitions

* `Reply.finishes`, `RoomEvent.finishes`: a call that reports having finished a battle.
* `Room.Ended`: the battle of an id is over.

## Main results

* `running_after_iff`: a running battle goes on exactly when the call does not report its end.
* `Stored.ended`: a battle that is over stays as it is.
* `finishes_once`.
-/

namespace DanceSync

/-- The reply says that the call finished the battle: `battleFinished` of a departure, `finished`
of the timer. -/
def Reply.finishes (battleId : JsString) : Reply → Bool
  | .left output =>
    output.battleFinished && (output.room.bind (·.battle)).map (·.id) = some battleId
  | .finished (some (r, done)) => done && r.battle.map (·.id) = some battleId
  | _ => false

def RoomEvent.finishes (battleId : JsString) (e : RoomEvent) : Bool :=
  e.output.toOption.any (Reply.finishes battleId)

/-- Where the battle of this id is still seen, it is this one and it is over. -/
def Room.Ended (past : Battle) (slot : Option Room) : Prop :=
  ∀ room ∈ slot, ∀ battle ∈ room.battle, battle.id = past.id →
    battle = past ∧ room.status = .finished

/-- The operation starts no battle of this id. -/
def RoomOp.Fresh (battleId : JsString) (op : RoomOp) : Prop :=
  ∀ options ∈ op.battleOptions?, options.battleId ≠ battleId

variable {rt : Runtime} {code battleId : JsString} {room next : Room} {op : RoomOp}
  {battle past : Battle} {ops : List RoomOp} {slot slot' : Option Room} {e : RoomEvent}

/-! ### One operation -/

theorem id_of_started {source : Room} {options : StartBattleOptions}
    (h : RoomService.Started source options next) (hbattle : next.battle = some battle) :
    battle.id = options.battleId := by
  obtain ⟨selected, song⟩ := h
  obtain rfl := Option.some.inj hbattle
  rfl

/-- A running battle goes on, or a departure or the timer ends it. -/
theorem Stored.running (hstored : Stored rt code slot op slot')
    (hinv : ∀ r ∈ slot, RoomInvariant rt r) (h : Running battleId slot) :
    Running battleId slot' ∨ (op.mayFinish ∧ ∃ r ∈ slot', r.status = .finished ∧
      ∃ battle ∈ r.battle, battle.id = battleId) := by
  obtain ⟨r, hr, hstatus, battle, hbattle, hid⟩ := h
  obtain rfl : slot = some r := hr
  cases hstored with
  | unchanged => exact Or.inl ⟨r, rfl, hstatus, battle, hbattle, hid⟩
  | deleted hdeparted hplayers =>
    exact absurd hplayers (players_ne_nil_of_battling (hinv r rfl) hstatus hdeparted)
  | changed hchange =>
    cases hchange.battleChange with
    | kept hstatus' hbattle' =>
      exact Or.inl ⟨_, rfl, hstatus'.trans hstatus, battle, hbattle'.trans hbattle, hid⟩
    | started _ _ hwaiting => simp [hstatus] at hwaiting
    | continued b b' _ hb hnext hb' hid' =>
      obtain rfl : battle = b := Option.some.inj (hbattle.symm.trans hb)
      exact Or.inl ⟨_, rfl, hnext, b', hb', hid'.trans hid⟩
    | finished b b' hop _ hb hnext hb' hid' =>
      obtain rfl : battle = b := Option.some.inj (hbattle.symm.trans hb)
      exact Or.inr ⟨hop, _, rfl, hnext, b', hb', hid'.trans hid⟩
    | rematched _ hfinished => simp [hstatus] at hfinished

/-- A battle that does not run never runs again. -/
theorem Stored.not_running (hstored : Stored rt code slot op slot') (hfresh : op.Fresh battleId)
    (h : ¬Running battleId slot) : ¬Running battleId slot' := by
  refine mt ?_ h
  rintro ⟨r, hr, hstatus, battle, hbattle, hid⟩
  cases hstored with
  | unchanged => exact ⟨r, hr, hstatus, battle, hbattle, hid⟩
  | created p =>
    obtain rfl := Option.some.inj hr
    simp [RoomService.newRoom] at hstatus
  | deleted => simp at hr
  | @changed room next _ hchange =>
    obtain rfl := Option.some.inj hr
    have hnext : next.status = .battling := hstatus
    cases hchange.battleChange with
    | kept hstatus' hbattle' =>
      exact ⟨room, rfl, hstatus'.symm.trans hnext, battle, hbattle'.symm.trans hbattle, hid⟩
    | started options hop _ hstarted =>
      exact absurd ((id_of_started hstarted hbattle).symm.trans hid) (hfresh options hop)
    | continued b b' hstatus' hb _ hb' hid' =>
      obtain rfl : battle = b' := Option.some.inj (Eq.trans (Eq.symm hbattle) hb')
      exact ⟨room, rfl, hstatus', b, hb, hid'.symm.trans hid⟩
    | finished _ _ _ _ _ hfinished => simp [hnext] at hfinished
    | rematched _ _ hwaiting => simp [hnext] at hwaiting

/-- A battle that is over stays as it is. -/
theorem Stored.ended (hstored : Stored rt code slot op slot') (hfresh : op.Fresh past.id)
    (h : Room.Ended past slot) : Room.Ended past slot' := by
  cases hstored with
  | unchanged => exact h
  | created p =>
    rintro r ⟨⟩ battle hbattle
    simp [RoomService.newRoom] at hbattle
  | deleted => simp [Room.Ended]
  | @changed room next _ hchange =>
    rintro r ⟨⟩ battle hbattle hid
    have hbefore := h room rfl
    cases hchange.battleChange with
    | kept hstatus' hbattle' =>
      obtain ⟨hended, hstatus⟩ := hbefore battle (hbattle'.symm.trans hbattle) hid
      exact ⟨hended, hstatus'.trans hstatus⟩
    | started options hop _ hstarted =>
      exact absurd ((id_of_started hstarted hbattle).symm.trans hid) (hfresh options hop)
    | continued b b' hstatus hb _ hb' hid' | finished b b' _ hstatus hb _ hb' hid' =>
      obtain rfl : battle = b' := Option.some.inj (Eq.trans (Eq.symm hbattle) hb')
      have hfinished := (hbefore b hb (hid'.symm.trans hid)).2
      simp [hstatus] at hfinished
    | rematched _ _ _ hnone =>
      have hsome : next.battle = some battle := hbattle
      simp [hnone] at hsome

/-! ### Reports -/

/-- Only a departure and the timer report the end of a battle. -/
theorem finishes_eq_false {reply : Reply} (h : (op.step rt code slot).2 = .ok reply)
    (hop : op.mayFinish = false) : reply.finishes battleId = false := by
  cases op with
  | leave | finishAtDeadline => simp [RoomOp.mayFinish] at hop
  | create hostId displayName now =>
    simp only [RoomOp.step, CreateRoom.attempt] at h
    split at h
    next => simp at h
    next =>
      obtain rfl := Except.ok.inj h
      split_ifs <;> rfl
  | join | submitPhrase =>
    simp only [RoomOp.step, RoomOp.runChecked] at h
    split at h
    next => simp at h
    next =>
      obtain ⟨returned, -, rfl⟩ := RoomOp.executed_of_reply h
      rfl
  | _ =>
    obtain ⟨returned, -, rfl⟩ := RoomOp.executed_of_reply h
    rfl

theorem not_battling_of_finished (h : room.status = .finished) : ¬Battling (some room) := by
  rintro ⟨r, ⟨⟩, hr⟩
  simp [h] at hr

theorem not_running_and_not_battling : ¬(Running battleId slot ∧ ¬Battling slot) := by
  rintro ⟨⟨r, hr, hstatus, -⟩, hnot⟩
  exact hnot ⟨r, hr, hstatus⟩

/-- A departure reports the end of the battle that ran before it and does not run after it. -/
theorem finishes_left {playerId : JsString} {random : RandomIndex} {now : Instant} {reply : Reply}
    (hinv : ∀ r ∈ slot, RoomInvariant rt r)
    (h : ((RoomOp.leave playerId random now).step rt code slot).2 = .ok reply) :
    reply.finishes battleId ↔ Running battleId slot ∧
      ¬Battling ((RoomOp.leave playerId random now).step rt code slot).1 := by
  obtain ⟨room, updated, rfl, hdeparted, hafter, rfl⟩ := left_of_reply h
  have hchange : BattleChange rt room (.leave playerId random now) updated :=
    .departed rfl hdeparted
  rw [hafter]
  constructor
  · intro hfinishes
    simp only [Reply.finishes, Bool.and_eq_true, decide_eq_true_eq] at hfinishes
    obtain ⟨⟨hstatus, hfinished⟩, hid⟩ := hfinishes
    have hslot : departedSlot room updated = some { updated with version := room.version + 1 } :=
      if_neg (players_ne_nil_of_battling (hinv room rfl) hstatus hdeparted)
    rw [hslot] at hid ⊢
    refine ⟨?_, not_battling_of_finished hfinished⟩
    cases hchange with
    | kept hkept => simp [hkept, hstatus] at hfinished
    | started _ _ hwaiting => simp [hstatus] at hwaiting
    | continued _ _ _ _ hnext => simp [hnext] at hfinished
    | rematched hop => simp at hop
    | finished b b' _ _ hb _ hb' hid' =>
      refine ⟨room, rfl, hstatus, b, hb, hid'.symm.trans ?_⟩
      simpa [hb'] using hid
  · rintro ⟨⟨r, hr, hstatus, battle, hbattle, hid⟩, hnot⟩
    obtain rfl := Option.some.inj hr
    have hslot : departedSlot room updated = some { updated with version := room.version + 1 } :=
      if_neg (players_ne_nil_of_battling (hinv room rfl) hstatus hdeparted)
    rw [hslot] at hnot ⊢
    have hbattling : updated.status ≠ .battling := fun hb => hnot ⟨_, rfl, hb⟩
    cases hchange with
    | kept hkept => exact absurd (hkept.trans hstatus) hbattling
    | started _ _ hwaiting => simp [hstatus] at hwaiting
    | continued _ _ _ _ hnext => exact absurd hnext hbattling
    | rematched hop => simp at hop
    | finished b b' _ _ hb hnext hb' hid' =>
      obtain rfl : battle = b := Option.some.inj (hbattle.symm.trans hb)
      simp [Reply.finishes, hstatus, hnext, hb', hid', hid]

/-- The timer reports the end of the battle that ran before it and does not run after it. -/
theorem finishes_finishAtDeadline {id : JsString} {now : Instant} {reply : Reply}
    (h : ((RoomOp.finishAtDeadline id now).step rt code slot).2 = .ok reply) :
    reply.finishes battleId ↔ Running battleId slot ∧
      ¬Battling ((RoomOp.finishAtDeadline id now).step rt code slot).1 := by
  rcases finished_of_reply h with ⟨rfl, hafter⟩ | ⟨room, -, rfl, hafter⟩ |
    ⟨room, battle, stored, rfl, hstatus, hbattle, rfl, htime, rfl, rfl, hafter⟩
  · rw [hafter]
    exact iff_of_false (by simp [Reply.finishes]) not_running_and_not_battling
  · rw [hafter]
    exact iff_of_false (by simp [Reply.finishes]) not_running_and_not_battling
  · rw [hafter]
    have hiff : Running battleId (some room) ↔ battle.id = battleId := by
      constructor
      · rintro ⟨r, ⟨⟩, -, b, hb, hid⟩
        obtain rfl : battle = b := Option.some.inj (hbattle.symm.trans hb)
        exact hid
      · exact fun hid => ⟨room, rfl, hstatus, battle, hbattle, hid⟩
    rw [hiff, and_iff_left (not_battling_of_finished rfl)]
    simp [Reply.finishes, RoomService.finished, RoomService.closed]

/-- A call reports the end of exactly the battle that ran before it and does not run after it. -/
theorem finishes_iff (he : e ∈ (roomMachine rt code).trace slot ops)
    (hinv : ∀ r ∈ e.before, RoomInvariant rt r) :
    e.finishes battleId ↔ Running battleId e.before ∧ ¬Battling e.after := by
  have hstep := Machine.step_of_mem_trace he
  have hstored := stored_of_mem_trace he
  obtain ⟨before, op, output, after⟩ := e
  have hreply : (op.step rt code before).2 = output := congrArg Prod.snd hstep
  obtain rfl : (op.step rt code before).1 = after := congrArg Prod.fst hstep
  cases output with
  | error error =>
    refine iff_of_false (by simp [RoomEvent.finishes, Except.toOption]) ?_
    have hsame : (op.step rt code before).1 = before := refused_of_mem_trace he rfl
    simp only [hsame]
    exact not_running_and_not_battling
  | ok reply =>
    show reply.finishes battleId ↔ _
    by_cases hop : op.mayFinish
    · cases op with
      | leave => exact finishes_left hinv hreply
      | finishAtDeadline => exact finishes_finishAtDeadline hreply
      | _ => simp [RoomOp.mayFinish] at hop
    · rw [finishes_eq_false hreply (by simpa using hop)]
      refine iff_of_false Bool.false_ne_true fun h => ?_
      rcases hstored.running hinv h.1 with ⟨r, hr, hstatus, -⟩ | ⟨hfinish, -⟩
      · exact h.2 ⟨r, hr, hstatus⟩
      · exact hop hfinish

/-- A running battle goes on exactly when the call does not report its end. -/
theorem running_after_iff (he : e ∈ (roomMachine rt code).trace slot ops)
    (hinv : ∀ r ∈ e.before, RoomInvariant rt r) (h : Running battleId e.before) :
    Running battleId e.after ↔ ¬e.finishes battleId := by
  rw [finishes_iff he hinv, not_and, not_not]
  constructor
  · rintro ⟨r, hr, hstatus, -⟩ -
    exact ⟨r, hr, hstatus⟩
  · intro hbattling
    rcases (stored_of_mem_trace he).running hinv h with hrunning | ⟨-, r, hr, hfinished, -⟩
    · exact hrunning
    · have hnot := not_battling_of_finished hfinished
      rw [← (show e.after = some r from hr)] at hnot
      exact absurd (hbattling h) hnot

/-! ### Whole runs -/

/-- A running battle is finished once, by a departure or by the timer, which reports it; the room
is not deleted before, and the battle stays as it is after. -/
theorem finishes_once (rt : Runtime) (code : JsString) (ops₀ ops : List RoomOp) (room : Room)
    (battle : Battle) (hrun : (roomMachine rt code).run none ops₀ = some room)
    (hstatus : room.status = .battling) (hbattle : room.battle = some battle)
    (hfresh : ∀ op ∈ ops, op.Fresh battle.id) :
    (∀ e ∈ (roomMachine rt code).trace (some room) ops, Battling e.before → e.after ≠ none) ∧
    ((roomMachine rt code).trace (some room) ops).countP (RoomEvent.finishes battle.id) ≤ 1 ∧
    (Running battle.id ((roomMachine rt code).run (some room) ops) ↔
      ∀ e ∈ (roomMachine rt code).trace (some room) ops, ¬RoomEvent.finishes battle.id e) ∧
    (∀ e ∈ (roomMachine rt code).trace (some room) ops,
      Battling e.before → ¬Battling e.after → e.input.mayFinish) ∧
    ∀ pre post, ops = pre ++ post →
      ∀ r ∈ (roomMachine rt code).run (some room) pre, ∀ past ∈ r.battle, past.id = battle.id →
        r.status = .finished →
      ∀ r' ∈ (roomMachine rt code).run (some room) ops, ∀ later ∈ r'.battle,
        later.id = battle.id → later = past ∧ r'.status = .finished := by
  have hinv : ∀ r ∈ some room, RoomInvariant rt r := by
    rw [← hrun]
    exact roomInvariant_run rt code ops₀ (by simp)
  have hinvs : ∀ e ∈ (roomMachine rt code).trace (some room) ops,
      ∀ r ∈ e.before, RoomInvariant rt r := fun e he =>
    (Machine.invariant_of_mem_trace (P := fun slot => ∀ r ∈ slot, RoomInvariant rt r)
      (fun _ he h => (stored_of_mem_trace he).roomInvariant h) hinv he).1
  have hoff : ∀ e ∈ (roomMachine rt code).trace (some room) ops,
      ¬Running battle.id e.before → ¬Running battle.id e.after := fun e he =>
    (stored_of_mem_trace he).not_running (hfresh _ (Machine.input_mem_of_mem_trace he))
  refine ⟨?_, ?_, ?_, ?_, ?_⟩
  · exact fun e he => (stored_of_mem_trace he).ne_none_of_battling (hinvs e he)
  · refine Machine.countP_trace_le_one (Running battle.id) (fun e he h => ?_) hoff
    obtain ⟨hrunning, hnot⟩ := (finishes_iff he (hinvs e he)).mp h
    exact ⟨hrunning, fun ⟨r, hr, hbattling, _⟩ => hnot ⟨r, hr, hbattling⟩⟩
  · exact Machine.live_run_iff (fun e he => running_after_iff he (hinvs e he)) hoff
      ⟨room, rfl, hstatus, battle, hbattle, rfl⟩
  · intro e he hbefore hafter
    obtain ⟨r, hr, hbattling⟩ := hbefore
    obtain ⟨b, hb, -⟩ := (hinvs e he r hr).battling hbattling
    have hrunning : Running b.id e.before := ⟨r, hr, hbattling, b, hb, rfl⟩
    rcases (stored_of_mem_trace he).running (hinvs e he) hrunning with ⟨r', hr', hr'', -⟩ | ⟨hop, -⟩
    · exact absurd ⟨r', hr', hr''⟩ hafter
    · exact hop
  · rintro pre post rfl r hr past hpast hid hfinished
    have hended : Room.Ended past ((roomMachine rt code).run (some room) pre) := by
      rw [show (roomMachine rt code).run (some room) pre = some r from hr]
      rintro _ ⟨⟩ b hb -
      exact ⟨Option.some.inj (Eq.trans (Eq.symm hb) hpast), hfinished⟩
    intro r' hr' later hlater hid'
    rw [Machine.run_append] at hr'
    refine Machine.run_invariant (P := Room.Ended past) (fun e he => ?_) hended r' hr' later hlater
      (hid'.trans hid.symm)
    refine (stored_of_mem_trace he).ended ?_
    rw [hid]
    exact hfresh _ (List.mem_append_right _ (Machine.input_mem_of_mem_trace he))

/-- The timer of `b1` called early, in time and late, with a departure in between. -/
def sampleEnd : List RoomOp :=
  [.finishAtDeadline (js "b1") 50000, .finishAtDeadline (js "b1") 93000,
    .leave (js "bob") .first 93001, .finishAtDeadline (js "b1") 93002]

theorem finishes_once_sampleEnd :
    ∃ room ∈ (roomMachine .ascii (js "ROOM22")).run none sampleBattle, ∃ battle ∈ room.battle,
      ((roomMachine .ascii (js "ROOM22")).trace (some room) sampleEnd).countP
        (RoomEvent.finishes battle.id) ≤ 1 := by
  have hsample : ∃ room ∈ (roomMachine .ascii (js "ROOM22")).run none sampleBattle,
      room.status = .battling ∧ room.battle.isSome := by decide +kernel
  obtain ⟨room, hroom, hstatus, hbattle⟩ := hsample
  obtain ⟨battle, hbattle⟩ := Option.isSome_iff_exists.mp hbattle
  refine ⟨room, hroom, battle, hbattle, ?_⟩
  exact (finishes_once .ascii (js "ROOM22") sampleBattle sampleEnd room battle hroom hstatus
    hbattle (by simp [sampleEnd, RoomOp.Fresh, RoomOp.battleOptions?])).2.1

end DanceSync
