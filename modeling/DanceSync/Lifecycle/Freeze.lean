import DanceSync.Lifecycle.Battles
import DanceSync.Lifecycle.Timers

/-!
# The window between the end of the song and the end of the battle

The song ends at `endsAt`, the battle a little later, when its timer fires. Votes cast in between
are refused. A player who leaves in between is still withdrawn from the battle with their votes, so
that the ranking is the one of `endsAt` exactly when nobody who dances or voted leaves before the
timer fires.

## Main definitions

* `RoomOp.Late`: what players and the timer do after the end of the song.
* `Undisturbed`: no dancer and no voter leaves before the timer of the battle fires.
* `Battle.Frozen`: the result is the one of an earlier state of the battle, by the end of its song.

## Main results

* `open_run`: an undisturbed battle is as it was.
* `Stored.shrinking`: departures only take dancers and votes away.
* `frozen_iff`.
-/

namespace DanceSync

/-- The votes, departures and timers of a battle from `time` on. -/
def RoomOp.Late (time : Date) : RoomOp → Prop
  | .castVote _ _ now | .leave _ _ now | .finishAtDeadline _ now => time ≤ now
  | _ => False

/-- The departure of a dancer of the battle, or of a player whose vote it holds. -/
def RoomOp.Disturbs (battle : Battle) : RoomOp → Prop
  | .leave playerId _ _ => playerId ∈ battle.dancerIds ∨ playerId ∈ battle.votes.keys
  | _ => False

/-- Nobody who dances or voted leaves before the timer of the battle fires. -/
def Undisturbed (battle : Battle) (ops : List RoomOp) : Prop :=
  ∃ pre now post, ops = pre ++ .finishAtDeadline battle.id now :: post ∧
    ∀ op ∈ pre, ¬op.Disturbs battle

/-- The battle was closed by the end of its song, with the result of an earlier state of it. -/
structure Battle.Frozen (rt : Runtime) (past closed : Battle) : Prop where
  result : closed.result = some (ScoringService.result rt past)
  endReason : closed.endReason = some .songEnd

/-- The stored room, if any, has finished this battle. -/
def Over (closed : Battle) (slot : Option Room) : Prop :=
  ∀ room ∈ slot, room.status = .finished ∧ room.battle = some closed

/-- The stored room, if any, runs this battle. -/
def Open (battle : Battle) (slot : Option Room) : Prop :=
  ∀ room ∈ slot, room.status = .battling ∧ room.battle = some battle

/-- A later state of the battle, with fewer dancers and votes. -/
structure Battle.Shrinks (battle later : Battle) : Prop where
  id : later.id = battle.id
  endsAt : later.endsAt = battle.endsAt
  dancerIds : later.dancerIds.Sublist battle.dancerIds
  votes : later.votes.entries.Sublist battle.votes.entries

/-- While the stored room battles, its battle is a later state of this one. -/
def Shrinking (battle : Battle) (slot : Option Room) : Prop :=
  ∀ room ∈ slot, room.status = .battling → ∃ later, room.battle = some later ∧
    battle.Shrinks later

/-- The player is not in the stored room. -/
def Gone (playerId : JsString) (slot : Option Room) : Prop :=
  ∀ room ∈ slot, playerId ∉ room.playerIds

variable {rt : Runtime} {code : JsString} {room next : Room} {op : RoomOp} {playerId : JsString}
  {now : Instant} {time : Date} {battle closed : Battle} {ops : List RoomOp}
  {slot slot' : Option Room} {e : RoomEvent}

/-! ### After the battle -/

/-- A finished battle stays as it is under late operations. -/
theorem Stored.over (hstored : Stored rt code slot op slot') (hop : op.Late time)
    (h : Over closed slot) : Over closed slot' := by
  cases hstored with
  | unchanged => exact h
  | created => exact hop.elim
  | deleted => simp [Over]
  | @changed room next _ hchange =>
    rintro r ⟨⟩
    obtain ⟨hstatus, hbattle⟩ := h room rfl
    cases hchange with
    | @left playerId random now _ hdeparted =>
      have hbattleChange : BattleChange rt room (.leave playerId random now) next :=
        .departed rfl hdeparted
      cases hbattleChange with
      | kept hstatus' hbattle' => exact ⟨hstatus'.trans hstatus, hbattle'.trans hbattle⟩
      | started _ hstart => simp [RoomOp.battleOptions?] at hstart
      | continued _ _ hstatus' | finished _ _ _ hstatus' => simp [hstatus] at hstatus'
      | rematched hrematch => simp at hrematch
    | voted _ _ hstatus' | finished _ hstatus' => simp [hstatus] at hstatus'
    | _ => exact hop.elim

/-! ### The undisturbed battle -/

/-- Taking out a player whom the battle does not mention changes nothing. -/
theorem withoutPlayer_eq (hdancer : playerId ∉ battle.dancerIds)
    (hvoter : playerId ∉ battle.votes.keys)
    (hnamed : ∀ vote ∈ battle.votes.entries, vote.2 ∈ battle.dancerIds) :
    RoomService.withoutPlayer battle playerId = battle := by
  have hdancerIds : battle.dancerIds.filter (· ≠ playerId) = battle.dancerIds := by
    refine List.filter_eq_self.mpr fun id hid => ?_
    simpa using fun h : id = playerId => hdancer (h ▸ hid)
  have hvotes : (battle.votes.filter fun voterId dancerId =>
      voterId ≠ playerId ∧ dancerId ≠ playerId) = battle.votes := by
    refine Record.ext (List.filter_eq_self.mpr fun vote hvote => ?_)
    simp only [decide_eq_true_eq]
    refine ⟨fun h => hvoter (h ▸ Record.mem_keys_of_mem_entries hvote), fun h => hdancer ?_⟩
    exact h ▸ hnamed vote hvote
  rw [RoomService.withoutPlayer, hdancerIds, hvotes]

/-- A late operation that does not disturb the battle leaves it as it is, or is the timer that ends
it. -/
theorem Stored.open (hstored : Stored rt code slot op slot') (hinv : ∀ r ∈ slot, RoomInvariant rt r)
    (hop : op.Late battle.endsAt) (hquiet : ¬op.Disturbs battle) (h : Open battle slot) :
    Open battle slot' ∨ ∃ closed, battle.Frozen rt closed ∧ Over closed slot' := by
  cases hstored with
  | unchanged => exact Or.inl h
  | created => exact hop.elim
  | deleted => exact Or.inl (by simp [Open])
  | @changed room next _ hchange =>
    obtain ⟨hstatus, hbattle⟩ := h room rfl
    have hruns := (hinv room rfl).runs hstatus hbattle
    cases hchange with
    | @left playerId random now _ hdeparted hplayers =>
      obtain ⟨hdancer, hvoter⟩ := not_or.mp hquiet
      have hsame := withoutPlayer_eq hdancer hvoter fun vote hvote => (hruns.votes vote hvote).2
      obtain ⟨hseated, hsettled, hpassed⟩ := hdeparted
      obtain ⟨songSelection, rfl⟩ := hpassed.exists_eq
      cases hsettled with
      | idle hidle => exact absurd hbattle (hidle battle hstatus)
      | continuing b _ hb =>
        obtain rfl : battle = b := Option.some.inj (hbattle.symm.trans hb)
        refine Or.inl ?_
        rintro r ⟨⟩
        exact ⟨hstatus, congrArg some hsame⟩
      | ended b _ hb hfew =>
        obtain rfl : battle = b := Option.some.inj (hbattle.symm.trans hb)
        rw [hsame] at hfew
        exact absurd hfew (not_lt.mpr hruns.enough)
    | voted b wanted _ hb _ _ hend =>
      obtain rfl : battle = b := Option.some.inj (hbattle.symm.trans hb)
      exact absurd hop hend
    | @finished now b _ hb =>
      obtain rfl : battle = b := Option.some.inj (hbattle.symm.trans hb)
      refine Or.inr ⟨RoomService.closed rt battle .songEnd now, ⟨rfl, rfl⟩, ?_⟩
      rintro r ⟨⟩
      exact ⟨rfl, rfl⟩
    | _ => exact hop.elim

/-! ### Departures -/

theorem Battle.Shrinks.refl (battle : Battle) : battle.Shrinks battle :=
  ⟨rfl, rfl, List.Sublist.refl _, List.Sublist.refl _⟩

theorem Battle.Shrinks.withoutPlayer {later : Battle} (h : battle.Shrinks later)
    (playerId : JsString) : battle.Shrinks (RoomService.withoutPlayer later playerId) where
  id := h.id
  endsAt := h.endsAt
  dancerIds := List.filter_sublist.trans h.dancerIds
  votes := List.filter_sublist.trans h.votes

/-- Late operations only take dancers and votes away from a running battle. -/
theorem Stored.shrinking (hstored : Stored rt code slot op slot') (hop : op.Late battle.endsAt)
    (h : Shrinking battle slot) : Shrinking battle slot' := by
  cases hstored with
  | unchanged => exact h
  | created => exact hop.elim
  | deleted => simp [Shrinking]
  | @changed room next _ hchange =>
    rintro r ⟨⟩ hnext
    cases hchange with
    | @left playerId random now _ hdeparted =>
      obtain ⟨hseated, hsettled, hpassed⟩ := hdeparted
      obtain ⟨songSelection, rfl⟩ := hpassed.exists_eq
      cases hsettled with
      | idle => exact h room rfl hnext
      | continuing b hstatus hb =>
        obtain ⟨later, hlater, hshrinks⟩ := h room rfl hstatus
        obtain rfl : later = b := Option.some.inj (hlater.symm.trans hb)
        exact ⟨_, rfl, hshrinks.withoutPlayer playerId⟩
      | ended => simp [RoomService.finished] at hnext
    | voted b wanted hstatus hb _ _ hend =>
      obtain ⟨later, hlater, hshrinks⟩ := h room rfl hstatus
      obtain rfl : later = b := Option.some.inj (hlater.symm.trans hb)
      rw [hshrinks.endsAt] at hend
      exact absurd hop hend
    | finished => simp [RoomService.finished] at hnext
    | _ => exact hop.elim

/-- Late operations seat nobody. -/
theorem Stored.gone (hstored : Stored rt code slot op slot') (hop : op.Late time)
    (h : Gone playerId slot) : Gone playerId slot' := by
  cases hstored with
  | unchanged => exact h
  | created => exact hop.elim
  | deleted => simp [Gone]
  | @changed room next _ hchange =>
    rintro r ⟨⟩ hmem
    cases hchange with
    | left hdeparted =>
      refine h room rfl ?_
      simp only [Room.playerIds, hdeparted.players_eq] at hmem
      exact List.map_subset _ (List.filter_subset_self _) hmem
    | voted | finished => exact h room rfl hmem
    | _ => exact hop.elim

/-- Whoever leaves is gone. -/
theorem gone_of_leave (rt : Runtime) (code playerId : JsString) (random : RandomIndex)
    (now : Instant) (slot : Option Room) :
    Gone playerId ((roomMachine rt code).next slot (.leave playerId random now)) := by
  cases slot with
  | none => simp [Gone, Machine.next, roomMachine, RoomOp.step, RoomOp.runUpdate,
      RoomUpdate.execute_none]
  | some room =>
    by_cases hseated : playerId ∈ room.playerIds
    · obtain ⟨updated, hdeparted, hafter⟩ := step_leave_of_seated rt code random now hseated
      intro r hr
      have hslot : departedSlot room updated = some r := hafter.symm.trans hr
      obtain ⟨-, ⟨⟩⟩ := Option.ite_none_left_eq_some.mp hslot
      simp [Room.playerIds, hdeparted.players_eq]
    · have hlate : (RoomOp.leave playerId random now).Late now := le_refl now
      refine (step_spec rt code (some room) (.leave playerId random now)).gone hlate ?_
      rintro r ⟨⟩
      exact hseated

/-! ### Results -/

/-- The ranking of a later state is the same only when nothing was taken away. -/
theorem Battle.Shrinks.eq_of_result_eq {later : Battle} (h : battle.Shrinks later)
    (hresult : ScoringService.result rt later = ScoringService.result rt battle)
    (hnodup : battle.dancerIds.Nodup)
    (hnamed : ∀ vote ∈ battle.votes.entries, vote.2 ∈ battle.dancerIds)
    (hnamed' : ∀ vote ∈ later.votes.entries, vote.2 ∈ later.dancerIds) :
    later.dancerIds = battle.dancerIds ∧ later.votes = battle.votes := by
  have hstandings : ScoringService.standings rt later = ScoringService.standings rt battle :=
    congrArg BattleResult.standings hresult
  have hvalues : ∀ {b : Battle}, (∀ vote ∈ b.votes.entries, vote.2 ∈ b.dancerIds) →
      ∀ v ∈ b.votes.values, v ∈ b.dancerIds := by
    intro b hb v hv
    obtain ⟨vote, hvote, rfl⟩ := List.mem_map.mp hv
    exact hb vote hvote
  have hdancers : later.dancerIds.length = battle.dancerIds.length := by
    rw [← (ScoringService.map_dancerId_standings_perm rt later later.scoring).length_eq,
      ← (ScoringService.map_dancerId_standings_perm rt battle battle.scoring).length_eq, hstandings]
  have hvotes : later.votes.values.length = battle.votes.values.length := by
    rw [← ScoringService.sum_votes_standings rt later.scoring
        (hnodup.sublist h.dancerIds) (hvalues hnamed'),
      ← ScoringService.sum_votes_standings rt battle.scoring hnodup (hvalues hnamed), hstandings]
  refine ⟨h.dancerIds.eq_of_length hdancers, Record.ext (h.votes.eq_of_length ?_)⟩
  simpa [Record.values] using hvotes

/-! ### Runs after the end of the song -/

/-- A battle that is over stays over under late operations. -/
theorem over_run (rt : Runtime) (code : JsString) (hops : ∀ op ∈ ops, op.Late time)
    (h : Over closed slot) :
    Over closed ((roomMachine rt code).run slot ops) :=
  Machine.run_invariant (P := Over closed) (fun _ he h =>
    (stored_of_mem_trace he).over (hops _ (Machine.input_mem_of_mem_trace he)) h) h

/-- An undisturbed battle stays as it is until its timer ends it. -/
theorem open_run (code : JsString) (hinv : ∀ r ∈ slot, RoomInvariant rt r)
    (hops : ∀ op ∈ ops, op.Late battle.endsAt) (hquiet : ∀ op ∈ ops, ¬op.Disturbs battle)
    (h : Open battle slot) :
    Open battle ((roomMachine rt code).run slot ops) ∨
      ∃ closed, battle.Frozen rt closed ∧ Over closed ((roomMachine rt code).run slot ops) := by
  refine (Machine.run_invariant (M := roomMachine rt code)
    (P := fun slot => (∀ r ∈ slot, RoomInvariant rt r) ∧
      (Open battle slot ∨ ∃ closed, battle.Frozen rt closed ∧ Over closed slot))
    (fun e he hbefore => ?_) ⟨hinv, Or.inl h⟩).2
  have hstored := stored_of_mem_trace he
  have hlate := hops _ (Machine.input_mem_of_mem_trace he)
  refine ⟨hstored.roomInvariant hbefore.1, ?_⟩
  rcases hbefore.2 with hopen | ⟨closed, hfrozen, hover⟩
  · exact hstored.open hbefore.1 hlate (hquiet _ (Machine.input_mem_of_mem_trace he)) hopen
  · exact Or.inr ⟨closed, hfrozen, hstored.over hlate hover⟩

/-- When the timer of an undisturbed battle fires, the battle is closed with its result. -/
theorem frozen_of_undisturbed (code : JsString) (hinv : RoomInvariant rt room)
    (hstatus : room.status = .battling) (hbattle : room.battle = some battle)
    (hops : ∀ op ∈ ops, op.Late battle.endsAt) (hundisturbed : Undisturbed battle ops) :
    ∃ closed, battle.Frozen rt closed ∧
      Over closed ((roomMachine rt code).run (some room) ops) := by
  obtain ⟨pre, now, post, rfl, hquiet⟩ := hundisturbed
  rw [List.forall_mem_append, List.forall_mem_cons] at hops
  obtain ⟨hpre, htime, hpost⟩ := hops
  have hopen : Open battle (some room) := by
    rintro r ⟨⟩
    exact ⟨hstatus, hbattle⟩
  rw [Machine.run_append, Machine.run_cons]
  rcases open_run code (by rintro r ⟨⟩; exact hinv) hpre hquiet hopen with
    hopen | ⟨closed, hfrozen, hover⟩
  · refine ⟨RoomService.closed rt battle .songEnd now, ⟨rfl, rfl⟩, over_run rt code hpost ?_⟩
    cases hmid : (roomMachine rt code).run (some room) pre with
    | none =>
      simp [Over, Machine.next, roomMachine, RoomOp.step, RoomOp.runUpdate, RoomUpdate.execute_none]
    | some r =>
      obtain ⟨hstatus, hbattle⟩ := hopen r hmid
      rw [next_finishAtDeadline hstatus hbattle (Date.not_lt_of_le htime)]
      rintro r' ⟨⟩
      exact ⟨rfl, rfl⟩
  · exact ⟨closed, hfrozen, over_run rt code hpost ((step_spec rt code _ _).over htime hover)⟩

/-- A player who leaves is not in the room of a later late operation. -/
theorem gone_run {random : RandomIndex} (hops : ∀ op ∈ ops, op.Late time)
    (hmem : .leave playerId random now ∈ ops) :
    Gone playerId ((roomMachine rt code).run slot ops) := by
  obtain ⟨pre, post, rfl⟩ := List.append_of_mem hmem
  rw [List.forall_mem_append, List.forall_mem_cons] at hops
  rw [Machine.run_append, Machine.run_cons]
  exact Machine.run_invariant (P := Gone playerId) (fun _ he h =>
    (stored_of_mem_trace he).gone (hops.2.2 _ (Machine.input_mem_of_mem_trace he)) h)
    (gone_of_leave rt code playerId random now _)

/-- What ended a battle after its song: a departure that left too few dancers, or its timer, with
the ranking of what was left of the battle. -/
theorem exists_end (hstored : Stored rt code slot op slot') (hop : op.Late time)
    (hslot : slot = some room) (hstatus : room.status = .battling)
    (hbattle : room.battle = some battle)
    (hnot : ¬Battling slot') :
    (∃ closed, closed.endReason = some .notEnoughDancers ∧ Over closed slot') ∨
      ∃ now, op = .finishAtDeadline battle.id now ∧
        Over (RoomService.closed rt battle .songEnd now) slot' := by
  subst hslot
  cases hstored with
  | unchanged => exact absurd ⟨room, rfl, hstatus⟩ hnot
  | deleted => exact Or.inl ⟨RoomService.closed rt battle .notEnoughDancers 0, rfl, by simp [Over]⟩
  | @changed _ next _ hchange =>
    cases hchange with
    | @left playerId random now _ hdeparted =>
      obtain ⟨hseated, hsettled, hpassed⟩ := hdeparted
      obtain ⟨songSelection, rfl⟩ := hpassed.exists_eq
      cases hsettled with
      | idle => exact absurd ⟨_, rfl, hstatus⟩ hnot
      | continuing => exact absurd ⟨_, rfl, hstatus⟩ hnot
      | ended b =>
        refine Or.inl ⟨RoomService.closed rt (RoomService.withoutPlayer b playerId)
          .notEnoughDancers now, rfl, ?_⟩
        rintro r ⟨⟩
        exact ⟨rfl, rfl⟩
    | voted => exact absurd ⟨_, rfl, hstatus⟩ hnot
    | @finished now b _ hb =>
      obtain rfl : battle = b := Option.some.inj (hbattle.symm.trans hb)
      refine Or.inr ⟨now, rfl, ?_⟩
      rintro r ⟨⟩
      exact ⟨rfl, rfl⟩
    | _ => exact hop.elim

/-- A battle closed by the end of its song with the result it had was undisturbed. -/
theorem undisturbed_of_frozen {past : Battle} (hinv : RoomInvariant rt room)
    (hstatus : room.status = .battling) (hbattle : room.battle = some battle)
    (hops : ∀ op ∈ ops, op.Late battle.endsAt)
    (hfinal : (roomMachine rt code).run (some room) ops = some next)
    (hfinished : next.status = .finished) (hpast : next.battle = some past)
    (hfrozen : battle.Frozen rt past) : Undisturbed battle ops := by
  have hnot : ¬Battling ((roomMachine rt code).run (some room) ops) := by
    rw [hfinal]
    rintro ⟨r, ⟨⟩, hr⟩
    simp [hfinished] at hr
  obtain ⟨pre, op, post, rfl, ⟨r, hr, hbattling⟩, hend⟩ :=
    Machine.exists_end_of_phase ⟨room, rfl, hstatus⟩ hnot
  rw [List.forall_mem_append, List.forall_mem_cons] at hops
  obtain ⟨hpre, hop, hpost⟩ := hops
  rw [Machine.run_append, Machine.run_cons] at hfinal
  have hruns := hinv.runs hstatus hbattle
  have hinv' := roomInvariant_run rt code pre (by rintro r ⟨⟩; exact hinv) r hr
  -- What is left of the battle when it ends.
  have hshrinking : Shrinking battle ((roomMachine rt code).run (some room) pre) := by
    refine Machine.run_invariant (P := Shrinking battle) (fun _ he h =>
      (stored_of_mem_trace he).shrinking (hpre _ (Machine.input_mem_of_mem_trace he)) h) ?_
    rintro r ⟨⟩ -
    exact ⟨battle, hbattle, .refl battle⟩
  obtain ⟨later, hlater, hshrinks⟩ := hshrinking r hr hbattling
  have hruns' := hinv'.runs hbattling hlater
  have hclosed : ∀ {closed},
      Over closed ((roomMachine rt code).next ((roomMachine rt code).run (some room) pre) op) →
      closed = past := fun h => by
    have hover := over_run rt code hpost h
    exact Option.some.inj ((hover next hfinal).2.symm.trans hpast)
  rcases exists_end (step_spec rt code _ op) hop hr hbattling hlater hend with
    ⟨closed, hreason, hover⟩ | ⟨now, rfl, hover⟩
  · obtain rfl := hclosed hover
    simp [hfrozen.endReason] at hreason
  · obtain rfl := hclosed hover
    obtain ⟨hdancers, hvotes⟩ := hshrinks.eq_of_result_eq (Option.some.inj hfrozen.result)
      hruns.nodup (fun vote hvote => (hruns.votes vote hvote).2)
      fun vote hvote => (hruns'.votes vote hvote).2
    refine ⟨pre, now, post, by rw [hshrinks.id], fun op hop hdisturbs => ?_⟩
    cases op with
    | leave playerId random now =>
      refine gone_run hpre hop r hr (hruns'.toLists.mem_playerIds hinv'.seats ?_)
      rw [hdancers, hvotes]
      exact hdisturbs
    | _ => exact hdisturbs

/-- After the end of the song a battle is closed with the result and the reason of the end of the
song, exactly when no dancer of it and nobody who voted leaves before its timer fires. -/
theorem frozen_iff (rt : Runtime) (code : JsString) (ops₀ ops : List RoomOp) (room next : Room)
    (battle : Battle) (hrun : (roomMachine rt code).run none ops₀ = some room)
    (hstatus : room.status = .battling) (hbattle : room.battle = some battle)
    (hops : ∀ op ∈ ops, op.Late battle.endsAt)
    (hfinal : (roomMachine rt code).run (some room) ops = some next)
    (hfinished : next.status = .finished) :
    (∃ past, next.battle = some past ∧ battle.Frozen rt past) ↔ Undisturbed battle ops := by
  have hinv := roomInvariant_run rt code ops₀ (by simp) room hrun
  constructor
  · rintro ⟨past, hpast, hfrozen⟩
    exact undisturbed_of_frozen hinv hstatus hbattle hops hfinal hfinished hpast hfrozen
  · intro hundisturbed
    obtain ⟨closed, hfrozen, hover⟩ :=
      frozen_of_undisturbed code hinv hstatus hbattle hops hundisturbed
    exact ⟨closed, (hover next hfinal).2, hfrozen⟩

/-- Eve's vote comes too late, she leaves, and the timer fires. -/
def sampleQuietEnd : List RoomOp :=
  [.castVote (js "eve") (.string (js "ana")) 93000, .leave (js "eve") .first 93001,
    .finishAtDeadline (js "b1") 93002]

theorem frozen_iff_sampleQuietEnd :
    ∃ room ∈ (roomMachine .ascii (js "ROOM22")).run none sampleBattle,
    ∃ battle ∈ room.battle,
    ∃ next ∈ (roomMachine .ascii (js "ROOM22")).run (some room) sampleQuietEnd,
      next.status = .finished ∧ ∃ past, next.battle = some past ∧ battle.Frozen .ascii past := by
  have hsample : ∃ room ∈ (roomMachine .ascii (js "ROOM22")).run none sampleBattle,
      room.status = .battling ∧ (∃ battle ∈ room.battle, battle.id = js "b1" ∧
        battle.endsAt = 93000 ∧ js "eve" ∉ battle.dancerIds ∧ js "eve" ∉ battle.votes.keys) ∧
      ∃ next ∈ (roomMachine .ascii (js "ROOM22")).run (some room) sampleQuietEnd,
        next.status = .finished := by decide +kernel
  obtain ⟨room, hroom, hstatus, ⟨battle, hbattle, hid, hends, hdancer, hvoter⟩, next, hnext,
    hfinished⟩ := hsample
  refine ⟨room, hroom, battle, hbattle, next, hnext, hfinished, ?_⟩
  refine (frozen_iff .ascii (js "ROOM22") sampleBattle sampleQuietEnd room next battle hroom hstatus
    hbattle ?_ hnext hfinished).mpr ⟨sampleQuietEnd.take 2, 93002, [], by rw [hid]; rfl, ?_⟩
  · rw [hends, sampleQuietEnd, List.forall_mem_cons, List.forall_mem_cons,
      List.forall_mem_singleton]
    exact ⟨Date.at_le_at.mpr (by decide), Date.at_le_at.mpr (by decide),
      Date.at_le_at.mpr (by decide)⟩
  · simp [sampleQuietEnd, RoomOp.Disturbs, hdancer, hvoter]

/-- Bob leaves when the song of `b1` is over: the battle ends for want of dancers. -/
theorem leave_after_song_not_frozen :
    ∃ room ∈ (roomMachine .ascii (js "ROOM22")).run none sampleBattle, room.status = .battling ∧
    ∃ battle ∈ room.battle, battle.endsAt ≤ 93000 ∧
    ∃ next ∈ (roomMachine .ascii (js "ROOM22")).run (some room) [.leave (js "bob") .first 93000],
      next.status = .finished ∧
        ¬∃ past, next.battle = some past ∧ battle.Frozen .ascii past := by
  have hsample : ∃ room ∈ (roomMachine .ascii (js "ROOM22")).run none sampleBattle,
      room.status = .battling ∧ ∃ battle ∈ room.battle, battle.endsAt ≤ 93000 ∧
      ∃ next ∈ (roomMachine .ascii (js "ROOM22")).run (some room) [.leave (js "bob") .first 93000],
        next.status = .finished ∧
          ∃ past ∈ next.battle, past.endReason = some .notEnoughDancers := by
    decide +kernel
  obtain ⟨room, hroom, hstatus, battle, hbattle, hends, next, hnext, hfinished, past, hpast,
    hreason⟩ := hsample
  refine ⟨room, hroom, hstatus, battle, hbattle, hends, next, hnext, hfinished, ?_⟩
  rintro ⟨past', hpast', hfrozen⟩
  obtain rfl : past = past' := Option.some.inj (Eq.trans (Eq.symm hpast) hpast')
  simp [hfrozen.endReason] at hreason

end DanceSync
