import DanceSync.Application.Replies
import DanceSync.Lifecycle.RoomInvariant

/-!
# What operations do to the battle

A battle starts in a lobby, goes on under votes, departures and words won, finishes by a departure
or at the end of its song, and is dropped by a rematch. `BattleChange` says so once for every
change of a stored room.

## Main definitions

* `Battling`, `Running`: whether a battle, or the one with a given id, runs in the stored room.
* `Battle.Dated`: the battle begins and ends at valid dates.
* `RoomOp.battleOptions?`: the options of the battle that an operation may start.
* `BattleChange`: what an operation does to the battle.

## Main results

* `Change.battleChange`.
* `Stored.battling_before`: only a start makes a room battle.
* `Stored.ne_none_of_battling`: the room of a running battle is not deleted.
-/

namespace DanceSync

/-- Whether a battle runs in the stored room. -/
def Battling (slot : Option Room) : Prop := ∃ room ∈ slot, room.status = .battling

instance (slot : Option Room) : Decidable (Battling slot) :=
  inferInstanceAs (Decidable (∃ room ∈ slot, room.status = .battling))

/-- Whether the battle with this id runs in the stored room. -/
def Running (battleId : JsString) (slot : Option Room) : Prop :=
  ∃ room ∈ slot, room.status = .battling ∧ ∃ battle ∈ room.battle, battle.id = battleId

instance (battleId : JsString) (slot : Option Room) : Decidable (Running battleId slot) :=
  inferInstanceAs (Decidable (∃ room ∈ slot, room.status = .battling ∧
    ∃ battle ∈ room.battle, battle.id = battleId))

/-- The battle begins and ends at valid dates. -/
def Battle.Dated (battle : Battle) : Prop := battle.startedAt.Valid ∧ battle.endsAt.Valid

instance (battle : Battle) : Decidable battle.Dated := inferInstanceAs (Decidable (_ ∧ _))

namespace RoomOp

/-- The options of the battle that an operation may start. -/
def battleOptions? : RoomOp → Option StartBattleOptions
  | .startBattle _ _ options | .chooseSong _ _ options | .autoPick _ _ options => some options
  | _ => none

/-- The operations that may finish a battle. -/
def mayFinish : RoomOp → Bool
  | .leave .. | .finishAtDeadline .. => true
  | _ => false

end RoomOp

variable {rt : Runtime} {code : JsString} {room next : Room} {op : RoomOp} {playerId : JsString}
  {now : Instant} {battle : Battle} {ops : List RoomOp} {slot slot' : Option Room} {e : RoomEvent}

/-! ### What an operation does to the battle -/

/-- What an operation does to the battle of a room. -/
inductive BattleChange (rt : Runtime) (room : Room) (op : RoomOp) (next : Room) : Prop
  | kept (hstatus : next.status = room.status) (hbattle : next.battle = room.battle)
  | started {source : Room} (options : StartBattleOptions) (hop : op.battleOptions? = some options)
      (hstatus : room.status = .waiting) (h : RoomService.Started source options next)
  | continued (battle battle' : Battle) (hstatus : room.status = .battling)
      (hbattle : room.battle = some battle) (hnext : next.status = .battling)
      (hbattle' : next.battle = some battle') (hid : battle'.id = battle.id)
      (hdancers : battle'.dancerIds ⊆ battle.dancerIds)
      (hwords : battle'.wordsWon = battle.wordsWon ∨ ∃ playerId ∈ battle.dancerIds,
        op = .awardWordBonus playerId ∧ battle'.wordsWon = battle.wordsWon.define playerId
          (Tally.succOf (battle.wordsWon.get rt.proto playerId)))
  | finished (battle battle' : Battle) (hop : op.mayFinish) (hstatus : room.status = .battling)
      (hbattle : room.battle = some battle) (hnext : next.status = .finished)
      (hbattle' : next.battle = some battle') (hid : battle'.id = battle.id)
      (hdancers : battle'.dancerIds ⊆ battle.dancerIds)
      (hwords : battle'.wordsWon = battle.wordsWon)
  | rematched (hop : op = .rematch room.hostId) (hstatus : room.status = .finished)
      (hnext : next.status = .waiting) (hbattle : next.battle = none)

namespace BattleChange

theorem departed (hop : op.mayFinish) (hdeparted : RoomService.Departed rt room playerId now next) :
    BattleChange rt room op next := by
  obtain ⟨hseated, hsettled, hpassed⟩ := hdeparted
  obtain ⟨songSelection, rfl⟩ := hpassed.exists_eq
  cases hsettled with
  | idle => exact .kept rfl rfl
  | continuing battle hstatus hbattle =>
    exact .continued battle _ hstatus hbattle hstatus rfl rfl (List.filter_subset_self _)
      (Or.inl rfl)
  | ended battle hstatus hbattle =>
    exact .finished battle _ hop hstatus hbattle rfl rfl rfl (List.filter_subset_self _) rfl

/-- A departure from the lobby does not concern a battle. -/
theorem departed_of_waiting (hstatus : room.status = .waiting)
    (hdeparted : RoomService.Departed rt room playerId now next) :
    BattleChange rt room op next := by
  obtain ⟨hseated, hsettled, hpassed⟩ := hdeparted
  obtain ⟨songSelection, rfl⟩ := hpassed.exists_eq
  cases hsettled with
  | idle => exact .kept rfl rfl
  | continuing battle hbattling | ended battle hbattling => simp [hstatus] at hbattling

theorem fallback {selection : SongSelection} {reason : ChooserReason}
    (hfallback : SongSelectionService.Fallback room selection reason now next) :
    BattleChange rt room op next := by
  obtain ⟨songSelection, rfl⟩ := hfallback.exists_eq
  exact .kept rfl rfl

/-- The start of the battle that may follow a choice. -/
theorem startedAfter {chosen : Room} {options : StartBattleOptions}
    (h : next = chosen ∨ RoomService.Started chosen options next)
    (hop : op.battleOptions? = some options) (hstatus : chosen.status = room.status)
    (hbattle : chosen.battle = room.battle) :
    BattleChange rt room op next := by
  rcases h with rfl | hstarted
  · exact .kept hstatus hbattle
  · exact .started options hop (hstatus ▸ hstarted.waiting) hstarted

end BattleChange

theorem Change.battleChange (hchange : Change rt room op next) : BattleChange rt room op next := by
  cases hchange with
  | left hdeparted => exact .departed rfl hdeparted
  | kicked hstatus hother hdeparted => exact .departed_of_waiting hstatus hdeparted
  | submitted outcome hsubmitted =>
    cases hsubmitted with
    | expired _ _ _ _ _ _ hfallback => exact .fallback hfallback
    | allMisspelled _ _ _ _ _ _ _ _ _ hfallback =>
      exact .fallback hfallback
    | accepted | misspelled => exact .kept rfl rfl
  | expired selection _ _ _ hfallback => exact .fallback hfallback
  | songChosen hchosen hnext =>
    cases hchosen
    exact .startedAfter hnext rfl rfl rfl
  | songPicked hpicked hnext => cases hpicked <;> exact .startedAfter hnext rfl rfl rfl
  | battleStarted hstarted => exact .started _ rfl hstarted.waiting hstarted
  | voted battle wanted hstatus hbattle =>
    exact .continued battle _ hstatus hbattle hstatus rfl rfl (List.Subset.refl _) (Or.inl rfl)
  | awarded battle hstatus hbattle hdancer =>
    exact .continued battle _ hstatus hbattle hstatus rfl rfl (List.Subset.refl _)
      (Or.inr ⟨_, hdancer, rfl, rfl⟩)
  | finished battle hstatus hbattle =>
    exact .finished battle _ rfl hstatus hbattle rfl rfl rfl (List.Subset.refl _) rfl
  | rematched hstatus => exact .rematched rfl hstatus rfl rfl
  | _ => exact .kept rfl rfl

/-! ### Battling rooms -/

/-- Only a start makes a room battle. -/
theorem Stored.battling_before (hstored : Stored rt code slot op slot')
    (hop : op.battleOptions? = none) (h : Battling slot') : Battling slot := by
  obtain ⟨r, hr, hbattling⟩ := h
  cases hstored with
  | unchanged => exact ⟨r, hr, hbattling⟩
  | created p =>
    obtain rfl := Option.some.inj hr
    simp [RoomService.newRoom] at hbattling
  | deleted => simp at hr
  | @changed room next _ hchange =>
    obtain rfl := Option.some.inj hr
    refine ⟨room, rfl, ?_⟩
    cases hchange.battleChange with
    | kept hstatus => exact hstatus ▸ hbattling
    | started options hstart => simp [hop] at hstart
    | continued _ _ hstatus => exact hstatus
    | finished _ _ _ hstatus => exact hstatus
    | rematched _ _ hnext =>
      have hwaiting : next.status = .battling := hbattling
      simp [hnext] at hwaiting

/-- A room that did not battle, and battles after an operation, was just started by it. -/
theorem Stored.exists_started (hstored : Stored rt code slot op (some next))
    (hslot : ¬Battling slot) (hbattling : next.status = .battling) : ∃ source started options,
      op.battleOptions? = some options ∧ RoomService.Started source options started ∧
        next = { started with version := next.version } := by
  generalize hslot' : some next = slot' at hstored
  cases hstored with
  | unchanged => exact absurd ⟨next, hslot'.symm, hbattling⟩ hslot
  | created p =>
    obtain rfl := Option.some.inj hslot'
    simp [RoomService.newRoom] at hbattling
  | deleted => simp at hslot'
  | @changed room started _ hchange =>
    obtain rfl := Option.some.inj hslot'
    have hroom : room.status ≠ .battling := fun h => hslot ⟨room, rfl, h⟩
    cases hchange.battleChange with
    | kept hstatus => exact absurd (hstatus ▸ hbattling) hroom
    | started options hop _ h => exact ⟨_, started, options, hop, h, rfl⟩
    | continued _ _ hstatus | finished _ _ _ hstatus => exact absurd hstatus hroom
    | rematched _ _ hnext =>
      have hwaiting : started.status = .battling := hbattling
      simp [hnext] at hwaiting

/-- Its battle is the one that was started. -/
theorem Stored.started (hstored : Stored rt code slot op (some next)) (hslot : ¬Battling slot)
    (hbattling : next.status = .battling) : ∃ source started options,
      op.battleOptions? = some options ∧ RoomService.Started source options started ∧
        next.battle = started.battle := by
  obtain ⟨source, started, options, hop, hstarted, hnext⟩ := hstored.exists_started hslot hbattling
  exact ⟨source, started, options, hop, hstarted, by rw [hnext]⟩

/-- A player who leaves a running battle leaves a dancer behind. -/
theorem players_ne_nil_of_battling (hinv : RoomInvariant rt room)
    (hstatus : room.status = .battling)
    (hdeparted : RoomService.Departed rt room playerId now next) : next.players ≠ [] := by
  obtain ⟨battle, hbattle, hruns⟩ := hinv.battling hstatus
  obtain ⟨d, hd, hne⟩ : ∃ d ∈ battle.dancerIds, d ≠ playerId := by
    by_contra hall
    push Not at hall
    have henough : 2 ≤ battle.dancerIds.length := hruns.enough
    have hsubperm : battle.dancerIds.Subperm [playerId] :=
      hruns.nodup.subperm fun d hd => List.mem_singleton.mpr (hall d hd)
    have hle := hsubperm.length_le
    simp only [List.length_singleton] at hle
    omega
  obtain ⟨p, hp, rfl, -⟩ := (hruns.role d).mp hd
  rw [hdeparted.players_eq]
  exact List.ne_nil_of_mem (List.mem_filter.mpr ⟨hp, by simpa using hne⟩)

/-- The room of a running battle is not deleted. -/
theorem Stored.ne_none_of_battling (hstored : Stored rt code slot op slot')
    (hinv : ∀ r ∈ slot, RoomInvariant rt r) (h : Battling slot) : slot' ≠ none := by
  obtain ⟨r, hr, hstatus⟩ := h
  cases hstored with
  | unchanged => simp_all
  | created | changed => simp
  | deleted hdeparted hplayers =>
    obtain rfl := Option.some.inj hr
    exact absurd hplayers (players_ne_nil_of_battling (hinv _ rfl) hstatus hdeparted)

end DanceSync
