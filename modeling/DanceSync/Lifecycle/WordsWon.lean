import DanceSync.Lifecycle.Battles

/-!
# The rounds that a battle counts

`Battle.wordsWon` starts at 0 for every dancer. Only `AwardWordBonus` changes it, and it adds one
for one dancer of the running battle.

## Main definitions

* `Battle.roundsWon`, `roundsWon`: the rounds that a battle, or the stored one, counts for a dancer.
* `Battle.Tallied`: the counts are numbers, and there is one for each dancer.

## Main results

* `Stored.roundsWon_le`, `Stored.tallied`.
-/

namespace DanceSync

/-- The rounds that a battle counts for a dancer. -/
def Battle.roundsWon (battle : Battle) (dancerId : JsString) : ℕ :=
  match battle.wordsWon.own? dancerId with
  | some (.number n) => n
  | _ => 0

/-- The rounds that the battle of an id counts for a dancer, while it is the one of the room. -/
def roundsWon (battleId dancerId : JsString) (slot : Option Room) : ℕ :=
  match slot.bind (·.battle) with
  | some battle => if battle.id = battleId then battle.roundsWon dancerId else 0
  | none => 0

/-- Every dancer has a count, and every count is a number. -/
structure Battle.Tallied (battle : Battle) : Prop where
  own : ∀ d ∈ battle.dancerIds, (battle.wordsWon.own? d).isSome
  number : ∀ d tally, battle.wordsWon.own? d = some tally → ∃ n, tally = .number n

/-- The dancer for whom an operation counts a round. -/
def RoomOp.awardee : RoomOp → Option JsString
  | .awardWordBonus playerId => some playerId
  | _ => none

variable {rt : Runtime} {code battleId dancerId : JsString} {room next : Room} {op : RoomOp}
  {battle : Battle} {slot slot' : Option Room}

/-! ### One battle -/

/-- A battle that starts counts no round. -/
theorem own?_wordsWon_of_started {source : Room} {options : StartBattleOptions}
    (h : RoomService.Started source options next) (hbattle : next.battle = some battle)
    (d : JsString) :
    battle.wordsWon.own? d = if d ∈ battle.dancerIds then some (.number 0) else none := by
  obtain ⟨selected, song⟩ := h
  obtain rfl := Option.some.inj hbattle
  have hentries : (selected.map fun p => { p with role := .dancer }).map
      (fun d => (d.id, Tally.number 0)) =
        ((selected.map fun p => { p with role := .dancer }).map (·.id)).map
          fun id => (id, Tally.number 0) := by
    simp [Function.comp_def]
  refine (congrArg (fun es => (Record.ofEntries es).own? d) hentries).trans ?_
  refine (Record.own?_ofEntries_const _ _ d).trans ?_
  split_ifs <;> rfl

theorem tallied_of_started {source : Room} {options : StartBattleOptions}
    (h : RoomService.Started source options next) (hbattle : next.battle = some battle) :
    battle.Tallied := by
  have hown := own?_wordsWon_of_started h hbattle
  refine ⟨fun d hd => by simp [hown, hd], fun d tally htally => ?_⟩
  rw [hown] at htally
  obtain ⟨-, hzero⟩ := Option.ite_none_right_eq_some.mp htally
  exact ⟨0, (Option.some.inj hzero).symm⟩

/-- A count that is a number grows by one for the dancer it is awarded to. -/
theorem roundsWon_award_le {battle' : Battle} {playerId : JsString}
    (hwords : battle'.wordsWon = battle.wordsWon.define playerId
      (Tally.succOf (battle.wordsWon.get rt.proto playerId))) (d : JsString) :
    battle'.roundsWon d ≤ battle.roundsWon d + if playerId = d then 1 else 0 := by
  rw [Battle.roundsWon, Battle.roundsWon, hwords, Record.own?_define]
  by_cases hd : d = playerId
  · subst hd
    rw [if_pos rfl, if_pos rfl, Record.get]
    cases battle.wordsWon.own? d with
    | none => by_cases hinherited : rt.proto.inherited d <;> simp [hinherited, Tally.succOf]
    | some tally => cases tally <;> simp [Tally.succOf]
  · rw [if_neg hd, if_neg (Ne.symm hd)]
    exact Nat.le_refl _

theorem Battle.Tallied.award {battle' : Battle} {playerId : JsString} (h : battle.Tallied)
    (hdancer : playerId ∈ battle.dancerIds) (hdancers : battle'.dancerIds ⊆ battle.dancerIds)
    (hwords : battle'.wordsWon = battle.wordsWon.define playerId
      (Tally.succOf (battle.wordsWon.get rt.proto playerId))) : battle'.Tallied := by
  obtain ⟨tally, htally⟩ := Option.isSome_iff_exists.mp (h.own playerId hdancer)
  obtain ⟨n, rfl⟩ := h.number playerId tally htally
  rw [Record.get_of_own htally] at hwords
  have hown : ∀ d, battle'.wordsWon.own? d =
      if d = playerId then some (.number (n + 1)) else battle.wordsWon.own? d := fun d => by
    rw [hwords, Record.own?_define, Tally.succOf]
  refine ⟨fun d hd => ?_, fun d tally htally => ?_⟩
  · rw [hown]
    split_ifs
    · rfl
    · exact h.own d (hdancers hd)
  · rw [hown] at htally
    split_ifs at htally
    · exact ⟨n + 1, (Option.some.inj htally).symm⟩
    · exact h.number d tally htally

theorem Battle.Tallied.of_wordsWon_eq {battle' : Battle} (h : battle.Tallied)
    (hdancers : battle'.dancerIds ⊆ battle.dancerIds)
    (hwords : battle'.wordsWon = battle.wordsWon) : battle'.Tallied :=
  ⟨fun d hd => hwords ▸ h.own d (hdancers hd), fun d => hwords ▸ h.number d⟩

/-! ### The stored battle -/

/-- The counts of the stored battle stay numbers. -/
theorem Stored.tallied (hstored : Stored rt code slot op slot')
    (h : ∀ room ∈ slot, ∀ battle ∈ room.battle, battle.Tallied) :
    ∀ room ∈ slot', ∀ battle ∈ room.battle, battle.Tallied := by
  cases hstored with
  | unchanged => exact h
  | created =>
    rintro r ⟨⟩ battle hbattle
    simp [RoomService.newRoom] at hbattle
  | deleted => simp
  | @changed room next _ hchange =>
    rintro r ⟨⟩ battle hbattle
    cases hchange.battleChange with
    | kept _ hkept => exact h room rfl battle (hkept ▸ hbattle)
    | started options _ _ hstarted => exact tallied_of_started hstarted hbattle
    | continued before after _ hbefore _ hafter _ hdancers hwords =>
      obtain rfl : after = battle := Option.some.inj (hafter.symm.trans hbattle)
      have htallied := h room rfl before hbefore
      rcases hwords with hwords | ⟨playerId, hdancer, -, hwords⟩
      · exact htallied.of_wordsWon_eq hdancers hwords
      · exact htallied.award hdancer hdancers hwords
    | finished before after _ _ hbefore _ hafter _ hdancers hwords =>
      obtain rfl : after = battle := Option.some.inj (hafter.symm.trans hbattle)
      exact (h room rfl before hbefore).of_wordsWon_eq hdancers hwords
    | rematched _ _ _ hnone =>
      have hsome : next.battle = some battle := hbattle
      simp [hnone] at hsome

/-- An operation counts at most one round, for the dancer it awards it to, in the running battle. -/
theorem Stored.roundsWon_le (hstored : Stored rt code slot op slot')
    (battleId dancerId : JsString) :
    roundsWon battleId dancerId slot' ≤ roundsWon battleId dancerId slot +
      if op.awardee = some dancerId ∧ Running battleId slot then 1 else 0 := by
  have hcount : ∀ {room : Room} {battle : Battle}, room.battle = some battle →
      roundsWon battleId dancerId (some room) =
        if battle.id = battleId then battle.roundsWon dancerId else 0 := by
    intro room battle hbattle
    simp [roundsWon, hbattle]
  cases hstored with
  | unchanged => omega
  | created | deleted => exact Nat.zero_le _
  | @changed room next _ hchange =>
    have hversion : roundsWon battleId dancerId (some { next with version := room.version + 1 }) =
        roundsWon battleId dancerId (some next) := rfl
    rw [hversion]
    cases hchange.battleChange with
    | kept _ hkept =>
      have hsame : roundsWon battleId dancerId (some next) =
          roundsWon battleId dancerId (some room) := by
        simp [roundsWon, hkept]
      omega
    | started options _ _ hstarted =>
      have hzero : roundsWon battleId dancerId (some next) = 0 := by
        cases hbattle : next.battle with
        | none => simp [roundsWon, hbattle]
        | some battle =>
          rw [hcount hbattle, Battle.roundsWon, own?_wordsWon_of_started hstarted hbattle]
          by_cases hd : dancerId ∈ battle.dancerIds <;> simp [hd]
      omega
    | continued before after hstatus hbefore _ hafter hid _ hwords =>
      rw [hcount hbefore, hcount hafter, hid]
      split_ifs with hbattle hawarded hawarded
      · rcases hwords with hwords | ⟨playerId, -, -, hwords⟩
        · rw [Battle.roundsWon, hwords, ← Battle.roundsWon]
          omega
        · have hle := roundsWon_award_le hwords dancerId
          split_ifs at hle <;> omega
      · rcases hwords with hwords | ⟨playerId, -, rfl, hwords⟩
        · rw [Battle.roundsWon, hwords, ← Battle.roundsWon]
          omega
        · have hother : playerId ≠ dancerId := fun h =>
            hawarded ⟨congrArg some h, room, rfl, hstatus, before, hbefore, hbattle⟩
          simpa [hother] using roundsWon_award_le hwords dancerId
      all_goals omega
    | finished before after _ _ hbefore _ hafter hid _ hwords =>
      rw [hcount hbefore, hcount hafter, hid, Battle.roundsWon, hwords, ← Battle.roundsWon]
      omega
    | rematched _ _ _ hnone => simp [roundsWon, hnone]

end DanceSync
