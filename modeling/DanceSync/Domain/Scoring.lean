import DanceSync.Model.Room

/-!
# Scoring of a battle

`src/domain/services/ScoringService.ts`: the votes per dancer, the ranking and the winner. Only
the dancers still in the battle are ranked.

## Main definitions

* `ScoringService.voteCounts`, `ScoringService.standings`, `ScoringService.result`.

## Main results

* `ScoringService.orZero_voteCounts`: the votes counted for a dancer are the entries naming them.
* `ScoringService.standings_perm`: up to order and ranks, the ranking has one line for each
  dancer.
* `ScoringService.votes_of_mem_standings`, `ScoringService.sum_votes_standings`: the votes of one
  line, and of all of them.
-/

namespace DanceSync

/-- The voters of a dancer. -/
def Battle.votersOf (battle : Battle) (dancerId : JsString) : Set JsString :=
  {voterId | battle.votes.own? voterId = some dancerId}

/-- They are as many as the entries that name the dancer. -/
theorem Battle.ncard_votersOf (battle : Battle) (id : JsString) :
    (battle.votersOf id).ncard = battle.votes.values.count id :=
  Record.ncard_own?_eq battle.votes id

namespace ScoringService

/-! ### Votes -/

/-- `if (dancerId in counts) counts[dancerId] += 1`. -/
def countVote (rt : Runtime) (counts : Record JsString Tally) (dancerId : JsString) :
    Record JsString Tally :=
  if counts.has rt.proto dancerId then
    counts.assign rt.proto dancerId (Tally.succOf (counts.get rt.proto dancerId))
  else counts

/-- Current votes per remaining dancer. -/
def voteCounts (rt : Runtime) (battle : Battle) : Record JsString Tally :=
  battle.votes.values.foldl (countVote rt)
    (Record.ofEntries (battle.dancerIds.map fun id => (id, Tally.number 0)))

/-! ### Ranking -/

/-- The line of a dancer, not ranked yet. -/
def line (rt : Runtime) (battle : Battle) (points : ScoringPoints) (dancerId : JsString) :
    Standing :=
  -- Every dancer has an entry of their own, so there is a number.
  let votes := (Tally.orZero ((voteCounts rt battle).get rt.proto dancerId)).getD 0
  let wordsWon := Tally.orZero (battle.wordsWon.get rt.proto dancerId)
  -- Of two roster entries with one id a `Map` keeps the last.
  let names := (battle.roster.map fun entry => (entry.id, entry.displayName)).reverse
  { dancerId
    displayName := (names.lookup dancerId).getD dancerId
    votes
    wordsWon
    score := wordsWon.map fun (wordsWon : ℕ) =>
      points.votePoints * votes + points.wordBonusPoints * wordsWon
    rank := 0 }

/-- A line with the position of its dancer in the battle. -/
structure Row where
  order : ℕ
  standing : Standing

/-- `b.standing.score - a.standing.score || a.order - b.order`, read as "a is not after b". A
difference with `NaN` counts as 0. -/
def Row.le (a b : Row) : Prop :=
  match a.standing.score, b.standing.score with
  | some x, some y => y < x ∨ (x = y ∧ a.order ≤ b.order)
  | _, _ => a.order ≤ b.order

instance : DecidableRel Row.le := fun a b => by
  unfold Row.le
  split <;> infer_instance

/-- `previous.score === standing.score`; `NaN` differs from itself. -/
def sameScore (previous standing : Standing) : Bool :=
  standing.score.isSome ∧ previous.score = standing.score

/-- The rows in roster order. -/
def rows (rt : Runtime) (battle : Battle) (points : ScoringPoints) : List Row :=
  battle.dancerIds.zipIdx.map fun d => ⟨d.2, line rt battle points d.1⟩

/-- Ranks of sorted lines: the rank of the line above for the same score, the position
otherwise. -/
def assignRanks : (index : ℕ) → (previous : Option Standing) → List Standing → List Standing
  | _, _, [] => []
  | index, previous, standing :: rest =>
    let rank := match previous with
      | some above => if sameScore above standing then above.rank else index + 1
      | none => index + 1
    { standing with rank } :: assignRanks (index + 1) (some { standing with rank }) rest

/-- The ranking, best first. -/
def standings (rt : Runtime) (battle : Battle) (points : ScoringPoints := battle.scoring) :
    List Standing :=
  assignRanks 0 none (((rows rt battle points).insertionSort Row.le).map Row.standing)

/-- The standings and the winner, `null` on a draw at the top. -/
def result (rt : Runtime) (battle : Battle) (points : ScoringPoints := battle.scoring) :
    BattleResult :=
  let standings := standings rt battle points
  let leaders := standings.filter (·.rank = 1)
  { standings
    winnerId := match leaders with
      | [leader] => some leader.dancerId
      | _ => none }

/-! ### The votes of a dancer -/

theorem own?_countVote_of_ne (rt : Runtime) (counts : Record JsString Tally)
    {dancerId id : JsString} (h : id ≠ dancerId) :
    (countVote rt counts dancerId).own? id = counts.own? id := by
  unfold countVote
  split_ifs
  · exact Record.own?_assign_of_ne rt.proto counts _ h
  · rfl

theorem own?_countVote_self (rt : Runtime) {counts : Record JsString Tally} {dancerId : JsString}
    {n : ℕ} (h : counts.own? dancerId = some (.number n)) :
    (countVote rt counts dancerId).own? dancerId = some (.number (n + 1)) := by
  have hkey : dancerId ∈ counts.keys := Record.mem_keys_iff.mpr ⟨_, h⟩
  rw [countVote, if_pos (Record.has_eq_true_iff.mpr (Or.inl hkey)),
    Record.own?_assign_self _ (Or.inr hkey), Record.get_of_own h, Tally.succOf]

theorem own?_foldl_countVote (rt : Runtime) (votes : List JsString) {id : JsString} {n : ℕ}
    {counts : Record JsString Tally} (h : counts.own? id = some (.number n)) :
    (votes.foldl (countVote rt) counts).own? id = some (.number (n + votes.count id)) := by
  induction votes generalizing counts n with
  | nil => simpa using h
  | cons vote votes ih =>
    rw [List.foldl_cons, List.count_cons]
    by_cases hv : vote = id
    · subst hv
      rw [ih (own?_countVote_self rt h), beq_self_eq_true, if_pos rfl]
      congr 2
      omega
    · rw [ih ((own?_countVote_of_ne rt counts (Ne.symm hv)).trans h), beq_false_of_ne hv,
        if_neg Bool.false_ne_true, Nat.add_zero]

/-- The votes counted for a dancer of the battle are the entries naming them. -/
theorem orZero_voteCounts (rt : Runtime) {battle : Battle} {id : JsString}
    (h : id ∈ battle.dancerIds) :
    Tally.orZero ((voteCounts rt battle).get rt.proto id) =
      some (battle.votes.values.count id) := by
  have hstart : (Record.ofEntries (battle.dancerIds.map fun id => (id, Tally.number 0))).own? id =
      some (.number 0) := by
    rw [Record.own?_ofEntries_const, if_pos h]
  have hown := own?_foldl_countVote rt battle.votes.values hstart
  rw [voteCounts, Record.get_of_own hown, Tally.orZero, Nat.zero_add]

/-- Votes for others leave the tally of an id as it was. -/
theorem own?_foldl_countVote_of_not_mem (rt : Runtime) {votes : List JsString}
    {id : JsString} (h : id ∉ votes) (counts : Record JsString Tally) :
    (votes.foldl (countVote rt) counts).own? id = counts.own? id := by
  induction votes generalizing counts with
  | nil => rfl
  | cons vote votes ih =>
    rw [List.mem_cons, not_or] at h
    rw [List.foldl_cons, ih h.2, own?_countVote_of_ne rt counts h.1]

/-- The totals of a battle whose votes name its dancers: one for each dancer. -/
theorem own?_voteCounts (rt : Runtime)
    {battle : Battle}
    (hvotes : ∀ vote ∈ battle.votes.entries, vote.2 ∈ battle.dancerIds) (id : JsString) :
    (voteCounts rt battle).own? id =
      if id ∈ battle.dancerIds then some (.number (battle.votes.values.count id)) else none := by
  by_cases hid : id ∈ battle.dancerIds
  · have hstart : (Record.ofEntries
        (battle.dancerIds.map fun id => (id, Tally.number 0))).own? id = some (.number 0) := by
      rw [Record.own?_ofEntries_const, if_pos hid]
    rw [voteCounts, own?_foldl_countVote rt battle.votes.values hstart, if_pos hid, Nat.zero_add]
  · have hnot : id ∉ battle.votes.values := by
      intro hmem
      obtain ⟨vote, hvote, rfl⟩ := List.mem_map.mp hmem
      exact hid (hvotes vote hvote)
    rw [voteCounts, own?_foldl_countVote_of_not_mem rt hnot, Record.own?_ofEntries_const,
      if_neg hid, if_neg hid]

/-! ### The lines of the ranking -/

theorem map_unranked_assignRanks (index : ℕ) (previous : Option Standing)
    (lines : List Standing) :
    (assignRanks index previous lines).map (fun s => { s with rank := 0 }) =
      lines.map fun s => { s with rank := 0 } := by
  induction lines generalizing index previous with
  | nil => rfl
  | cons s lines ih => simp [assignRanks, ih]

theorem map_standing_rows (rt : Runtime) (battle : Battle) (points : ScoringPoints) :
    (rows rt battle points).map Row.standing = battle.dancerIds.map (line rt battle points) := by
  rw [rows, List.map_map, ← List.zipIdx_map_fst 0 battle.dancerIds, List.map_map]
  simp only [List.zipIdx_map_fst]
  rfl

/-- Up to order and ranks, the ranking has one line for each dancer of the battle. -/
theorem standings_perm (rt : Runtime) (battle : Battle) (points : ScoringPoints) :
    ((standings rt battle points).map fun s => { s with rank := 0 }).Perm
      (battle.dancerIds.map (line rt battle points)) := by
  have hsort := ((rows rt battle points).perm_insertionSort Row.le).map Row.standing
  rw [map_standing_rows] at hsort
  rw [standings, map_unranked_assignRanks]
  refine (hsort.map fun s => { s with rank := 0 }).trans ?_
  rw [List.map_map]
  exact List.Perm.refl _

theorem map_dancerId_standings_perm (rt : Runtime) (battle : Battle) (points : ScoringPoints) :
    ((standings rt battle points).map (·.dancerId)).Perm battle.dancerIds := by
  have h := (standings_perm rt battle points).map (·.dancerId)
  simpa [List.map_map, Function.comp_def, line] using h

/-- A line of the ranking belongs to a dancer of the battle and counts the votes naming them. -/
theorem votes_of_mem_standings {rt : Runtime} {battle : Battle} {points : ScoringPoints}
    {s : Standing} (h : s ∈ standings rt battle points) :
    s.dancerId ∈ battle.dancerIds ∧ s.votes = battle.votes.values.count s.dancerId := by
  have hmem : { s with rank := 0 } ∈ battle.dancerIds.map (line rt battle points) :=
    (standings_perm rt battle points).mem_iff.mp (List.mem_map.mpr ⟨s, h, rfl⟩)
  obtain ⟨id, hid, hline⟩ := List.mem_map.mp hmem
  have hd : s.dancerId = id := (congrArg Standing.dancerId hline).symm
  have hv : s.votes = (Tally.orZero ((voteCounts rt battle).get rt.proto id)).getD 0 :=
    (congrArg Standing.votes hline).symm
  rw [hv, hd, orZero_voteCounts rt hid]
  exact ⟨hid, rfl⟩

/-- The votes of all lines are as many as the votes cast, when all of them name dancers of the
battle. -/
theorem sum_votes_standings (rt : Runtime) {battle : Battle} (points : ScoringPoints)
    (hnodup : battle.dancerIds.Nodup) (hvotes : ∀ v ∈ battle.votes.values, v ∈ battle.dancerIds) :
    ((standings rt battle points).map (·.votes)).sum = battle.votes.values.length := by
  have hlines : (standings rt battle points).map (·.votes) =
      ((standings rt battle points).map (·.dancerId)).map (battle.votes.values.count ·) := by
    rw [List.map_map]
    exact List.map_congr_left fun s hs => (votes_of_mem_standings hs).2
  calc ((standings rt battle points).map (·.votes)).sum
      = (battle.dancerIds.map (battle.votes.values.count ·)).sum := by
        rw [hlines]
        exact ((map_dancerId_standings_perm rt battle points).map _).sum_eq
    _ = ∑ id ∈ battle.dancerIds.toFinset, (battle.votes.values : Multiset JsString).count id := by
        rw [List.sum_toFinset _ hnodup]
        refine congrArg List.sum (List.map_congr_left fun id _ => ?_)
        rw [Multiset.coe_count]
        congr 1
        exact lawful_beq_subsingleton _ _
    _ = battle.votes.values.length := by
        rw [Multiset.sum_count_eq_card fun v hv => List.mem_toFinset.mpr (hvotes v hv)]
        rfl

end ScoringService

end DanceSync
