import DanceSync.Domain.MatchRecord
import DanceSync.Lifecycle.WordsWon
import DanceSync.Ranking.Competition

/-!
# The ranking of a battle

`ScoringService` gives the competition ranking of the dancers: ranks 1, 1, 3 by score, dancers with
one score in the order of the battle, and a winner when one dancer is alone at the top. It reads the
rounds of a dancer with `wordsWon[id] ?? 0`. Where a dancer without an entry is called as a property
of `Object.prototype`, that reads the inherited property, and the score is `NaN`.

## Main definitions

* `Battle.pointsOf`: the points of a dancer.
* `Battle.Ranking`: a result is the competition ranking of a battle.
* `Battle.Counted`: the dancers whose names are inherited have a count of their own.

## Main results

* `ScoringService.inherited_name_has_no_score`: a dancer without a score loses to one with 0 points.
* `ScoringService.result_ranking_iff`.
-/

namespace DanceSync

/-- The points of a dancer, for the spectators who vote for them and the rounds they won. -/
noncomputable def Battle.pointsOf (battle : Battle) (points : ScoringPoints) (d : JsString) : ℚ :=
  points.votePoints * (battle.votersOf d).ncard + points.wordBonusPoints * battle.roundsWon d

/-- A result is the competition ranking of a battle. -/
structure Battle.Ranking (battle : Battle) (points : ScoringPoints) (result : BattleResult) :
    Prop where
  lines : (result.standings.map (·.dancerId)).Perm battle.dancerIds
  votes : ∀ s ∈ result.standings, s.votes = (battle.votersOf s.dancerId).ncard
  wordsWon : ∀ s ∈ result.standings, s.wordsWon = some (battle.roundsWon s.dancerId)
  score : ∀ s ∈ result.standings, s.score = some (battle.pointsOf points s.dancerId)
  rank : ∀ s ∈ result.standings, s.rank =
    1 + above (battle.pointsOf points) (battle.pointsOf points s.dancerId) battle.dancerIds
  sorted : (result.standings.map (·.dancerId)).Pairwise fun a b =>
    battle.pointsOf points b < battle.pointsOf points a ∨
      (battle.pointsOf points a = battle.pointsOf points b ∧
        battle.dancerIds.idxOf a < battle.dancerIds.idxOf b)
  winner : ∀ d, result.winnerId = some d ↔ d ∈ battle.dancerIds ∧
    ∀ e ∈ battle.dancerIds, e ≠ d → battle.pointsOf points e < battle.pointsOf points d
  draw : result.winnerId = none ↔ battle.dancerIds = [] ∨
    ∃ d ∈ battle.dancerIds, ∃ e ∈ battle.dancerIds, d ≠ e ∧
      battle.pointsOf points d = battle.pointsOf points e ∧
      ∀ f ∈ battle.dancerIds, battle.pointsOf points f ≤ battle.pointsOf points d

/-- The dancers whose names every object inherits have a count of their own. -/
def Battle.Counted (rt : Runtime) (battle : Battle) : Prop :=
  ∀ d ∈ battle.dancerIds, rt.proto.inherited d → d ∈ battle.wordsWon.keys

instance (rt : Runtime) (battle : Battle) : Decidable (battle.Counted rt) :=
  inferInstanceAs (Decidable (∀ d ∈ battle.dancerIds, rt.proto.inherited d →
    d ∈ battle.wordsWon.keys))

namespace ScoringService

variable {rt : Runtime} {battle : Battle} {points : ScoringPoints} {d : JsString}

/-! ### The score of a line -/

/-- An inherited property is not read as a number. -/
theorem mem_keys_of_orZero {n : ℕ}
    (h : Tally.orZero (battle.wordsWon.get rt.proto d) = some n) :
    rt.proto.inherited d → d ∈ battle.wordsWon.keys := by
  intro hinherited
  by_contra hkey
  rw [Record.get, Record.own?_eq_none_iff.mpr hkey] at h
  simp [hinherited, Tally.orZero] at h

/-- Otherwise the rounds of a dancer are read. -/
theorem orZero_wordsWon (hcounts : ∀ tally ∈ battle.wordsWon.values, ∃ n, tally = .number n)
    (hkey : rt.proto.inherited d → d ∈ battle.wordsWon.keys) :
    Tally.orZero (battle.wordsWon.get rt.proto d) = some (battle.roundsWon d) := by
  unfold Record.get Battle.roundsWon
  rcases hown : battle.wordsWon.own? d with _ | tally
  · have hinherited : rt.proto.inherited d = false := by
      simpa using mt hkey (Record.own?_eq_none_iff.mp hown)
    simp [hinherited, Tally.orZero]
  · have hentry := Record.own?_eq_some_iff.mp hown
    obtain ⟨n, rfl⟩ := hcounts tally (List.mem_map_of_mem hentry)
    rfl

/-- The lines have the points of their dancers. -/
def Scored (rt : Runtime) (battle : Battle) (points : ScoringPoints) : Prop :=
  ∀ s ∈ standings rt battle points, s.score = some (battle.pointsOf points s.dancerId)

theorem score_of_wordsWon {s : Standing} (hs : s ∈ standings rt battle points)
    (hwords : s.wordsWon = some (battle.roundsWon s.dancerId)) :
    s.score = some (battle.pointsOf points s.dancerId) := by
  rw [score_of_mem_standings hs, hwords, (votes_of_mem_standings hs).2, Battle.pointsOf,
    Battle.ncard_votersOf]
  rfl

/-! ### The sorted lines -/

/-- The lines before they are ranked, best first. -/
def sortedLines (rt : Runtime) (battle : Battle) (points : ScoringPoints) : List Standing :=
  ((rows rt battle points).insertionSort Row.le).map Row.standing

/-- Ranking keeps everything else of a line. -/
theorem map_assignRanks {γ : Type} (f : Standing → γ) (hf : ∀ s rank, f { s with rank } = f s)
    (index : ℕ) (previous : Option Standing) (lines : List Standing) :
    (assignRanks index previous lines).map f = lines.map f := by
  induction lines generalizing index previous with
  | nil => rfl
  | cons s lines ih => simp [assignRanks, ih, hf]

/-- What is true of the score of every line is true before the lines are ranked. -/
theorem Scored.score_of_mem_sortedLines (h : Scored rt battle points) :
    ∀ s ∈ sortedLines rt battle points,
      s.score = some (battle.pointsOf points s.dancerId) := by
  intro s hs
  have hkeys : (standings rt battle points).map (fun s => (s.score, s.dancerId)) =
      (sortedLines rt battle points).map fun s => (s.score, s.dancerId) :=
    map_assignRanks _ (fun _ _ => rfl) 0 none _
  have hmem : (s.score, s.dancerId) ∈
      (standings rt battle points).map fun s => (s.score, s.dancerId) :=
    hkeys ▸ List.mem_map_of_mem hs
  obtain ⟨t, ht, heq⟩ := List.mem_map.mp hmem
  obtain ⟨hscore, hid⟩ := Prod.mk.inj heq
  rw [← hscore, ← hid]
  exact h t ht

theorem Scored.score_of_mem_rows (h : Scored rt battle points) : ∀ row ∈ rows rt battle points,
    row.standing.score = some (battle.pointsOf points row.standing.dancerId) := fun _ hrow =>
  h.score_of_mem_sortedLines _ (List.mem_map_of_mem ((List.mem_insertionSort _).mpr hrow))

/-- The position of a row is that of its dancer in the battle. -/
theorem idxOf_of_mem_rows (hnodup : battle.dancerIds.Nodup) {row : Row}
    (h : row ∈ rows rt battle points) :
    battle.dancerIds.idxOf row.standing.dancerId = row.order := by
  obtain ⟨⟨d, i⟩, hd, rfl⟩ := List.mem_map.mp h
  obtain ⟨hi, hget⟩ := List.getElem?_eq_some_iff.mp (List.mem_zipIdx_iff_getElem?.mp hd)
  have hposition := hnodup.idxOf_getElem i hi
  rwa [hget] at hposition

/-- Of two dancers, the first has more points, or as many and the lower position. -/
def Ahead (battle : Battle) (points : ScoringPoints) (d e : JsString) : Prop :=
  battle.pointsOf points e < battle.pointsOf points d ∨
    (battle.pointsOf points d = battle.pointsOf points e ∧
      battle.dancerIds.idxOf d ≤ battle.dancerIds.idxOf e)

/-- The lines are sorted by points, and lines with as many by the order of the battle. -/
theorem Scored.pairwise_sortedLines (h : Scored rt battle points)
    (hnodup : battle.dancerIds.Nodup) :
    ((sortedLines rt battle points).map (·.dancerId)).Pairwise (Ahead battle points) := by
  let key : Row → ℚᵒᵈ ×ₗ ℕ := fun row =>
    toLex (OrderDual.toDual (battle.pointsOf points row.standing.dancerId), row.order)
  have hkey : ∀ a b : Row, key a ≤ key b ↔
      battle.pointsOf points b.standing.dancerId < battle.pointsOf points a.standing.dancerId ∨
        (battle.pointsOf points a.standing.dancerId =
          battle.pointsOf points b.standing.dancerId ∧ a.order ≤ b.order) := fun a b => by
    rw [Prod.Lex.toLex_le_toLex]
    rfl
  have hsorted : ((rows rt battle points).insertionSort Row.le).Pairwise
      fun a b => key a ≤ key b := by
    refine pairwise_insertionSort_of_key key fun a ha b hb => ?_
    rw [hkey, Row.le, h.score_of_mem_rows a ha, h.score_of_mem_rows b hb]
  rw [sortedLines, List.map_map]
  refine List.pairwise_map.mpr (hsorted.imp_of_mem fun {a b} ha hb hle => ?_)
  have ha' := idxOf_of_mem_rows hnodup ((List.mem_insertionSort _).mp ha)
  have hb' := idxOf_of_mem_rows hnodup ((List.mem_insertionSort _).mp hb)
  rw [hkey, ← ha', ← hb'] at hle
  exact hle

theorem map_dancerId_standings : (standings rt battle points).map (·.dancerId) =
    (sortedLines rt battle points).map (·.dancerId) :=
  map_assignRanks (·.dancerId) (fun _ _ => rfl) 0 none _

/-- The ranking is sorted as its lines are. -/
theorem Scored.pairwise_standings (h : Scored rt battle points)
    (hnodup : battle.dancerIds.Nodup) :
    ((standings rt battle points).map (·.dancerId)).Pairwise fun d e =>
      battle.pointsOf points e < battle.pointsOf points d ∨
        (battle.pointsOf points d = battle.pointsOf points e ∧
          battle.dancerIds.idxOf d < battle.dancerIds.idxOf e) := by
  have hids : ((standings rt battle points).map (·.dancerId)).Nodup :=
    (map_dancerId_standings_perm rt battle points).nodup_iff.mpr hnodup
  have hsorted := map_dancerId_standings ▸ h.pairwise_sortedLines hnodup
  refine (hsorted.and hids).imp_of_mem fun {d e} hd _ hde => ?_
  obtain ⟨hlt | ⟨heq, hle⟩, hne⟩ := hde
  · exact Or.inl hlt
  · refine Or.inr ⟨heq, lt_of_le_of_ne hle fun hidx => hne ?_⟩
    exact (List.idxOf_inj ((map_dancerId_standings_perm rt battle points).mem_iff.mp hd)).mp hidx

/-! ### The ranks -/

/-- The ranks of lines with scores are those of one pass over their points. -/
theorem map_rank_assignRanks {score : Standing → ℚ}
    (hscore : ∀ s rank, score { s with rank } = score s) (index : ℕ) (previous : Option Standing)
    (hprevious : ∀ s ∈ previous, s.score = some (score s)) (lines : List Standing)
    (hlines : ∀ s ∈ lines, s.score = some (score s)) :
    (assignRanks index previous lines).map (·.rank) =
      competitionRanks score index (previous.map fun s => (score s, s.rank)) lines := by
  induction lines generalizing index previous with
  | nil => rfl
  | cons s lines ih =>
    rw [List.forall_mem_cons] at hlines
    have hrest : ∀ rank : ℕ, (assignRanks (index + 1) (some { s with rank }) lines).map (·.rank) =
        competitionRanks score (index + 1) (some (score s, rank)) lines := fun rank => by
      rw [ih _ _ ?_ hlines.2, Option.map_some, hscore]
      rintro _ ⟨⟩
      rw [hscore]
      exact hlines.1
    cases previous with
    | none => exact congrArg (_ :: ·) (hrest _)
    | some last =>
      have hsame : sameScore last s = true ↔ score last = score s := by
        simp [sameScore, hlines.1, hprevious last rfl]
      simp only [assignRanks, List.map_cons, competitionRanks, rankAfter, Option.map_some, hsame,
        hrest]

/-- The rank of a line is one more than the number of dancers with more points. -/
theorem Scored.rank_eq (h : Scored rt battle points) (hnodup : battle.dancerIds.Nodup)
    {s : Standing} (hs : s ∈ standings rt battle points) :
    s.rank = 1 + above (battle.pointsOf points) (battle.pointsOf points s.dancerId)
      battle.dancerIds := by
  let score : Standing → ℚ := fun s => battle.pointsOf points s.dancerId
  have hsorted : ([] ++ sortedLines rt battle points).Pairwise fun a b => score b ≤ score a :=
    (List.pairwise_map.mp (h.pairwise_sortedLines hnodup)).imp fun hab =>
      hab.elim le_of_lt fun heq => heq.1.ge
  have habove : ∀ b, above score b (sortedLines rt battle points) =
      above (battle.pointsOf points) b battle.dancerIds := fun b => by
    rw [← above_perm (map_dancerId_standings_perm rt battle points), map_dancerId_standings,
      above_map]
    rfl
  have hranks : (standings rt battle points).map (·.rank) = (standings rt battle points).map
      fun s => 1 + above (battle.pointsOf points) (score s) battle.dancerIds :=
    calc (standings rt battle points).map (·.rank)
        = competitionRanks score 0 none (sortedLines rt battle points) :=
          map_rank_assignRanks (fun _ _ => rfl) 0 none (by simp) _
            h.score_of_mem_sortedLines
      _ = (sortedLines rt battle points).map
            fun s => 1 + above score (score s) (sortedLines rt battle points) :=
          competitionRanks_eq .none hsorted
      _ = (standings rt battle points).map
            fun s => 1 + above (battle.pointsOf points) (score s) battle.dancerIds := by
          simp only [habove]
          exact (map_assignRanks
            (fun s => 1 + above (battle.pointsOf points) (score s) battle.dancerIds)
            (fun _ _ => rfl) 0 none _).symm
  exact List.map_inj_left.mp hranks s hs

/-! ### The winner -/

/-- The lines ranked first are those of the dancers whom nobody is above. -/
theorem Scored.mem_leaders_iff (h : Scored rt battle points) (hnodup : battle.dancerIds.Nodup)
    {s : Standing} : s ∈ (standings rt battle points).filter (·.rank = 1) ↔
      s ∈ standings rt battle points ∧
        ∀ e ∈ battle.dancerIds, battle.pointsOf points e ≤ battle.pointsOf points s.dancerId := by
  rw [List.mem_filter, decide_eq_true_eq]
  refine and_congr_right fun hs => ?_
  have hone : s.rank = 1 ↔ above (battle.pointsOf points) (battle.pointsOf points s.dancerId)
      battle.dancerIds = 0 := by
    rw [h.rank_eq hnodup hs]
    omega
  rw [hone, above_eq_zero_iff]

theorem nodup_standings (hnodup : battle.dancerIds.Nodup) :
    (standings rt battle points).Nodup :=
  List.Nodup.of_map _ ((map_dancerId_standings_perm rt battle points).nodup_iff.mpr hnodup)

/-- A dancer has one line. -/
theorem eq_of_dancerId_eq (hnodup : battle.dancerIds.Nodup) {s t : Standing}
    (hs : s ∈ standings rt battle points) (ht : t ∈ standings rt battle points)
    (h : s.dancerId = t.dancerId) : s = t :=
  List.inj_on_of_nodup_map
    ((map_dancerId_standings_perm rt battle points).nodup_iff.mpr hnodup) hs ht h

theorem exists_standing (rt : Runtime) (points : ScoringPoints) (hd : d ∈ battle.dancerIds) :
    ∃ s ∈ standings rt battle points, s.dancerId = d :=
  List.mem_map.mp ((map_dancerId_standings_perm rt battle points).mem_iff.mpr hd)

/-- There is a winner exactly when one line is alone at the top. -/
theorem winnerId_eq_some_iff : (result rt battle points).winnerId = some d ↔
    ∃ s, (standings rt battle points).filter (·.rank = 1) = [s] ∧ s.dancerId = d := by
  simp only [result]
  constructor
  · intro h
    split at h
    next leader hleaders => exact ⟨leader, hleaders, Option.some.inj h⟩
    next => simp at h
  · rintro ⟨s, hleaders, rfl⟩
    rw [hleaders]

/-- The winner is the dancer above all others. -/
theorem Scored.winner_iff (h : Scored rt battle points) (hnodup : battle.dancerIds.Nodup)
    (d : JsString) : (result rt battle points).winnerId = some d ↔ d ∈ battle.dancerIds ∧
      ∀ e ∈ battle.dancerIds, e ≠ d → battle.pointsOf points e < battle.pointsOf points d := by
  rw [winnerId_eq_some_iff]
  constructor
  · rintro ⟨s, hleaders, rfl⟩
    have hmem : ∀ t, t ∈ (standings rt battle points).filter (·.rank = 1) ↔ t = s := fun t => by
      rw [hleaders, List.mem_singleton]
    obtain ⟨hs, htop⟩ := (h.mem_leaders_iff hnodup).mp ((hmem s).mpr rfl)
    refine ⟨(votes_of_mem_standings hs).1, fun e he hne =>
      lt_of_le_of_ne (htop e he) fun heq => hne ?_⟩
    obtain ⟨t, ht, rfl⟩ := exists_standing rt points he
    rw [(hmem t).mp ((h.mem_leaders_iff hnodup).mpr ⟨ht, fun f hf => heq ▸ htop f hf⟩)]
  · rintro ⟨hd, hbelow⟩
    obtain ⟨s, hs, rfl⟩ := exists_standing rt points hd
    have hmem : ∀ t, t ∈ (standings rt battle points).filter (·.rank = 1) ↔ t = s := by
      intro t
      rw [h.mem_leaders_iff hnodup]
      constructor
      · rintro ⟨ht, htop⟩
        by_contra hne
        have hlt := hbelow t.dancerId (votes_of_mem_standings ht).1
          fun hid => hne (eq_of_dancerId_eq hnodup ht hs hid)
        exact absurd (htop s.dancerId hd) (not_le.mpr hlt)
      · rintro rfl
        refine ⟨hs, fun e he => ?_⟩
        by_cases hid : e = t.dancerId
        · rw [hid]
        · exact (hbelow e he hid).le
    have hperm : ((standings rt battle points).filter (·.rank = 1)).Perm [s] := by
      refine (List.perm_ext_iff_of_nodup ((nodup_standings hnodup).filter _)
        (List.nodup_singleton s)).mpr fun t => ?_
      rw [hmem, List.mem_singleton]
    exact ⟨s, List.perm_singleton.mp hperm, rfl⟩

/-- Nobody wins when nobody dances, or when two dancers share the most points. -/
theorem Scored.draw_iff (h : Scored rt battle points) (hnodup : battle.dancerIds.Nodup) :
    (result rt battle points).winnerId = none ↔ battle.dancerIds = [] ∨
      ∃ d ∈ battle.dancerIds, ∃ e ∈ battle.dancerIds, d ≠ e ∧
        battle.pointsOf points d = battle.pointsOf points e ∧
        ∀ f ∈ battle.dancerIds, battle.pointsOf points f ≤ battle.pointsOf points d := by
  constructor
  · intro hnone
    by_cases hempty : battle.dancerIds = []
    · exact Or.inl hempty
    -- Somebody is at the top; were they alone there, they would win.
    obtain ⟨d, hd, htop⟩ := Finset.exists_max_image battle.dancerIds.toFinset
      (battle.pointsOf points) (List.toFinset_nonempty_iff _ |>.mpr hempty)
    simp only [List.mem_toFinset] at hd htop
    have hnot : ¬∀ e ∈ battle.dancerIds, e ≠ d →
        battle.pointsOf points e < battle.pointsOf points d := fun hbelow => by
      have hwin := (h.winner_iff hnodup d).mpr ⟨hd, hbelow⟩
      simp [hnone] at hwin
    push Not at hnot
    obtain ⟨e, he, hne, hle⟩ := hnot
    exact Or.inr ⟨d, hd, e, he, hne.symm, le_antisymm hle (htop e he), htop⟩
  · rintro (hempty | ⟨d, hd, e, he, hne, heq, htop⟩)
    · refine Option.eq_none_iff_forall_ne_some.mpr fun d hd => ?_
      simpa [hempty] using ((h.winner_iff hnodup d).mp hd).1
    · refine Option.eq_none_iff_forall_ne_some.mpr fun w hw => ?_
      obtain ⟨hdancer, hbelow⟩ := (h.winner_iff hnodup w).mp hw
      by_cases hid : d = w
      · subst hid
        exact absurd (hbelow e he hne.symm) (not_lt.mpr heq.le)
      · exact absurd (htop w hdancer) (not_le.mpr (hbelow d hd hid))

/-! ### The result -/

/-- Two dancers, nobody votes, and nothing is counted for any of them. -/
def sampleNames : Battle where
  id := js "b1"
  roomCode := js "ROOM22"
  dancerIds := [js "bob", js "constructor"]
  roster := [⟨js "bob", js "Bob"⟩, ⟨js "constructor", js "Cat"⟩]
  audience := []
  song := none
  votes := .empty
  wordsWon := .empty
  scoring := DEFAULT_SCORING
  startedAt := 3000
  endsAt := 93000
  finishedAt := none
  endReason := none
  result := none

/-- A dancer with an inherited name has no score, and loses to one with 0 points. -/
theorem inherited_name_has_no_score :
    ((standings .ascii sampleNames).map fun s => (s.dancerId, s.score, s.rank)) =
        [(js "bob", some 0, 1), (js "constructor", none, 2)] ∧
      (result .ascii sampleNames).winnerId = some (js "bob") ∧
      ¬sampleNames.Ranking sampleNames.scoring (result .ascii sampleNames) := by
  have hscores : ((standings .ascii sampleNames).map fun s => (s.dancerId, s.score, s.rank)) =
      [(js "bob", some 0, 1), (js "constructor", none, 2)] := by decide +kernel
  refine ⟨hscores, by decide +kernel, fun h => ?_⟩
  have hmem : (js "constructor", none, 2) ∈
      (standings .ascii sampleNames).map fun s => (s.dancerId, s.score, s.rank) := by
    rw [hscores]
    simp
  obtain ⟨s, hs, heq⟩ := List.mem_map.mp hmem
  have hscore := h.score s hs
  rw [(Prod.mk.inj (Prod.mk.inj heq).2).1] at hscore
  cases hscore

/-- The result of a battle with distinct dancers is its competition ranking exactly when the dancers
with inherited names have a count of their own. -/
theorem result_ranking_iff (rt : Runtime) (battle : Battle) (points : ScoringPoints)
    (hnodup : battle.dancerIds.Nodup)
    (hcounts : ∀ tally ∈ battle.wordsWon.values, ∃ n, tally = .number n) :
    battle.Ranking points (result rt battle points) ↔ battle.Counted rt := by
  constructor
  · intro h d hd
    obtain ⟨s, hs, rfl⟩ := exists_standing rt points hd
    -- The line has a score, so its rounds are a number.
    obtain ⟨n, hn, -⟩ := Option.map_eq_some_iff.mp ((score_of_mem_standings hs).symm.trans
      (h.score s hs))
    exact mem_keys_of_orZero ((wordsWon_of_mem_standings hs).symm.trans hn)
  · intro hcounted
    have hwords : ∀ s ∈ standings rt battle points,
        s.wordsWon = some (battle.roundsWon s.dancerId) := fun s hs => by
      rw [wordsWon_of_mem_standings hs]
      exact orZero_wordsWon hcounts (hcounted s.dancerId (votes_of_mem_standings hs).1)
    have hscored : Scored rt battle points := fun s hs => score_of_wordsWon hs (hwords s hs)
    exact
      { lines := map_dancerId_standings_perm rt battle points
        votes := fun s hs => by rw [(votes_of_mem_standings hs).2, Battle.ncard_votersOf]
        wordsWon := hwords
        score := hscored
        rank := fun s hs => hscored.rank_eq hnodup hs
        sorted := hscored.pairwise_standings hnodup
        winner := hscored.winner_iff hnodup
        draw := hscored.draw_iff hnodup }

/-- A battle of three dancers, of whom two have a vote each. -/
def sampleTie : Battle where
  id := js "b1"
  roomCode := js "ROOM22"
  dancerIds := [js "ana", js "bob", js "cat"]
  roster := [⟨js "ana", js "Ana"⟩, ⟨js "bob", js "Bob"⟩, ⟨js "cat", js "Cat"⟩]
  audience := [⟨js "dan", js "Dan"⟩, ⟨js "eve", js "Eve"⟩]
  song := none
  votes := .ofEntries [(js "dan", js "cat"), (js "eve", js "bob")]
  wordsWon := .empty
  scoring := DEFAULT_SCORING
  startedAt := 3000
  endsAt := 93000
  finishedAt := none
  endReason := none
  result := none

theorem result_ranking_iff_sampleTie :
    sampleTie.Ranking DEFAULT_SCORING (result .ascii sampleTie) ∧ sampleTie.Counted .ascii :=
  have hcounted : sampleTie.Counted .ascii := by decide +kernel
  ⟨(result_ranking_iff .ascii sampleTie DEFAULT_SCORING (by decide) (by
    rintro tally ⟨⟩)).mpr hcounted, hcounted⟩

example : (standings .ascii sampleTie).map (fun s => (s.dancerId, s.rank)) =
    [(js "bob", 1), (js "cat", 1), (js "ana", 3)] := by decide +kernel

end ScoringService

end DanceSync
