import DanceSync.Model.Room

/-!
# The word race aggregate

`src/domain/model/WordRace.ts`. The race of a battle is kept outside the room.

## Main definitions

* `WordRoundStatus`, `WordRound`, `WordRace`, `SubmitWordOutcome`.
* `WordRace.withRound`: the race with one round replaced.
* `WordRace.wonBy`: the rounds won by a player.
-/

namespace DanceSync

/-- Rounds per battle when nothing else is configured. -/
def DEFAULT_WORD_RACE_ROUNDS : ℚ := 3

/-- Time dancers have to type each word, in milliseconds. -/
def DEFAULT_WORD_WINDOW_MS : ℚ := 10000

/-- Minimum time between two round openings, in milliseconds. -/
def DEFAULT_WORD_MIN_GAP_MS : ℚ := 12000

/-- Song length assumed when the battle started without a song, in milliseconds. -/
def DEFAULT_WORD_FALLBACK_DURATION_MS : ℚ := 90000

/-- Rounds open inside this slice of the song. -/
def DEFAULT_WORD_START_MARGIN_RATIO : ℚ := Binary64.round (1 / 10)

def DEFAULT_WORD_END_MARGIN_RATIO : ℚ := Binary64.round (85 / 100)

inductive WordRoundStatus where
  /-- Planned, not visible yet. -/
  | scheduled
  /-- The word is on screen and dancers race to type it. -/
  | open
  /-- A dancer typed it first. -/
  | won
  /-- The window closed and nobody typed it. -/
  | expired
  deriving DecidableEq, Repr

/-- Won and expired rounds are over. -/
def WordRoundStatus.isFinal : WordRoundStatus → Bool
  | .won | .expired => true
  | _ => false

structure WordRound where
  id : JsString
  /-- 1-based position inside the race. -/
  number : ℕ
  word : JsString
  opensAt : Date
  closesAt : Date
  winnerId : Option JsString
  status : WordRoundStatus
  deriving DecidableEq, Repr

structure WordRace where
  roomCode : JsString
  battleId : JsString
  /-- Dancers snapshotted when the battle started; only they can type. -/
  participantIds : List JsString
  /-- Display names snapshotted with the participants. -/
  participantNames : Record JsString JsString
  rounds : List WordRound
  /-- Rounds won per participant. -/
  wins : Record JsString Tally
  deriving DecidableEq

inductive SubmitWordOutcome where
  | won
  | late
  | incorrect
  | expired
  deriving DecidableEq, Repr

namespace WordRace

/-- `withRound`: the race with the round of the same id replaced. -/
def withRound (race : WordRace) (round : WordRound) : WordRace :=
  { race with rounds := race.rounds.map fun r => if r.id = round.id then round else r }

/-- `race.rounds.find((r) => r.id === roundId)`. -/
def round? (race : WordRace) (roundId : JsString) : Option WordRound :=
  race.rounds.find? (·.id = roundId)

/-- The rounds that `playerId` won. -/
def wonBy (race : WordRace) (playerId : JsString) : ℕ :=
  race.rounds.countP (·.winnerId = some playerId)

variable {race : WordRace} {round round' : WordRound} {roundId : JsString}

theorem mem_of_round? (h : race.round? roundId = some round) :
    round ∈ race.rounds ∧ round.id = roundId :=
  ⟨List.mem_of_find?_eq_some h, by simpa using List.find?_some h⟩

theorem eq_of_id_eq (hnodup : (race.rounds.map (·.id)).Nodup) (h : round ∈ race.rounds)
    (h' : round' ∈ race.rounds) (hid : round.id = round'.id) : round = round' :=
  List.inj_on_of_nodup_map hnodup h h' hid

/-- The rounds after one was replaced: the new one and the others. -/
theorem mem_rounds_withRound (hnodup : (race.rounds.map (·.id)).Nodup) (h : round ∈ race.rounds)
    (hid : round'.id = round.id) {r : WordRound} :
    r ∈ (race.withRound round').rounds ↔ r = round' ∨ (r ∈ race.rounds ∧ r ≠ round) := by
  simp only [withRound, List.mem_map, hid]
  constructor
  · rintro ⟨old, hold, rfl⟩
    split_ifs with heq
    · exact Or.inl rfl
    · exact Or.inr ⟨hold, fun hr => heq (by rw [hr])⟩
  · rintro (rfl | ⟨hr, hne⟩)
    · exact ⟨round, h, if_pos rfl⟩
    · exact ⟨r, hr, if_neg fun heq => hne (eq_of_id_eq hnodup hr h heq)⟩

/-- Replacing a round keeps the ids. -/
theorem map_id_withRound : ((race.withRound round).rounds.map (·.id)) = race.rounds.map (·.id) := by
  simp only [withRound, List.map_map]
  refine List.map_congr_left fun r _ => ?_
  simp only [Function.comp_apply]
  split_ifs with h
  · exact h.symm
  · rfl

/-- Replacing one of several rounds with different ids changes a count by that round. -/
theorem countP_withRound (p : WordRound → Bool) (hnodup : (race.rounds.map (·.id)).Nodup)
    (h : round ∈ race.rounds) (hid : round'.id = round.id) :
    (race.withRound round').rounds.countP p + (if p round then 1 else 0) =
      race.rounds.countP p + if p round' then 1 else 0 := by
  simp only [withRound, hid]
  generalize race.rounds = rounds at hnodup h
  induction rounds with
  | nil => simp at h
  | cons r rounds ih =>
    obtain ⟨hr, hnodup'⟩ := List.nodup_cons.mp hnodup
    rw [List.map_cons, List.countP_cons, List.countP_cons]
    rcases List.mem_cons.mp h with rfl | hmem
    · have hsame : rounds.map (fun r' => if r'.id = round.id then round' else r') = rounds := by
        conv_rhs => rw [← List.map_id rounds]
        refine List.map_congr_left fun r' hr' => if_neg fun heq => hr ?_
        exact List.mem_map.mpr ⟨r', hr', heq⟩
      rw [hsame, if_pos rfl]
      omega
    · have hne : r.id ≠ round.id := fun heq => hr (List.mem_map.mpr ⟨round, hmem, heq.symm⟩)
      rw [if_neg hne]
      have := ih hnodup' hmem
      omega

end WordRace

end DanceSync
