import DanceSync.Lifecycle.DisplayNames
import DanceSync.Lifecycle.MatchHistory
import DanceSync.UsersService.RecordMatch

/-!
# Finished battles in the history service

The battle service admits every id and name of bounded length that `String.prototype.trim` leaves as
it is, while the history service asks for a character that is not whitespace for Java. All its other
constraints hold of the document of every finished battle.

## Main definitions

* `Identity.Admitted`: what the validation of a player leaves of an identity.
* `RoomOp.UsesDefaults`: the operation draws songs from the catalogue and counts default points.
* `Room.Documented`: what a room keeps for the document of its battles.
* `Battle.HasVisibleNames`, `Battle.CountsFit`.

## Main results

* `admitted_of_next`, `documented_run`.
* `match_accepted_iff`.
-/

namespace DanceSync

/-- The lengths that the validation of a player leaves. -/
def Identity.Admitted (who : Identity) : Prop :=
  who.id.length ≤ MAX_PLAYER_ID_LENGTH ∧ who.displayName.length ≤ MAX_DISPLAY_NAME_LENGTH

/-- The operation draws songs from the catalogue and counts default points. -/
def RoomOp.UsesDefaults : RoomOp → Prop
  | .startChallenge _ options => options.songs ⊆ SONG_CATALOG
  | .startBattle _ _ options | .chooseSong _ _ options | .autoPick _ _ options =>
    options.scoring = DEFAULT_SCORING
  | _ => True

/-- What a battle keeps for its document. -/
structure Battle.Documented (battle : Battle) : Prop where
  admitted : ∀ who ∈ battle.roster ++ battle.audience, who.Admitted
  nodup : ((battle.roster ++ battle.audience).map (·.id)).Nodup
  length : (battle.roster ++ battle.audience).length ≤ MAX_PLAYERS
  dancers : battle.dancerIds ⊆ battle.roster.map (·.id)
  song : ∀ song ∈ battle.song, song ∈ SONG_CATALOG
  scoring : battle.scoring = DEFAULT_SCORING
  counted : ∀ who ∈ battle.roster, ∃ n, battle.wordsWon.own? who.id = some (.number n)

/-- What a room keeps for the document of its battles. -/
structure Room.Documented (room : Room) : Prop where
  songOptions : ∀ s ∈ room.songSelection, s.songOptions ⊆ SONG_CATALOG
  selectedSong : ∀ song ∈ room.selectedSong, song ∈ SONG_CATALOG
  battle : ∀ battle ∈ room.battle, battle.Documented

/-- Everyone who danced or watched has an id and a name that Java does not find blank. -/
def Battle.HasVisibleNames (battle : Battle) : Prop :=
  ∀ who ∈ battle.roster ++ battle.audience,
    UsersService.isBlank who.id = false ∧ UsersService.isBlank who.displayName = false

/-- The points of every dancer fit an `Integer`. -/
def Battle.CountsFit (battle : Battle) : Prop :=
  ∀ who ∈ battle.roster,
    2 * (battle.votersOf who.id).ncard + battle.roundsWon who.id ≤ UsersService.INTEGER_MAX_VALUE

variable {rt : Runtime} {code playerId : JsString} {room next : Room} {op : RoomOp} {now : Instant}
  {battle battle' : Battle} {slot slot' : Option Room} {ops : List RoomOp}

/-! ### Identities -/

theorem admitted_of_validatePlayer {id displayName : JsValue} {who : Identity}
    (h : validatePlayer id displayName = .ok who) : who.Admitted := by
  unfold validatePlayer at h
  cases id with
  | string id =>
    simp only [JsValue.string?, bind_eq_ok, pure_eq_ok] at h
    obtain ⟨_, hid, _, hname, rfl⟩ := h
    have hlength := throwIf_eq_ok.mp hid
    have hname := throwIf_eq_ok.mp hname
    exact ⟨not_lt.mp fun h => hlength (Or.inr (Or.inl h)), not_lt.mp fun h => hname (Or.inr h)⟩
  | _ => simp [JsValue.string?] at h

/-- A suffix of one digit leaves room for the name. -/
theorem length_suffixedName_le (displayName : JsString) {n : ℕ} (hn : n < 10) :
    (suffixedName displayName n).length ≤ MAX_DISPLAY_NAME_LENGTH := by
  have hsuffix : (js " " ++ JsString.decimal n).length = 2 := by
    interval_cases n <;> decide +kernel
  have htrim : (JsString.trimEnd (displayName.take
      (MAX_DISPLAY_NAME_LENGTH - (js " " ++ JsString.decimal n).length))).length ≤
        MAX_DISPLAY_NAME_LENGTH - (js " " ++ JsString.decimal n).length :=
    (List.rdropWhile_prefix _ _).length_le.trans (List.length_take_le _ _)
  rw [suffixedName, List.length_append]
  rw [hsuffix] at htrim ⊢
  have hmax : MAX_DISPLAY_NAME_LENGTH = 32 := rfl
  omega

theorem length_uniqueDisplayName_le {players : List Player} {displayName name : JsString}
    (hplayers : players.length < MAX_PLAYERS)
    (hlength : displayName.length ≤ MAX_DISPLAY_NAME_LENGTH)
    (h : uniqueDisplayName rt players displayName = .ok name) :
    name.length ≤ MAX_DISPLAY_NAME_LENGTH := by
  simp only [uniqueDisplayName] at h
  split at h
  next => rwa [← Except.ok.inj h]
  next =>
    split at h
    next candidate hfind =>
      obtain rfl := Except.ok.inj h
      obtain ⟨n, hn, rfl⟩ := List.mem_map.mp (List.mem_of_find?_eq_some hfind)
      have hmax : MAX_PLAYERS = 7 := rfl
      have hrange := (List.mem_range'_1.mp hn).2
      exact length_suffixedName_le displayName (by omega)
    next => simp at h

theorem admitted_of_join {player : Identity} (h : RoomService.join rt room player = .ok next) :
    ∃ p : Player, p.toIdentity.Admitted ∧ next.players = room.players ++ [p] := by
  simp only [RoomService.join, bind_eq_ok, throwIf_eq_ok, exists_const, pure_eq_ok, not_le] at h
  obtain ⟨-, -, hspace, valid, hvalid, name, hname, rfl⟩ := h
  obtain ⟨hid, hlength⟩ := admitted_of_validatePlayer hvalid
  exact ⟨_, ⟨hid, length_uniqueDisplayName_le hspace hlength hname⟩, rfl⟩

/-- Every player of a stored room was validated. -/
theorem admitted_of_next (h : ∀ r ∈ slot, ∀ p ∈ r.players, p.toIdentity.Admitted) :
    ∀ r ∈ (roomMachine rt code).next slot op, ∀ p ∈ r.players, p.toIdentity.Admitted := by
  have hstored := step_spec rt code slot op
  intro r hr
  generalize hslot' : (roomMachine rt code).next slot op = slot' at hstored hr
  obtain rfl := hr
  cases hstored with
  | unchanged => exact h r rfl
  | created =>
    obtain ⟨who, valid, hvalid, hnew⟩ := created_of_next hslot'
    rw [hnew]
    simpa [RoomService.newRoom] using admitted_of_validatePlayer hvalid
  | changed hchange =>
    rcases hchange.identities_sublist with ⟨playerId, displayName, rfl⟩ | hsublist
    · rcases joined_of_next hslot' with hsame | ⟨who, next, -, hjoin, hnext⟩
      · rw [hsame]
        exact h _ rfl
      · obtain ⟨p, hp, hplayers⟩ := admitted_of_join hjoin
        rw [hnext]
        show ∀ q ∈ next.players, _
        rw [hplayers, List.forall_mem_append]
        exact ⟨h _ rfl, by simpa using hp⟩
    · intro p hp
      obtain ⟨q, hq, hsame⟩ := List.mem_map.mp (hsublist.subset (List.mem_map_of_mem hp))
      exact hsame ▸ h _ rfl q hq

/-! ### Documents -/

/-- A battle that names the same players and keeps its song and points. -/
theorem Battle.Documented.of_subset (h : battle.Documented)
    (hroster : battle'.roster = battle.roster)
    (haudience : battle'.audience = battle.audience)
    (hdancers : battle'.dancerIds ⊆ battle.dancerIds) (hsong : battle'.song = battle.song)
    (hscoring : battle'.scoring = battle.scoring) (hwords : battle'.wordsWon = battle.wordsWon) :
    battle'.Documented where
  admitted := by rw [hroster, haudience]; exact h.admitted
  nodup := by rw [hroster, haudience]; exact h.nodup
  length := by rw [hroster, haudience]; exact h.length
  dancers := by rw [hroster]; exact List.Subset.trans hdancers h.dancers
  song := hsong ▸ h.song
  scoring := hscoring.trans h.scoring
  counted := by rw [hroster, hwords]; exact h.counted

/-- A round that is counted for a dancer leaves a number. -/
theorem Battle.Documented.awarded (h : battle.Documented) (rt : Runtime) :
    { battle with
      wordsWon := battle.wordsWon.define playerId
        (Tally.succOf (battle.wordsWon.get rt.proto playerId)) }.Documented := by
  refine { h with counted := fun who hwho => ?_ }
  rw [Record.own?_define]
  split_ifs with hid
  · obtain ⟨n, hn⟩ := h.counted who hwho
    rw [← hid, Record.get_of_own hn]
    exact ⟨n + 1, rfl⟩
  · exact h.counted who hwho

namespace Room.Documented

theorem departed (h : room.Documented)
    (hdeparted : RoomService.Departed rt room playerId now next) : next.Documented := by
  obtain ⟨hseated, hsettled, hpassed⟩ := hdeparted
  rename_i settled
  have hselection : ∀ s ∈ next.songSelection, s.songOptions ⊆ SONG_CATALOG := by
    have hsettledSelection := hsettled.selection_eq.1
    cases hpassed with
    | kept => exact hsettledSelection ▸ h.songOptions
    | passed s hs _ _ hfallback =>
      cases hfallback with
      | cancelled => simp
      | assigned chooserId =>
        rintro t ⟨⟩
        exact h.songOptions s (hsettledSelection ▸ hs)
  refine ⟨hselection, ?_, ?_⟩ <;> obtain ⟨songSelection, rfl⟩ := hpassed.exists_eq
  · exact hsettled.selection_eq.2 ▸ h.selectedSong
  · cases hsettled with
    | idle => exact h.battle
    | continuing b _ hb | ended b _ hb =>
      rintro battle ⟨⟩
      exact (h.battle b hb).of_subset rfl rfl (List.filter_subset_self _) rfl rfl rfl

theorem fallback {selection : SongSelection} {reason : ChooserReason} (h : room.Documented)
    (hoptions : selection.songOptions ⊆ SONG_CATALOG)
    (hfallback : SongSelectionService.Fallback room selection reason now next) :
    next.Documented := by
  cases hfallback with
  | cancelled => exact ⟨by simp, h.selectedSong, h.battle⟩
  | assigned chooserId =>
    refine ⟨?_, h.selectedSong, h.battle⟩
    rintro s ⟨⟩
    exact hoptions

theorem chosen {songId : JsString} (h : room.Documented)
    (hchosen : SongSelectionService.Chosen room playerId songId next) : next.Documented := by
  obtain ⟨s, song, hs, -, -, hsong⟩ := hchosen
  have hoptions := h.songOptions s hs
  refine ⟨?_, ?_, h.battle⟩
  · rintro t ⟨⟩
    exact hoptions
  · rintro t ⟨⟩
    exact hoptions hsong

theorem autoPicked {challengeId : JsString} (h : room.Documented)
    (hpicked : SongSelectionService.AutoPicked room challengeId now next) : next.Documented := by
  cases hpicked with
  | cancelled => exact ⟨by simp, h.selectedSong, h.battle⟩
  | picked s deadline song hs _ _ _ _ hsong =>
    have hoptions := h.songOptions s hs
    refine ⟨?_, ?_, h.battle⟩
    · rintro t ⟨⟩
      exact hoptions
    · rintro t ⟨⟩
      exact hoptions hsong

/-- The battle that starts names validated players. -/
theorem started {options : StartBattleOptions} (h : room.Documented)
    (hstarted : RoomService.Started room options next)
    (hscoring : options.scoring = DEFAULT_SCORING)
    (hinv : RoomInvariant rt next) (hadmitted : ∀ p ∈ next.players, p.toIdentity.Admitted) :
    next.Documented := by
  obtain ⟨battle, hbattle⟩ : ∃ battle, next.battle = some battle := by
    obtain ⟨selected, song⟩ := hstarted
    exact ⟨_, rfl⟩
  have hstatus : next.status = .battling := by
    obtain ⟨selected, song⟩ := hstarted
    rfl
  have hatStart := atStart_of_started hstarted hbattle
  have hperm := hatStart.participants_perm hinv.seats (hinv.runs hstatus hbattle).toLists
  have hlength : (battle.roster ++ battle.audience).length ≤ MAX_PLAYERS := by
    have hsame := hperm.length_eq
    rw [List.length_map, Room.playerIds, List.length_map] at hsame
    exact hsame ▸ hinv.seats.length_le
  have hdancers : battle.dancerIds ⊆ battle.roster.map (·.id) :=
    hatStart.roster ▸ List.Subset.refl _
  have hcounted : ∀ who ∈ battle.roster, ∃ n, battle.wordsWon.own? who.id = some (.number n) := by
    intro who hwho
    rw [own?_wordsWon_of_started hstarted hbattle,
      if_pos (hatStart.roster ▸ List.mem_map_of_mem hwho)]
    exact ⟨0, rfl⟩
  obtain ⟨selected, song, -, -, -, -, -, hmem, hsong⟩ := hstarted
  obtain rfl := Option.some.inj hbattle
  have hidentities : ∀ who ∈
      (selected.map fun p => { p with role := .dancer }).map (·.toIdentity) ++
      (RoomService.battling room selected song options).spectators.map (·.toIdentity),
      who.Admitted := by
    intro who hwho
    rcases List.mem_append.mp hwho with hwho | hwho
    · simp only [List.map_map, List.mem_map, Function.comp_apply] at hwho
      obtain ⟨p, hp, rfl⟩ := hwho
      rw [RoomService.players_battling, List.forall_mem_map] at hadmitted
      exact hadmitted p (hmem p hp)
    · obtain ⟨p, hp, rfl⟩ := List.mem_map.mp hwho
      exact hadmitted p (List.mem_filter.mp hp).1
  refine ⟨h.songOptions, h.selectedSong, ?_⟩
  rintro battle ⟨⟩
  refine ⟨hidentities, hperm.nodup_iff.mpr hinv.seats.nodup, hlength, hdancers, ?_, hscoring,
    hcounted⟩
  rintro song ⟨⟩
  exact h.selectedSong _ hsong

end Room.Documented

theorem Change.documented (hchange : Change rt room op next) (h : room.Documented)
    (hop : op.UsesDefaults) (hinv : RoomInvariant rt next)
    (hadmitted : ∀ p ∈ next.players, p.toIdentity.Admitted) : next.Documented := by
  cases hchange with
  | left hdeparted | kicked _ _ hdeparted => exact h.departed hdeparted
  | challengeStarted phrase =>
    refine ⟨?_, by simp [SongSelectionService.challenged], h.battle⟩
    rintro s ⟨⟩
    exact hop
  | submitted outcome hsubmitted =>
    cases hsubmitted with
    | expired s hs _ _ _ _ hfallback => exact h.fallback (h.songOptions s hs) hfallback
    | allMisspelled s hs _ _ _ _ _ _ _ hfallback =>
      refine h.fallback ?_ hfallback
      exact h.songOptions s hs
    | accepted s hs | misspelled s hs =>
      refine ⟨?_, h.selectedSong, h.battle⟩
      rintro t ⟨⟩
      exact h.songOptions s hs
  | expired s hs _ _ hfallback => exact h.fallback (h.songOptions s hs) hfallback
  | songChosen hchosen hnext =>
    rcases hnext with rfl | hstarted
    · exact h.chosen hchosen
    · exact (h.chosen hchosen).started hstarted hop hinv hadmitted
  | songPicked hpicked hnext =>
    rcases hnext with rfl | hstarted
    · exact h.autoPicked hpicked
    · exact (h.autoPicked hpicked).started hstarted hop hinv hadmitted
  | battleStarted hstarted => exact h.started hstarted hop hinv hadmitted
  | voted battle wanted _ hbattle | finished battle _ hbattle =>
    refine ⟨h.songOptions, h.selectedSong, ?_⟩
    rintro b ⟨⟩
    exact (h.battle battle hbattle).of_subset rfl rfl (List.Subset.refl _) rfl rfl rfl
  | awarded battle _ hbattle =>
    refine ⟨h.songOptions, h.selectedSong, ?_⟩
    rintro b ⟨⟩
    exact (h.battle battle hbattle).awarded rt
  | rematched => exact ⟨by simp [RoomService.rematched], by simp [RoomService.rematched],
      by simp [RoomService.rematched]⟩
  | _ => exact ⟨h.songOptions, h.selectedSong, h.battle⟩

/-- Along a run with the defaults the rooms and their battles are documented, under the code of the
run. -/
theorem documented_run (rt : Runtime) (code : JsString) (ops : List RoomOp)
    (hops : ∀ op ∈ ops, op.UsesDefaults) :
    ∀ r ∈ (roomMachine rt code).run none ops, r.code = code ∧ r.Documented := by
  have hkeep : ∀ e ∈ (roomMachine rt code).trace none ops,
      (∀ r ∈ e.before, RoomInvariant rt r) ∧
        (∀ r ∈ e.before, ∀ p ∈ r.players, p.toIdentity.Admitted) ∧
        (∀ r ∈ e.before, r.code = code ∧ r.Documented) →
      (∀ r ∈ e.after, RoomInvariant rt r) ∧
        (∀ r ∈ e.after, ∀ p ∈ r.players, p.toIdentity.Admitted) ∧
        ∀ r ∈ e.after, r.code = code ∧ r.Documented := by
    rintro e he ⟨hinv, hadmitted, hdocumented⟩
    have hstored := stored_of_mem_trace he
    have hinv' := hstored.roomInvariant hinv
    have hadmitted' : ∀ r ∈ e.after, ∀ p ∈ r.players, p.toIdentity.Admitted := by
      rw [Machine.event_of_mem_trace he]
      exact admitted_of_next hadmitted
    have hop := hops _ (Machine.input_mem_of_mem_trace he)
    refine ⟨hinv', hadmitted', ?_⟩
    clear he
    obtain ⟨before, op, output, after⟩ := e
    dsimp only at *
    cases hstored with
    | unchanged => exact hdocumented
    | created p =>
      rintro r ⟨⟩
      exact ⟨rfl, by simp [RoomService.newRoom], by simp [RoomService.newRoom],
        by simp [RoomService.newRoom]⟩
    | @changed room next _ hchange =>
      rintro r ⟨⟩
      obtain ⟨hcode, hdocumented⟩ := hdocumented room rfl
      have hnext : RoomInvariant rt next :=
        hchange.roomInvariant (hinv room rfl)
      have hdocumented' := hchange.documented hdocumented hop hnext
        (hadmitted' { next with version := room.version + 1 } rfl)
      exact ⟨hchange.frame.1.trans hcode, { hdocumented' with }⟩
    | deleted => simp
  exact (Machine.run_invariant (P := fun slot : Option Room => (∀ r ∈ slot, RoomInvariant rt r) ∧
    (∀ r ∈ slot, ∀ p ∈ r.players, p.toIdentity.Admitted) ∧
    ∀ r ∈ slot, r.code = code ∧ r.Documented) hkeep (by simp)).2.2

/-! ### What the history service accepts -/

section Accepted

open UsersService MatchRecordService

theorem wholeOf_natCast (n : ℕ) : wholeOf n = n := by
  simp [wholeOf]

theorem fits_natCast {low : ℤ} {value : Option ℕ} :
    Fits low (value.map (↑)) ↔ ∀ n ∈ value, low ≤ n ∧ n ≤ INTEGER_MAX_VALUE := by
  cases value with
  | none => simp [Fits]
  | some n => simp [Fits, wholeOf_natCast]

/-- The rounds of a dancer in the document are those the battle counts. -/
theorem Battle.Documented.orZero_wordsWon (h : battle.Documented) (rt : Runtime) {who : Identity}
    (hwho : who ∈ battle.roster) :
    Tally.orZero (battle.wordsWon.get rt.proto who.id) = some (battle.roundsWon who.id) := by
  obtain ⟨n, hn⟩ := h.counted who hwho
  rw [Record.get_of_own hn, Tally.orZero, Battle.roundsWon, hn]

/-- The ranks of a ranking count from 1 up to the number of its lines. -/
theorem ScoringService.rank_of_mem_assignRanks {index : ℕ} {previous : Option Standing}
    {lines : List Standing} (hprevious : ∀ above ∈ previous, 1 ≤ above.rank ∧ above.rank ≤ index) :
    ∀ s ∈ assignRanks index previous lines, 1 ≤ s.rank ∧ s.rank ≤ index + lines.length := by
  induction lines generalizing index previous with
  | nil => simp [assignRanks]
  | cons line lines ih =>
    obtain ⟨rank, hrank, hpos, hle⟩ : ∃ rank, assignRanks index previous (line :: lines) =
        { line with rank } :: assignRanks (index + 1) (some { line with rank }) lines ∧
          1 ≤ rank ∧ rank ≤ index + 1 := by
      cases previous with
      | none => exact ⟨index + 1, rfl, by omega, le_refl _⟩
      | some above =>
        have habove := hprevious above rfl
        refine ⟨if sameScore above line then above.rank else index + 1, rfl, ?_⟩
        split_ifs <;> omega
    rw [hrank, List.forall_mem_cons, List.length_cons]
    refine ⟨⟨hpos, by simpa using (by omega : rank ≤ index + (lines.length + 1))⟩, fun s hs => ?_⟩
    have hrest : 1 ≤ s.rank ∧ s.rank ≤ index + 1 + lines.length := by
      refine ih ?_ s hs
      rintro _ ⟨⟩
      exact ⟨hpos, hle⟩
    omega

/-- The ranks of a ranking count from 1 up to the number of its dancers. -/
theorem ScoringService.rank_of_mem_standings {points : ScoringPoints} {s : Standing}
    (h : s ∈ standings rt battle points) : 1 ≤ s.rank ∧ s.rank ≤ battle.dancerIds.length := by
  have hlength := (map_dancerId_standings_perm rt battle points).length_eq
  have hrank := rank_of_mem_assignRanks (by simp) s h
  have hlines : (((rows rt battle points).insertionSort Row.le).map Row.standing).length =
      battle.dancerIds.length := by
    rw [List.length_map, List.length_insertionSort, rows, List.length_map, List.length_zipIdx]
  rwa [hlines, Nat.zero_add] at hrank

/-- A dancer who left early has no voters. -/
theorem Room.Closed.ncard_votersOf_eq_zero (h : room.Closed rt battle) {id : JsString}
    (hid : id ∉ battle.dancerIds) : (battle.votersOf id).ncard = 0 := by
  rw [Battle.ncard_votersOf, List.count_eq_zero]
  intro hmem
  obtain ⟨vote, hvote, rfl⟩ := List.mem_map.mp hmem
  exact hid (h.votes vote hvote)

/-- The statistics of a dancer fit exactly when their points do. -/
theorem statistics_fit_iff (hdocumented : battle.Documented) (hclosed : room.Closed rt battle)
    {who : Identity} (hwho : who ∈ battle.roster) {p : MatchParticipantRecord}
    (hp : p = dancerRecord rt battle (ScoringService.result rt battle) who) :
    (Fits 0 (p.votes.map (↑)) ∧ Fits 0 (p.wordsWon.map (↑)) ∧ Fits 0 p.score ∧
        Fits 1 (p.rank.map (↑))) ↔
      2 * (battle.votersOf who.id).ncard + battle.roundsWon who.id ≤ INTEGER_MAX_VALUE := by
  have hmax : INTEGER_MAX_VALUE = 2147483647 := rfl
  have hrounds := hdocumented.orZero_wordsWon rt hwho
  rw [fits_natCast, fits_natCast, fits_natCast]
  rcases standingOf_result rt hclosed.nodup who.id with
    ⟨-, s, hs, hid, hline⟩ | ⟨hgone, hline⟩
  · have hvotes : s.votes = (battle.votersOf who.id).ncard := by
      rw [(ScoringService.votes_of_mem_standings hs).2, hid, Battle.ncard_votersOf]
    have hwords : s.wordsWon = some (battle.roundsWon who.id) := by
      rw [ScoringService.wordsWon_of_mem_standings hs, hid, hrounds]
    have hscore : s.score = some ((2 * s.votes + battle.roundsWon who.id : ℕ) : ℚ) := by
      rw [ScoringService.score_of_mem_standings hs, hdocumented.scoring, hwords]
      simp [DEFAULT_SCORING]
    have hlength : battle.dancerIds.length ≤ 7 := by
      have hsubperm := (hclosed.nodup.subperm hdocumented.dancers).length_le
      have hroster := hdocumented.length
      rw [List.length_append] at hroster
      rw [List.length_map] at hsubperm
      have hplayers : MAX_PLAYERS = 7 := rfl
      omega
    have hrank := ScoringService.rank_of_mem_standings hs
    have hrecord : p.votes = some s.votes ∧ p.wordsWon = s.wordsWon ∧
        p.score = s.score ∧ p.rank = some s.rank := by
      rw [hp]
      simp [dancerRecord, hline]
    rw [hrecord.1, hrecord.2.1, hrecord.2.2.1, hrecord.2.2.2, hscore, hwords, ← hvotes]
    simp only [Option.mem_def, Option.some.injEq, forall_eq', Fits, wholeOf_natCast]
    omega
  · have hrecord : p.votes = none ∧ p.wordsWon = some (battle.roundsWon who.id) ∧
        p.score = none ∧ p.rank = none := by
      rw [hp]
      simp [dancerRecord, hline, hrounds]
    rw [hrecord.1, hrecord.2.1, hrecord.2.2.1, hrecord.2.2.2, hclosed.ncard_votersOf_eq_zero hgone]
    simp [Fits]

/-- A room code that the service draws is short and visible. -/
theorem generateRoomCode_fits (bytes : List.Vector UInt8 ROOM_CODE_LENGTH) :
    isBlank (generateRoomCode bytes) = false ∧ (generateRoomCode bytes).length ≤ 16 := by
  have halphabet : ∀ i < 32, isWhitespace (ROOM_CODE_ALPHABET.getD i 0) = false := by
    decide +kernel
  have hlength : ROOM_CODE_ALPHABET.length = 32 := by decide +kernel
  refine ⟨?_, ?_⟩
  · obtain ⟨byte, hbyte⟩ : ∃ byte, byte ∈ bytes.toList :=
      List.exists_mem_of_ne_nil _ (List.ne_nil_of_length_pos
        (by rw [List.Vector.toList_length]; decide))
    rw [isBlank, List.all_eq_false]
    refine ⟨_, List.mem_map_of_mem hbyte, ?_⟩
    rw [hlength, halphabet _ (Nat.mod_lt _ (by decide))]
    simp
  · rw [generateRoomCode, List.length_map, List.Vector.toList_length]
    decide

/-- The songs of the catalogue have short ids and titles. -/
theorem catalog_fits : ∀ song ∈ SONG_CATALOG, song.id.length ≤ 64 ∧ song.title.length ≤ 200 := by
  decide +kernel

/-- The document of a closed battle fits exactly when the battle began at a valid date, its names
are visible and its counts fit. -/
theorem recordFits_iff (hdocumented : battle.Documented) (hclosed : room.Closed rt battle)
    (hcode : isBlank room.code = false ∧ room.code.length ≤ 16) {record : MatchRecord}
    (hroomCode : record.roomCode = room.code)
    (hsongId : record.songId = battle.song.map (·.id))
    (hsongTitle : record.songTitle = battle.song.map (·.title))
    (hstart : record.startedAt = battle.startedAt) (hend : record.finishedAt.Valid)
    (hwinner : record.winnerPlayerId = (ScoringService.result rt battle).winnerId)
    (hparticipants : record.participants =
      battle.roster.map (dancerRecord rt battle (ScoringService.result rt battle)) ++
        battle.audience.map (spectatorRecord room)) :
    RecordFits record ↔ battle.startedAt.Valid ∧ battle.HasVisibleNames ∧ battle.CountsFit := by
  constructor
  · intro h
    have hfits := h.participants
    rw [hparticipants, List.forall_mem_append, List.forall_mem_map, List.forall_mem_map] at hfits
    refine ⟨hstart ▸ h.startedAt,
      List.forall_mem_append.mpr ⟨fun who hwho => ?_, fun who hwho => ?_⟩, fun who hwho => ?_⟩
    · exact ⟨(hfits.1 who hwho).playerId.1, (hfits.1 who hwho).displayName.1⟩
    · exact ⟨(hfits.2 who hwho).playerId.1, (hfits.2 who hwho).displayName.1⟩
    · have hfit := hfits.1 who hwho
      exact (statistics_fit_iff hdocumented hclosed hwho rfl).mp
        ⟨hfit.votes, hfit.wordsWon, hfit.score, hfit.rank⟩
  · rintro ⟨hdated, hvisible, hcounts⟩
    have hsizes : ∀ who ∈ battle.roster ++ battle.audience,
        (isBlank who.id = false ∧ who.id.length ≤ 64) ∧
          isBlank who.displayName = false ∧ who.displayName.length ≤ 64 := by
      intro who hwho
      obtain ⟨hid, hname⟩ := hdocumented.admitted who hwho
      exact ⟨⟨(hvisible who hwho).1, hid⟩, (hvisible who hwho).2, hname.trans (by decide)⟩
    rw [List.forall_mem_append] at hsizes
    refine ⟨hroomCode ▸ hcode, ?_, ?_, hstart ▸ hdated, hend, ?_, ?_, ?_, ?_⟩
    · rw [hsongId]
      rintro s hs
      obtain ⟨song, hsong, rfl⟩ := Option.map_eq_some_iff.mp hs
      exact (catalog_fits song (hdocumented.song song hsong)).1
    · rw [hsongTitle]
      rintro s hs
      obtain ⟨song, hsong, rfl⟩ := Option.map_eq_some_iff.mp hs
      exact (catalog_fits song (hdocumented.song song hsong)).2
    · rw [hwinner]
      intro id hid
      obtain ⟨leader, hleader, rfl, -⟩ := ScoringService.eq_of_winner hid
      have hdancer := (ScoringService.votes_of_mem_standings hleader).1
      obtain ⟨who, hwho, hwhoId⟩ := List.mem_map.mp (hdocumented.dancers hdancer)
      rw [← hwhoId]
      exact (hsizes.1 who hwho).1.2
    · rw [hparticipants, List.length_append, List.length_map, List.length_map,
        ← List.length_append]
      exact hdocumented.length.trans (by decide)
    · rw [hparticipants, List.forall_mem_append, List.forall_mem_map, List.forall_mem_map]
      refine ⟨fun who hwho => ?_, fun who hwho => ?_⟩
      · obtain ⟨hvotes, hwords, hscore, hrank⟩ :=
          (statistics_fit_iff hdocumented hclosed hwho rfl).mpr (hcounts who hwho)
        exact ⟨(hsizes.1 who hwho).1, (hsizes.1 who hwho).2, hvotes, hwords, hscore, hrank⟩
      · exact ⟨(hsizes.2 who hwho).1, (hsizes.2 who hwho).2, by simp [spectatorRecord, Fits],
          by simp [spectatorRecord, Fits], by simp [spectatorRecord, Fits],
          by simp [spectatorRecord, Fits]⟩
    · have hids : record.participants.map (·.playerId) =
          (battle.roster ++ battle.audience).map (·.id) := by
        rw [hparticipants, List.map_append, List.map_append, List.map_map, List.map_map]
        rfl
      rw [hids]
      exact hdocumented.nodup

/-- The `PUT` of a finished battle, with songs of the catalogue and default points, is accepted
exactly when the battle began at a valid date, every player who danced or watched has an id and a
name with a character that is not whitespace for Java, and the points of every dancer fit an
`Integer`. -/
theorem match_accepted_iff (rt : Runtime) (bytes : List.Vector UInt8 ROOM_CODE_LENGTH)
    (ops : List RoomOp) (room : Room) (matchId : JsString) (hops : ∀ op ∈ ops, op.UsesDefaults)
    (hrun : (roomMachine rt (generateRoomCode bytes)).run none ops = some room)
    (hfinished : room.status = .finished) :
    (∃ record, fromFinishedRoom rt room = some record ∧ accepts rt matchId record = true) ↔
      ∃ battle, room.battle = some battle ∧
        battle.startedAt.Valid ∧ battle.HasVisibleNames ∧ battle.CountsFit := by
  obtain ⟨hcode, hroom⟩ := documented_run rt (generateRoomCode bytes) ops hops room hrun
  obtain ⟨battle, hbattle, hclosed⟩ :=
    (roomInvariant_run rt (generateRoomCode bytes) ops (by simp) room hrun).finished hfinished
  obtain ⟨finishedAt, hfinishedAt, hvalid⟩ := hclosed.finishedAt
  obtain ⟨record, hrecord, hfits⟩ : ∃ record, fromFinishedRoom rt room = some record ∧
      (RecordFits record ↔
        battle.startedAt.Valid ∧ battle.HasVisibleNames ∧ battle.CountsFit) :=
    ⟨_, fromFinishedRoom_eq_some rt hfinished hbattle hclosed.result hfinishedAt hclosed.endReason,
      recordFits_iff (hroom.battle battle hbattle) hclosed (hcode ▸ generateRoomCode_fits bytes)
        rfl rfl rfl rfl hvalid rfl rfl⟩
  rw [hrecord]
  constructor
  · rintro ⟨r, hsome, haccepts⟩
    obtain rfl := Option.some.inj hsome
    exact ⟨battle, hbattle, hfits.mp (accepts_iff.mp haccepts)⟩
  · rintro ⟨b, hb, hok⟩
    obtain rfl : battle = b := Option.some.inj (hbattle.symm.trans hb)
    exact ⟨record, rfl, accepts_iff.mpr (hfits.mpr hok)⟩

/-- The bytes that draw a code of six equal letters. -/
def sampleBytes : List.Vector UInt8 ROOM_CODE_LENGTH := List.Vector.replicate ROOM_CODE_LENGTH 0

theorem match_accepted_iff_sampleHistory :
    ∃ room ∈ (roomMachine .ascii (generateRoomCode sampleBytes)).run none
        (sampleBattle ++ sampleHistory),
      ∃ record, fromFinishedRoom .ascii room = some record ∧
        accepts .ascii (js "b1") record = true := by
  have hsample : ∃ room ∈ (roomMachine .ascii (generateRoomCode sampleBytes)).run none
        (sampleBattle ++ sampleHistory), room.status = .finished ∧
      ∃ battle, room.battle = some battle ∧ battle.startedAt.Valid ∧
        (∀ who ∈ battle.roster ++ battle.audience,
          isBlank who.id = false ∧ isBlank who.displayName = false) ∧
        ∀ who ∈ battle.roster, 2 * (battle.votes.values.count who.id : ℤ) +
          battle.roundsWon who.id ≤ INTEGER_MAX_VALUE := by decide +kernel
  obtain ⟨room, hroom, hfinished, battle, hbattle, hdated, hvisible, hcounts⟩ := hsample
  refine ⟨room, hroom, (match_accepted_iff .ascii sampleBytes (sampleBattle ++ sampleHistory) room
    (js "b1") ?_ hroom hfinished).mpr ⟨battle, hbattle, hdated, hvisible, fun who hwho => ?_⟩⟩
  · intro op hop
    simp only [sampleBattle, sampleLobby, sampleStart, sampleHistory, List.mem_append,
      List.mem_cons, List.not_mem_nil, or_false] at hop
    rcases hop with ((rfl | rfl | rfl | rfl | rfl | rfl | rfl | rfl | rfl | rfl) | rfl) | rfl |
      rfl | rfl | rfl <;> simp [RoomOp.UsesDefaults]
  · rw [Battle.ncard_votersOf]
    exact hcounts who hwho

/-- Eve is called by a file separator, which `trim` leaves as it is. -/
def sampleBlankName : List RoomOp :=
  [.create (.string (js "ana")) (.string (js "Ana")) 0,
    .join (.string (js "bob")) (.string (js "Bob")),
    .join (.string (js "eve")) (.string (js "\x1c")),
    .selectRole (js "ana") (.string (js "dancer")),
    .selectRole (js "bob") (.string (js "dancer")),
    .setReady (js "ana") (.boolean true),
    .setReady (js "bob") (.boolean true),
    .setReady (js "eve") (.boolean true),
    .startChallenge (js "ana") { now := 1000, challengeId := js "c1", random := .first },
    .submitPhrase (js "bob") (.string (js "ritmo")) 2000 .first,
    sampleStart, .finishAtDeadline (js "b1") 93000]

/-- The battle that she watched is refused. -/
theorem blank_name_is_refused :
    ∃ room ∈ (roomMachine .ascii (generateRoomCode sampleBytes)).run none sampleBlankName,
    ∃ record ∈ fromFinishedRoom .ascii room,
      room.status = .finished ∧ accepts .ascii (js "b1") record = false := by
  decide +kernel

end Accepted

end DanceSync
