import DanceSync.Domain.Catalog

/-!
# Song selection

`src/domain/services/SongSelectionService.ts` and `readiness.ts`: the dancers of the lobby race
to type a phrase, the winner (or a fallback chooser) picks the song of the next battle.

## Main definitions

* `RandomIndex`: the injected source of random positions.
* `SongSelectionService.start`, `SongSelectionService.submit`, `SongSelectionService.expire`,
  `SongSelectionService.choose`, `SongSelectionService.autoPick`,
  `SongSelectionService.handlePlayerLeft`.

## Main results

One lemma for each function says what it does when it does not throw: `start_eq_ok`, `submit_spec`,
`expire_eq_some`, `choose_spec`, `autoPick_spec`, `handlePlayerLeft_spec`.
-/

namespace DanceSync

/-! ### Random positions -/

/-- Returns an integer in `[0, length)`. Injected so tests can make picks deterministic. -/
structure RandomIndex where
  pick : (length : ℕ) → 0 < length → Fin length

namespace RandomIndex

variable {α : Type}

/-- `list[random(list.length)]`; `crypto.randomInt` throws when the list is empty. -/
def choose (random : RandomIndex) : List α → Except JsError α
  | [] => .error (.range (js "The value of max is out of range. It must be greater than 0"))
  | a :: l => .ok ((a :: l).get (random.pick (a :: l).length (Nat.succ_pos l.length)))

/-- The source that always picks the first position. -/
def first : RandomIndex := ⟨fun _ h => ⟨0, h⟩⟩

theorem mem_of_choose {random : RandomIndex} {l : List α} {a : α}
    (h : random.choose l = .ok a) : a ∈ l := by
  cases l with
  | nil => simp [choose] at h
  | cons b l =>
    obtain rfl := Except.ok.inj h
    exact List.get_mem _ _

theorem exists_choose (random : RandomIndex) {l : List α} (h : l ≠ []) :
    ∃ a, random.choose l = .ok a := by
  cases l with
  | nil => exact absurd rfl h
  | cons b l => exact ⟨_, rfl⟩

end RandomIndex

/-- Throws `PLAYERS_NOT_READY`, naming who is missing, unless every player is ready. -/
def requireEveryoneReady (room : Room) : Except JsError Unit :=
  let notReady := room.players.filter (!·.ready)
  throwIf (0 < notReady.length) (.domain .playersNotReady
    (js "Every player must be ready to start; waiting for " ++
      (js ", ").intercalate (notReady.map (·.displayName))))

theorem requireEveryoneReady_eq_ok {room : Room} {u : Unit} :
    requireEveryoneReady room = .ok u ↔ ∀ p ∈ room.players, p.ready = true := by
  simp [requireEveryoneReady, throwIf_eq_ok]

inductive SubmitOutcome where
  | accepted
  | incorrect
  | expired
  deriving DecidableEq, Repr

/-- The arguments of `SongSelectionService.start`, with the id that `randomUUID` draws. -/
structure StartChallengeOptions where
  now : Instant
  challengeId : JsString
  durationMs : ℚ := 15000
  /-- Time each chooser gets to pick a song. -/
  chooseMs : ℚ := 20000
  random : RandomIndex
  phrases : List JsString := SONG_CHALLENGE_PHRASES
  songs : List Song := SONG_CATALOG

/-- Ignores surrounding whitespace and Unicode composition differences, nothing else. -/
def normalizeAttempt (rt : Runtime) (text : JsString) : JsString := (rt.nfc text).trim

def isSelectionInProgress (room : Room) : Bool :=
  match room.songSelection with
  | some selection => selection.phase = .typing || selection.phase = .choosing
  | none => false

/-- The ids of the players who chose to dance, in seating order. -/
def Room.dancerRoleIds (room : Room) : List JsString :=
  (Room.withRole .dancer room.players).map (·.id)

namespace SongSelectionService

/-- The room with a phrase on screen. -/
def challenged (room : Room) (options : StartChallengeOptions) (phrase : JsString) : Room :=
  { room with
    songSelection := some
      { phase := .typing
        challenge :=
          { id := options.challengeId
            phrase
            startedAt := options.now
            expiresAt := options.now.add options.durationMs }
        participantIds := room.dancerRoleIds
        failedIds := []
        chooserId := none
        chooserReason := none
        songOptions := options.songs
        chooseMs := options.chooseMs
        chooseDeadline := none
        autoPicked := false }
    selectedSong := none }

/-- Shows a random phrase to every dancer in the lobby and starts the countdown. -/
def start (rt : Runtime) (room : Room) (options : StartChallengeOptions) :
    Except JsError Room := do
  throwIf (options.chooseMs ≤ 0)
    (.range (js "The time to choose a song must be more than 0 ms, received " ++
      rt.numberText options.chooseMs))
  throwIf (room.status ≠ .waiting)
    (.domain .roomNotWaiting (js "Room " ++ room.code ++ js " is not in the lobby"))
  throwIf (isSelectionInProgress room)
    (.domain .songSelectionInProgress (js "A song selection is already in progress"))
  throwIf (room.dancerRoleIds.length < MIN_DANCERS_PER_BATTLE)
    (.domain .notEnoughDancers (js "At least " ++ JsString.decimal MIN_DANCERS_PER_BATTLE ++
      js " dancers are required to pick a song"))
  requireEveryoneReady room
  -- Avoid showing the same phrase twice in a row when there is a choice.
  let previous := room.songSelection.map (·.challenge.phrase)
  let pool := if 1 < options.phrases.length then
    options.phrases.filter (some · ≠ previous) else options.phrases
  let phrase ← options.random.choose pool
  return challenged room options phrase

/-- Hands the choice to `chooserId` with a fresh deadline. -/
def choosing (selection : SongSelection) (chooserId : JsString) (reason : ChooserReason)
    (now : Instant) : SongSelection :=
  { selection with
    phase := .choosing
    chooserId := some chooserId
    chooserReason := some reason
    chooseDeadline := some (now.add selection.chooseMs) }

/-- The participants the fallback may pick: those in the room who did not misspell the phrase or,
when all of them did, any participant in the room. -/
def fallbackCandidates (room : Room) (selection : SongSelection) : List JsString :=
  let present := selection.participantIds.filter (· ∈ room.playerIds)
  let notFailed := present.filter (· ∉ selection.failedIds)
  if 0 < notFailed.length then notFailed else present

/-- Passes the turn to a random candidate; without candidates the selection is cancelled. -/
def assignFallbackChooser (room : Room) (selection : SongSelection) (reason : ChooserReason)
    (random : RandomIndex) (now : Instant) : Except JsError Room :=
  let candidates := fallbackCandidates room selection
  if candidates = [] then .ok { room with songSelection := none }
  else do
    let chooserId ← random.choose candidates
    return { room with songSelection := some (choosing selection chooserId reason now) }

/-- The selection whose phrase is on screen. -/
def requireTyping (room : Room) : Except JsError SongSelection :=
  match room.songSelection with
  | some selection =>
    if selection.phase = .typing then .ok selection
    else .error (.domain .songSelectionNotActive (js "There is no phrase to type right now"))
  | none => .error (.domain .songSelectionNotActive (js "There is no phrase to type right now"))

/-- The selection after a wrong attempt of `playerId`. -/
def misspelled (selection : SongSelection) (playerId : JsString) : SongSelection :=
  { selection with failedIds := selection.failedIds ++ [playerId] }

/-- Validates a typed attempt: the first exact match wins the right to choose the song. -/
def submit (rt : Runtime) (room : Room) (playerId text : JsString) (now : Instant)
    (random : RandomIndex) : Except JsError (Room × SubmitOutcome) := do
  let selection ← requireTyping room
  throwIf (playerId ∉ selection.participantIds)
    (.domain .notChallengeParticipant
      (js "Only dancers in this challenge can type the phrase"))
  throwIf (playerId ∉ room.playerIds)
    (.domain .playerNotInRoom (js "Player " ++ playerId ++ js " is not in room " ++ room.code))
  -- Once the countdown is over every late submission resolves the round, a used attempt too.
  if selection.challenge.expiresAt ≤ now then
    let next ← assignFallbackChooser room selection .timeout random now
    return (next, .expired)
  else do
    throwIf (playerId ∈ selection.failedIds)
      (.domain .attemptAlreadyUsed (js "You already used your attempt in this challenge"))
    if normalizeAttempt rt text = selection.challenge.phrase then
      return ({ room with songSelection := some (choosing selection playerId .typed now) },
        .accepted)
    else
      let failed := misspelled selection playerId
      let everyoneFailed := (failed.participantIds.filter (· ∈ room.playerIds)).all
        (· ∈ failed.failedIds)
      if everyoneFailed then do
        let next ← assignFallbackChooser room failed .allFailed random now
        return (next, .incorrect)
      else return ({ room with songSelection := some failed }, .incorrect)

/-- Called when the countdown reaches zero; `null` when there is nothing to expire. -/
def expire (room : Room) (challengeId : JsString) (random : RandomIndex) (now : Instant) :
    Except JsError (Option Room) :=
  match room.songSelection with
  | some selection =>
    if selection.phase ≠ .typing ∨ selection.challenge.id ≠ challengeId then .ok none
    else some <$> assignFallbackChooser room selection .timeout random now
  | none => .ok none

/-- The chooser picks one of the options. -/
def choose (room : Room) (playerId songId : JsString) : Except JsError Room :=
  match room.songSelection with
  | some selection =>
    if selection.phase ≠ .choosing then
      .error (.domain .songSelectionNotActive (js "Nobody is choosing a song right now"))
    else if selection.chooserId ≠ some playerId then
      .error (.domain .notSongChooser
        (js "Only the player who won the challenge can choose the song"))
    else match selection.songOptions.find? (·.id = songId) with
      | some song =>
        .ok { room with
          songSelection := some { selection with phase := .done, chooseDeadline := none }
          selectedSong := some song }
      | none => .error (.domain .invalidSong
          (js "Song " ++ songId ++ js " is not one of the options"))
  | none => .error (.domain .songSelectionNotActive (js "Nobody is choosing a song right now"))

/-- The chooser whose deadline passed by `now`; an empty id is no chooser. -/
def overdueChooser (selection : SongSelection) (now : Instant) : Option JsString :=
  match selection.chooserId, selection.chooseDeadline with
  | some chooserId, some deadline =>
    if chooserId = [] ∨ now < deadline then none else some chooserId
  | _, _ => none

/-- Called when the chooser's deadline passes: picks a random song for them; `null` when there is
nothing to pick. -/
def autoPick (room : Room) (challengeId : JsString) (now : Instant) (random : RandomIndex) :
    Except JsError (Option Room) :=
  match room.songSelection with
  | some selection =>
    if selection.phase ≠ .choosing ∨ selection.challenge.id ≠ challengeId then .ok none
    else match overdueChooser selection now with
      | none => .ok none
      | some chooserId =>
        -- Nothing to pick from: cancel so the host can start a new selection.
        if selection.songOptions = [] then .ok (some { room with songSelection := none })
        else do
          let song ← random.choose selection.songOptions
          let chosen ← choose room chooserId song.id
          return some { chosen with
            songSelection := chosen.songSelection.map fun s => { s with autoPicked := true } }
  | none => .ok none

/-- Passes the choice to someone else when the chooser leaves before picking; the player is
already out of `room`. -/
def handlePlayerLeft (room : Room) (playerId : JsString) (random : RandomIndex) (now : Instant) :
    Except JsError Room :=
  match room.songSelection with
  | some selection =>
    if selection.phase ≠ .choosing ∨ selection.chooserId ≠ some playerId then .ok room
    else assignFallbackChooser room selection .chooserLeft random now
  | none => .ok room

/-! ### The fallback -/

/-- What the fallback does: it cancels the selection when nobody can be picked, and hands the
choice to one of the candidates otherwise. -/
inductive Fallback (room : Room) (selection : SongSelection) (reason : ChooserReason)
    (now : Instant) : Room → Prop
  | cancelled (h : fallbackCandidates room selection = []) :
      Fallback room selection reason now { room with songSelection := none }
  | assigned (chooserId : JsString) (h : chooserId ∈ fallbackCandidates room selection) :
      Fallback room selection reason now
        { room with songSelection := some (choosing selection chooserId reason now) }

variable {rt : Runtime} {room next : Room} {selection : SongSelection} {reason : ChooserReason}
  {random : RandomIndex} {now : Instant} {playerId challengeId : JsString}

/-- A candidate is a participant in the room. -/
theorem mem_of_mem_fallbackCandidates {id : JsString}
    (h : id ∈ fallbackCandidates room selection) :
    id ∈ selection.participantIds ∧ id ∈ room.playerIds := by
  simp only [fallbackCandidates] at h
  split_ifs at h
  · simp only [List.mem_filter, decide_eq_true_eq] at h
    exact h.1
  · simpa using h

/-- A candidate who misspelled the phrase is picked only when every participant in the room
misspelled it. -/
theorem failed_of_mem_fallbackCandidates {id other : JsString}
    (h : id ∈ fallbackCandidates room selection) (hid : id ∈ selection.failedIds)
    (hother : other ∈ selection.participantIds) (hpresent : other ∈ room.playerIds) :
    other ∈ selection.failedIds := by
  simp only [fallbackCandidates] at h
  split_ifs at h with hlength
  · simp [hid] at h
  · by_contra hnot
    refine hlength (List.length_pos_of_mem (a := other) ?_)
    simp [hother, hpresent, hnot]

theorem fallbackCandidates_eq_nil_iff : fallbackCandidates room selection = [] ↔
    ∀ id ∈ selection.participantIds, id ∉ room.playerIds := by
  simp only [fallbackCandidates]
  split_ifs with h
  · have hne := List.ne_nil_of_length_pos h
    refine iff_of_false hne fun hall => ?_
    obtain ⟨id, hid⟩ := List.exists_mem_of_ne_nil _ hne
    simp only [List.mem_filter, decide_eq_true_eq] at hid
    exact hall id hid.1.1 hid.1.2
  · simp [List.filter_eq_nil_iff]

theorem assignFallbackChooser_spec
    (h : assignFallbackChooser room selection reason random now = .ok next) :
    Fallback room selection reason now next := by
  simp only [assignFallbackChooser] at h
  split_ifs at h with hnil
  · obtain rfl := Except.ok.inj h
    exact .cancelled hnil
  · obtain ⟨chooserId, hchoose, hnext⟩ := bind_eq_ok.mp h
    obtain rfl := pure_eq_ok.mp hnext
    exact .assigned chooserId (RandomIndex.mem_of_choose hchoose)

/-- The fallback never throws: it draws from a list that is not empty. -/
theorem exists_assignFallbackChooser (room : Room) (selection : SongSelection)
    (reason : ChooserReason) (random : RandomIndex) (now : Instant) :
    ∃ next, assignFallbackChooser room selection reason random now = .ok next := by
  unfold assignFallbackChooser
  by_cases hnil : fallbackCandidates room selection = []
  · exact ⟨_, if_pos hnil⟩
  · obtain ⟨chooserId, hchoose⟩ := random.exists_choose hnil
    simp only [if_neg hnil, hchoose]
    exact ⟨_, rfl⟩

@[simp] theorem phase_choosing : (choosing selection playerId reason now).phase = .choosing := rfl

@[simp] theorem phase_misspelled : (misspelled selection playerId).phase = selection.phase := rfl

/-! ### What each operation does -/

theorem requireTyping_eq_ok :
    requireTyping room = .ok selection ↔
      room.songSelection = some selection ∧ selection.phase = .typing := by
  unfold requireTyping
  cases room.songSelection with
  | none => simp
  | some s => by_cases hs : s.phase = .typing <;> simp [hs] <;> grind

theorem start_eq_ok {options : StartChallengeOptions} (h : start rt room options = .ok next) :
    room.status = .waiting ∧ isSelectionInProgress room = false ∧
      MIN_DANCERS_PER_BATTLE ≤ room.dancerRoleIds.length ∧ (∀ p ∈ room.players, p.ready = true) ∧
      ∃ phrase ∈ options.phrases, next = challenged room options phrase := by
  simp only [start, bind_eq_ok, throwIf_eq_ok, requireEveryoneReady_eq_ok, pure_eq_ok, exists_const,
    not_le, not_not, not_lt, Bool.not_eq_true] at h
  obtain ⟨-, hstatus, hprogress, hdancers, hready, phrase, hchoose, hnext⟩ := h
  have hpool := RandomIndex.mem_of_choose hchoose
  refine ⟨hstatus, hprogress, hdancers, hready, phrase, ?_, hnext.symm⟩
  split_ifs at hpool
  · exact (List.mem_filter.mp hpool).1
  · exact hpool

/-- What a submission does: after the countdown it resolves the round, before that it wins the
choice or uses up the attempt of the player. -/
inductive Submitted (rt : Runtime) (room : Room) (playerId text : JsString) (now : Instant) :
    SubmitOutcome → Room → Prop
  | expired {next : Room} (selection : SongSelection)
      (hselection : room.songSelection = some selection) (hphase : selection.phase = .typing)
      (hparticipant : playerId ∈ selection.participantIds) (hpresent : playerId ∈ room.playerIds)
      (hlate : selection.challenge.expiresAt ≤ now)
      (h : Fallback room selection .timeout now next) :
      Submitted rt room playerId text now .expired next
  | accepted (selection : SongSelection)
      (hselection : room.songSelection = some selection) (hphase : selection.phase = .typing)
      (hparticipant : playerId ∈ selection.participantIds) (hpresent : playerId ∈ room.playerIds)
      (htime : ¬selection.challenge.expiresAt ≤ now) (hattempt : playerId ∉ selection.failedIds)
      (hmatch : normalizeAttempt rt text = selection.challenge.phrase) :
      Submitted rt room playerId text now .accepted
        { room with songSelection := some (choosing selection playerId .typed now) }
  | misspelled (selection : SongSelection)
      (hselection : room.songSelection = some selection) (hphase : selection.phase = .typing)
      (hparticipant : playerId ∈ selection.participantIds) (hpresent : playerId ∈ room.playerIds)
      (htime : ¬selection.challenge.expiresAt ≤ now) (hattempt : playerId ∉ selection.failedIds)
      (hmatch : normalizeAttempt rt text ≠ selection.challenge.phrase) (other : JsString)
      (hother : other ∈ selection.participantIds) (hseated : other ∈ room.playerIds)
      (hleft : other ∉ (misspelled selection playerId).failedIds) :
      Submitted rt room playerId text now .incorrect
        { room with songSelection := some (misspelled selection playerId) }
  | allMisspelled {next : Room} (selection : SongSelection)
      (hselection : room.songSelection = some selection) (hphase : selection.phase = .typing)
      (hparticipant : playerId ∈ selection.participantIds) (hpresent : playerId ∈ room.playerIds)
      (htime : ¬selection.challenge.expiresAt ≤ now) (hattempt : playerId ∉ selection.failedIds)
      (hmatch : normalizeAttempt rt text ≠ selection.challenge.phrase)
      (hall : ∀ id ∈ selection.participantIds, id ∈ room.playerIds →
        id ∈ (misspelled selection playerId).failedIds)
      (h : Fallback room (misspelled selection playerId) .allFailed now next) :
      Submitted rt room playerId text now .incorrect next

theorem submit_spec {text : JsString} {outcome : SubmitOutcome}
    (h : submit rt room playerId text now random = .ok (next, outcome)) :
    Submitted rt room playerId text now outcome next := by
  obtain ⟨selection, htyping, h⟩ := bind_eq_ok.mp h
  simp only [bind_eq_ok, throwIf_eq_ok, exists_const, not_not] at h
  obtain ⟨hparticipant, hpresent, h⟩ := h
  obtain ⟨hselection, hphase⟩ := requireTyping_eq_ok.mp htyping
  by_cases hlate : selection.challenge.expiresAt ≤ now
  · rw [if_pos hlate] at h
    obtain ⟨room', hfallback, hreply⟩ := bind_eq_ok.mp h
    obtain ⟨rfl, rfl⟩ := Prod.mk.inj (pure_eq_ok.mp hreply)
    exact .expired selection hselection hphase hparticipant hpresent hlate
      (assignFallbackChooser_spec hfallback)
  rw [if_neg hlate] at h
  simp only [bind_eq_ok, throwIf_eq_ok, exists_const] at h
  obtain ⟨hattempt, h⟩ := h
  by_cases hmatch : normalizeAttempt rt text = selection.challenge.phrase
  · rw [if_pos hmatch] at h
    obtain ⟨rfl, rfl⟩ := Prod.mk.inj (pure_eq_ok.mp h)
    exact .accepted selection hselection hphase hparticipant hpresent hlate hattempt hmatch
  rw [if_neg hmatch] at h
  split_ifs at h with hfailed
  · obtain ⟨room', hfallback, hreply⟩ := bind_eq_ok.mp h
    obtain ⟨rfl, rfl⟩ := Prod.mk.inj (pure_eq_ok.mp hreply)
    refine .allMisspelled selection hselection hphase hparticipant hpresent hlate hattempt hmatch ?_
      (assignFallbackChooser_spec hfallback)
    intro id hid hseated
    simp only [List.all_eq_true, List.mem_filter, decide_eq_true_eq] at hfailed
    exact hfailed id ⟨hid, hseated⟩
  · obtain ⟨rfl, rfl⟩ := Prod.mk.inj (pure_eq_ok.mp h)
    simp only [List.all_eq_true, List.mem_filter, decide_eq_true_eq, not_forall] at hfailed
    obtain ⟨other, ⟨hother, hseated⟩, hleft⟩ := hfailed
    exact .misspelled selection hselection hphase hparticipant hpresent hlate hattempt hmatch other
      hother hseated hleft

theorem expire_eq_some (h : expire room challengeId random now = .ok (some next)) :
    ∃ selection, room.songSelection = some selection ∧ selection.phase = .typing ∧
      selection.challenge.id = challengeId ∧ Fallback room selection .timeout now next := by
  unfold expire at h
  split at h
  next selection hselection =>
    split_ifs at h with hcond
    · simp at h
    · have hfallback := map_some_eq_ok h
      simp only [not_or, not_not] at hcond
      exact ⟨selection, hselection, hcond.1, hcond.2, assignFallbackChooser_spec hfallback⟩
  next => simp at h

/-- What a choice does. -/
inductive Chosen (room : Room) (playerId songId : JsString) : Room → Prop
  | mk (selection : SongSelection) (song : Song) (hselection : room.songSelection = some selection)
      (hphase : selection.phase = .choosing) (hchooser : selection.chooserId = some playerId)
      (hsong : song ∈ selection.songOptions) (hid : song.id = songId) :
      Chosen room playerId songId { room with
        songSelection := some { selection with phase := .done, chooseDeadline := none }
        selectedSong := some song }

theorem choose_spec {songId : JsString} (h : choose room playerId songId = .ok next) :
    Chosen room playerId songId next := by
  unfold choose at h
  split at h
  next selection hselection =>
    split_ifs at h with hphase hchooser
    split at h
    next song hfind =>
      obtain rfl := Except.ok.inj h
      exact .mk selection song hselection (not_not.mp hphase) (not_not.mp hchooser)
        (List.mem_of_find?_eq_some hfind) (by simpa using List.find?_some hfind)
    next => simp at h
  next => simp at h

theorem overdueChooser_eq_some {id : JsString} (h : overdueChooser selection now = some id) :
    selection.chooserId = some id ∧ id ≠ [] ∧ ∃ deadline,
      selection.chooseDeadline = some deadline ∧ ¬now < deadline := by
  unfold overdueChooser at h
  split at h
  next chooserId deadline hchooser hdeadline =>
    split_ifs at h with hcond
    obtain rfl := Option.some.inj h
    exact ⟨hchooser, (not_or.mp hcond).1, deadline, hdeadline, (not_or.mp hcond).2⟩
  next => simp at h

/-- What the end of the chooser's time does: without options the selection is cancelled, otherwise
a song is picked. -/
inductive AutoPicked (room : Room) (challengeId : JsString) (now : Instant) : Room → Prop
  | cancelled (selection : SongSelection) (deadline : Date)
      (hselection : room.songSelection = some selection) (hphase : selection.phase = .choosing)
      (hchallenge : selection.challenge.id = challengeId)
      (hdeadline : selection.chooseDeadline = some deadline) (htime : ¬now < deadline)
      (hnil : selection.songOptions = []) :
      AutoPicked room challengeId now { room with songSelection := none }
  | picked (selection : SongSelection) (deadline : Date) (song : Song)
      (hselection : room.songSelection = some selection) (hphase : selection.phase = .choosing)
      (hchallenge : selection.challenge.id = challengeId)
      (hdeadline : selection.chooseDeadline = some deadline) (htime : ¬now < deadline)
      (hsong : song ∈ selection.songOptions) :
      AutoPicked room challengeId now { room with
        songSelection := some { selection with
          phase := .done, chooseDeadline := none, autoPicked := true }
        selectedSong := some song }

theorem AutoPicked.overdue (h : AutoPicked room challengeId now next) :
    ∃ selection deadline, room.songSelection = some selection ∧ selection.phase = .choosing ∧
      selection.challenge.id = challengeId ∧ selection.chooseDeadline = some deadline ∧
        ¬now < deadline := by
  cases h with
  | cancelled s deadline hselection hphase hid hdeadline hover
  | picked s deadline song hselection hphase hid hdeadline hover =>
    exact ⟨s, deadline, hselection, hphase, hid, hdeadline, hover⟩

theorem autoPick_spec (h : autoPick room challengeId now random = .ok (some next)) :
    AutoPicked room challengeId now next := by
  unfold autoPick at h
  split at h
  next selection hselection =>
    by_cases hcond : selection.phase ≠ .choosing ∨ selection.challenge.id ≠ challengeId
    · simp [hcond] at h
    rw [if_neg hcond] at h
    simp only [not_or, not_not] at hcond
    split at h
    next => simp at h
    next chooserId hoverdue =>
      obtain ⟨hchooser, -, deadline, hdeadline, htime⟩ := overdueChooser_eq_some hoverdue
      split_ifs at h with hnil
      · obtain rfl := Option.some.inj (Except.ok.inj h)
        exact .cancelled selection deadline hselection hcond.1 hcond.2 hdeadline htime hnil
      · simp only [bind_eq_ok, pure_eq_ok] at h
        obtain ⟨drawn, hdraw, chosen, hchosen, hnext⟩ := h
        obtain ⟨selection', song, hselection', hphase, hchooser', hsong, hid⟩ := choose_spec hchosen
        obtain rfl : selection = selection' := Option.some.inj (hselection.symm.trans hselection')
        obtain rfl := Option.some.inj hnext
        exact .picked selection deadline song hselection hphase hcond.2 hdeadline htime hsong
  next => simp at h

/-- A pick is made for a chooser with a name; it keeps the selection when there are songs. -/
theorem chooser_of_autoPick (h : autoPick room challengeId now random = .ok (some next))
    (hselection : room.songSelection = some selection) :
    (∃ id ∈ selection.chooserId, id ≠ []) ∧
      (next.songSelection = none → selection.songOptions = []) := by
  simp only [autoPick, hselection] at h
  by_cases hcond : selection.phase ≠ .choosing ∨ selection.challenge.id ≠ challengeId
  · simp [hcond] at h
  rw [if_neg hcond] at h
  split at h
  next => simp at h
  next chooserId hoverdue =>
    obtain ⟨hchooser, hid, -⟩ := overdueChooser_eq_some hoverdue
    refine ⟨⟨chooserId, hchooser, hid⟩, fun hnone => ?_⟩
    split_ifs at h with hnil
    · exact hnil
    · simp only [bind_eq_ok, pure_eq_ok] at h
      obtain ⟨drawn, hdraw, chosen, hchosen, hnext⟩ := h
      obtain ⟨selection', song, -⟩ := choose_spec hchosen
      obtain rfl := Option.some.inj hnext
      simp at hnone

/-- What a departure does to the selection: it passes the choice on when the chooser left. -/
inductive Passed (room : Room) (playerId : JsString) (now : Instant) : Room → Prop
  | kept (h : ∀ selection, room.songSelection = some selection → selection.phase = .choosing →
      selection.chooserId ≠ some playerId) : Passed room playerId now room
  | passed {next : Room} (selection : SongSelection)
      (hselection : room.songSelection = some selection) (hphase : selection.phase = .choosing)
      (hchooser : selection.chooserId = some playerId)
      (h : Fallback room selection .chooserLeft now next) : Passed room playerId now next

/-- The fallback touches nothing but the selection. -/
theorem Fallback.exists_eq (h : Fallback room selection reason now next) :
    ∃ songSelection, next = { room with songSelection } := by
  cases h with
  | cancelled => exact ⟨none, rfl⟩
  | assigned chooserId => exact ⟨_, rfl⟩

theorem Passed.exists_eq (h : Passed room playerId now next) :
    ∃ songSelection, next = { room with songSelection } := by
  cases h with
  | kept => exact ⟨room.songSelection, rfl⟩
  | passed _ _ _ _ hfallback => exact hfallback.exists_eq

theorem handlePlayerLeft_spec (h : handlePlayerLeft room playerId random now = .ok next) :
    Passed room playerId now next := by
  unfold handlePlayerLeft at h
  split at h
  next selection hselection =>
    split_ifs at h with hcond
    · obtain rfl := Except.ok.inj h
      refine .kept fun s hs hphase => ?_
      obtain rfl : selection = s := Option.some.inj (hselection.symm.trans hs)
      exact hcond.resolve_left (not_not.mpr hphase)
    · simp only [not_or, not_not] at hcond
      exact .passed selection hselection hcond.1 hcond.2 (assignFallbackChooser_spec h)
  next hselection =>
    obtain rfl := Except.ok.inj h
    exact .kept fun s hs => absurd (hselection.symm.trans hs) (by simp)

/-- Passing the choice on never throws. -/
theorem exists_handlePlayerLeft (room : Room) (playerId : JsString) (random : RandomIndex)
    (now : Instant) : ∃ next, handlePlayerLeft room playerId random now = .ok next := by
  unfold handlePlayerLeft
  split
  next selection hselection =>
    split_ifs
    · exact ⟨room, rfl⟩
    · exact exists_assignFallbackChooser room selection .chooserLeft random now
  next => exact ⟨room, rfl⟩

end SongSelectionService

end DanceSync
