import DanceSync.Domain.MatchRecord
import DanceSync.Sorting.Bag

/-!
# Recording a match in the history service

The Java side of the match history in `users-service`: the request of `PUT /api/matches/{id}`
(`RecordMatchRequest.java`) with its declared constraints, and the domain objects it becomes
(`Match.java`, `MatchParticipant.java` and their enumerations). A field of a request is `none` when
the JSON has `null` for it. A constraint other than `@NotNull` and `@NotBlank` holds of `null`.

## Main definitions

* `Participant`, `RecordMatchRequest`, `RecordMatchRequest.isValid`: the request and its
  constraints.
* `RecordMatchRequest.ofJson`: the request bound from a match record.
* `RecordMatchRequest.toDomain`: the match that is stored.
* `accepts`: the `PUT` is not refused.

## Main results

* `accepts_iff`: the records that are accepted.
-/

namespace DanceSync.UsersService

/-! ### Constraints -/

/-- `Character.isWhitespace`: spaces that break, line and paragraph separators, and the controls
from tab to carriage return and from file to unit separator. -/
def isWhitespace (u : UInt16) : Bool :=
  (9 ≤ u && u ≤ 13) || (0x1C ≤ u && u ≤ 0x20) || u = 0x1680 ||
    (0x2000 ≤ u && u ≤ 0x200A && u ≠ 0x2007) || u = 0x2028 || u = 0x2029 || u = 0x205F || u = 0x3000

/-- A string made only of whitespace. -/
def isBlank (s : JsString) : Bool := s.all isWhitespace

/-- `@NotBlank`. -/
def notBlank (s : Option JsString) : Bool := s.any fun s => !isBlank s

/-- `@Size(max = max)`; a string is measured in UTF-16 code units. -/
def sizeAtMost {α : Type} (max : ℕ) (s : Option (List α)) : Bool := s.all (·.length ≤ max)

/-- `@NotNull @Pattern` of a list of words. -/
def oneOf (words : List JsString) (s : Option JsString) : Bool := s.any (· ∈ words)

/-- `@PositiveOrZero`, `@Min`. -/
def atLeast (bound : ℤ) (n : Option ℤ) : Bool := n.all (bound ≤ ·)

/-! ### The request -/

/-- `RecordMatchRequest.Participant`. -/
structure Participant where
  playerId : Option JsString
  displayName : Option JsString
  role : Option JsString
  votes : Option ℤ
  wordsWon : Option ℤ
  score : Option ℤ
  rank : Option ℤ
  leftEarly : Option Bool
  deriving DecidableEq

structure RecordMatchRequest where
  roomCode : Option JsString
  songId : Option JsString
  songTitle : Option JsString
  startedAt : Option Instant
  finishedAt : Option Instant
  winnerPlayerId : Option JsString
  endReason : Option JsString
  participants : Option (List (Option Participant))
  deriving DecidableEq

/-- The declared constraints of a participant. -/
def Participant.isValid (p : Participant) : Bool :=
  notBlank p.playerId && sizeAtMost 64 p.playerId &&
  notBlank p.displayName && sizeAtMost 64 p.displayName &&
  oneOf [js "dancer", js "spectator"] p.role &&
  atLeast 0 p.votes && atLeast 0 p.wordsWon && atLeast 0 p.score && atLeast 1 p.rank

/-- `isEachPlayerListedOnce`. -/
def RecordMatchRequest.isEachPlayerListedOnce (request : RecordMatchRequest) : Bool :=
  request.participants.all fun participants =>
    ((participants.filterMap id).filterMap Participant.playerId).Nodup

/-- The declared constraints of a request. -/
def RecordMatchRequest.isValid (request : RecordMatchRequest) : Bool :=
  notBlank request.roomCode && sizeAtMost 16 request.roomCode &&
  sizeAtMost 64 request.songId && sizeAtMost 200 request.songTitle &&
  request.startedAt.isSome && request.finishedAt.isSome &&
  sizeAtMost 64 request.winnerPlayerId &&
  oneOf [js "song-end", js "not-enough-dancers"] request.endReason &&
  request.participants.isSome && sizeAtMost 64 request.participants &&
  request.participants.all (fun participants => participants.all fun p =>
    p.any Participant.isValid) &&
  request.isEachPlayerListedOnce

/-! ### Binding the JSON of a record -/

/-- Largest value of an `Integer`. -/
def INTEGER_MAX_VALUE : ℤ := 2147483647

/-- A JSON number read as a whole one: the fraction is dropped. -/
def wholeOf (value : ℚ) : ℤ := value.num.tdiv value.den

/-- A JSON number bound to an `Integer`; one out of range is refused. -/
def bindInteger : Option ℚ → Option (Option ℤ)
  | none => some none
  | some value =>
    if -INTEGER_MAX_VALUE - 1 ≤ wholeOf value ∧ wholeOf value ≤ INTEGER_MAX_VALUE
    then some (some (wholeOf value)) else none

/-- The role as the record writes it. -/
def roleText : ParticipantRole → JsString
  | .dancer => js "dancer"
  | .spectator => js "spectator"

/-- The end reason as the record writes it. -/
def endReasonText : BattleEndReason → JsString
  | .songEnd => js "song-end"
  | .notEnoughDancers => js "not-enough-dancers"

/-- The participant bound from its JSON. -/
def Participant.ofJson (p : MatchParticipantRecord) : Option Participant := do
  let votes ← bindInteger (p.votes.map (↑))
  let wordsWon ← bindInteger (p.wordsWon.map (↑))
  let score ← bindInteger p.score
  let rank ← bindInteger (p.rank.map (↑))
  return {
    playerId := some p.playerId
    displayName := some p.displayName
    role := some (roleText p.role)
    votes, wordsWon, score, rank
    leftEarly := some p.leftEarly }

/-- The request of a record with these participants; the id of the record is no field of it. The
JSON of an `Invalid Date` is `null`. -/
def RecordMatchRequest.withParticipants (record : MatchRecord) (participants : List Participant) :
    RecordMatchRequest where
  roomCode := some record.roomCode
  songId := record.songId
  songTitle := record.songTitle
  startedAt := record.startedAt.getTime?
  finishedAt := record.finishedAt.getTime?
  winnerPlayerId := record.winnerPlayerId
  endReason := some (endReasonText record.endReason)
  participants := some (participants.map some)

/-- The request bound from the JSON of a record. -/
def RecordMatchRequest.ofJson (record : MatchRecord) : Option RecordMatchRequest :=
  (record.participants.mapM Participant.ofJson).map (.withParticipants record)

/-! ### The domain -/

/-- What a constructor may throw. -/
inductive JavaException where
  | nullPointer (message : JsString)
  /-- A call on `null`. -/
  | nullCall
  | illegalArgument (message : JsString)
  deriving DecidableEq

/-- `Objects.requireNonNull`. -/
def requireNonNull {α : Type} (value : Option α) (message : JsString) : Except JavaException α :=
  match value with
  | some a => .ok a
  | none => .error (.nullPointer message)

/-- `DANCER` comes before `SPECTATOR`. -/
def ordinal : ParticipantRole → ℕ
  | .dancer => 0
  | .spectator => 1

def roleOfWireValue (value : Option JsString) : Except JavaException ParticipantRole :=
  match [ParticipantRole.dancer, .spectator].find? fun role => some (roleText role) = value with
  | some role => .ok role
  | none => .error (.illegalArgument (js "Unknown participant role '" ++
      value.getD (js "null") ++ js "'"))

def endReasonOfWireValue (value : Option JsString) : Except JavaException BattleEndReason :=
  match [BattleEndReason.songEnd, .notEnoughDancers].find?
      fun reason => some (endReasonText reason) = value with
  | some reason => .ok reason
  | none => .error (.illegalArgument (js "Unknown match end reason '" ++
      value.getD (js "null") ++ js "'"))

structure MatchParticipant where
  playerId : JsString
  displayName : JsString
  role : ParticipantRole
  votes : Option ℤ
  wordsWon : Option ℤ
  score : Option ℤ
  rank : Option ℤ
  leftEarly : Bool
  deriving DecidableEq

structure Match where
  id : JsString
  roomCode : JsString
  songId : Option JsString
  songTitle : Option JsString
  startedAt : Instant
  finishedAt : Instant
  winnerPlayerId : Option JsString
  endReason : BattleEndReason
  participants : List MatchParticipant
  deriving DecidableEq

/-- `Participant.toDomain`. -/
def Participant.toDomain (p : Participant) : Except JavaException MatchParticipant := do
  let role ← roleOfWireValue p.role
  let playerId ← requireNonNull p.playerId (js "playerId must not be null")
  let displayName ← requireNonNull p.displayName (js "displayName must not be null")
  return {
    playerId, displayName, role
    votes := p.votes
    wordsWon := p.wordsWon
    score := p.score
    rank := p.rank
    leftEarly := p.leftEarly = some true }

namespace Match

/-- `Comparator.nullsLast(Comparator.naturalOrder())`. -/
def compareNullsLast : Option ℤ → Option ℤ → Ordering
  | some a, some b => compare a b
  | some _, none => .lt
  | none, some _ => .gt
  | none, none => .eq

def dancerRank (p : MatchParticipant) : Option ℤ :=
  if p.role = .dancer then p.rank else none

/-- `MatchParticipant.RESULTS_ORDER`. -/
def resultsOrder (a b : MatchParticipant) : Ordering :=
  (compare (ordinal a.role) (ordinal b.role)).then
    ((compareNullsLast (dancerRank a) (dancerRank b)).then
      ((compare a.displayName b.displayName).then (compare a.playerId b.playerId)))

/-- `String.trim`, which removes every character up to the space. -/
def trim (s : JsString) : JsString := (s.dropWhile (· ≤ 0x20)).rdropWhile (· ≤ 0x20)

/-- Room codes are case-insensitive; the canonical form is trimmed upper case. -/
def normalizeRoomCode (rt : Runtime) (roomCode : JsString) : JsString :=
  rt.toUpperCase (trim roomCode)

def requireUniquePlayers : (seen : List JsString) → List MatchParticipant →
    Except JavaException Unit
  | _, [] => .ok ()
  | seen, p :: participants => do
    throwIf (p.playerId ∈ seen) (.illegalArgument
      (js "Player '" ++ p.playerId ++ js "' appears more than once in the match"))
    requireUniquePlayers (p.playerId :: seen) participants

end Match

/-- `new Match(id, …)` of a request. -/
def RecordMatchRequest.toDomain (rt : Runtime) (request : RecordMatchRequest) (id : JsString) :
    Except JavaException Match := do
  let endReason ← endReasonOfWireValue request.endReason
  let participants ← match request.participants with
    | some participants => participants.mapM fun p => match p with
      | some p => p.toDomain
      | none => .error .nullCall
    | none => .error .nullCall
  let roomCode ← requireNonNull request.roomCode (js "roomCode must not be null")
  let startedAt ← requireNonNull request.startedAt (js "startedAt must not be null")
  let finishedAt ← requireNonNull request.finishedAt (js "finishedAt must not be null")
  let participants := participants.insertionSort fun a b => Match.resultsOrder a b ≠ .gt
  Match.requireUniquePlayers [] participants
  return {
    id
    roomCode := Match.normalizeRoomCode rt roomCode
    songId := request.songId
    songTitle := request.songTitle
    startedAt, finishedAt
    winnerPlayerId := request.winnerPlayerId
    endReason, participants }

/-- The `PUT` of a record is not refused: it binds, its constraints hold and it becomes a match. -/
def accepts (rt : Runtime) (id : JsString) (record : MatchRecord) : Bool :=
  match RecordMatchRequest.ofJson record with
  | none => false
  | some request => request.isValid && (request.toDomain rt id).isOk

/-! ### What is accepted -/

/-- A statistic that an `Integer` holds and that is not below a bound. -/
def Fits (low : ℤ) (value : Option ℚ) : Prop :=
  ∀ v ∈ value, low ≤ wholeOf v ∧ wholeOf v ≤ INTEGER_MAX_VALUE

/-- A participant that binds and whose constraints hold. -/
structure ParticipantFits (p : MatchParticipantRecord) : Prop where
  playerId : isBlank p.playerId = false ∧ p.playerId.length ≤ 64
  displayName : isBlank p.displayName = false ∧ p.displayName.length ≤ 64
  votes : Fits 0 (p.votes.map (↑))
  wordsWon : Fits 0 (p.wordsWon.map (↑))
  score : Fits 0 p.score
  rank : Fits 1 (p.rank.map (↑))

/-- A record that binds and whose constraints hold. -/
structure RecordFits (record : MatchRecord) : Prop where
  roomCode : isBlank record.roomCode = false ∧ record.roomCode.length ≤ 16
  songId : ∀ s ∈ record.songId, s.length ≤ 64
  songTitle : ∀ s ∈ record.songTitle, s.length ≤ 200
  startedAt : record.startedAt.Valid
  finishedAt : record.finishedAt.Valid
  winnerPlayerId : ∀ s ∈ record.winnerPlayerId, s.length ≤ 64
  length : record.participants.length ≤ 64
  participants : ∀ p ∈ record.participants, ParticipantFits p
  nodup : (record.participants.map (·.playerId)).Nodup

/-- The participant whose numbers were all bound. -/
def Participant.bound (p : MatchParticipantRecord) : Participant where
  playerId := some p.playerId
  displayName := some p.displayName
  role := some (roleText p.role)
  votes := (p.votes.map ((↑) : ℕ → ℚ)).map wholeOf
  wordsWon := (p.wordsWon.map ((↑) : ℕ → ℚ)).map wholeOf
  score := p.score.map wholeOf
  rank := (p.rank.map ((↑) : ℕ → ℚ)).map wholeOf
  leftEarly := some p.leftEarly

section Accepts

variable {rt : Runtime} {id : JsString} {record : MatchRecord} {p : MatchParticipantRecord}

theorem bindInteger_eq_some {value : Option ℚ} {n : Option ℤ} (h : bindInteger value = some n) :
    n = value.map wholeOf ∧ ∀ v ∈ value, wholeOf v ≤ INTEGER_MAX_VALUE := by
  cases value with
  | none => simpa [bindInteger, eq_comm] using h
  | some v =>
    simp only [bindInteger, Option.ite_none_right_eq_some, Option.some.injEq] at h
    obtain ⟨⟨-, hle⟩, rfl⟩ := h
    refine ⟨rfl, ?_⟩
    rintro _ ⟨⟩
    exact hle

theorem Fits.bindInteger {low : ℤ} {value : Option ℚ} (h : Fits low value) (hlow : 0 ≤ low) :
    bindInteger value = some (value.map wholeOf) := by
  cases value with
  | none => rfl
  | some v =>
    obtain ⟨hge, hle⟩ := h v rfl
    refine if_pos ⟨?_, hle⟩
    rw [INTEGER_MAX_VALUE]
    omega

theorem Fits.atLeast {low : ℤ} {value : Option ℚ} (h : Fits low value) :
    atLeast low (value.map wholeOf) = true := by
  cases value with
  | none => rfl
  | some v => simpa [UsersService.atLeast] using (h v rfl).1

theorem fits_of_atLeast {low : ℤ} {value : Option ℚ}
    (hlow : atLeast low (value.map wholeOf) = true)
    (hmax : ∀ v ∈ value, wholeOf v ≤ INTEGER_MAX_VALUE) : Fits low value := by
  rintro v ⟨⟩
  exact ⟨by simpa [atLeast] using hlow, hmax v rfl⟩

theorem ParticipantFits.ofJson (h : ParticipantFits p) :
    Participant.ofJson p = some (Participant.bound p) := by
  rw [Participant.ofJson, h.votes.bindInteger le_rfl, h.wordsWon.bindInteger le_rfl,
    h.score.bindInteger le_rfl, h.rank.bindInteger zero_le_one]
  rfl

theorem ParticipantFits.isValid (h : ParticipantFits p) : (Participant.bound p).isValid = true := by
  have hrole : oneOf [js "dancer", js "spectator"] (some (roleText p.role)) = true := by
    cases p.role <;> simp [oneOf, roleText]
  have hid := h.playerId
  have hname := h.displayName
  simp only [Participant.isValid, Participant.bound, hrole, h.votes.atLeast, h.wordsWon.atLeast,
    h.score.atLeast, h.rank.atLeast]
  simp [notBlank, sizeAtMost, hid, hname]

/-- A participant that is bound and valid. -/
theorem participantFits_of_isValid {q : Participant} (hbind : Participant.ofJson p = some q)
    (hvalid : q.isValid = true) : ParticipantFits p ∧ q.playerId = some p.playerId := by
  simp only [Participant.ofJson, Option.bind_eq_bind, Option.bind_eq_some_iff, Option.pure_def,
    Option.some.injEq] at hbind
  obtain ⟨votes, hvotes, wordsWon, hwords, score, hscore, rank, hrank, rfl⟩ := hbind
  obtain ⟨rfl, hvotesMax⟩ := bindInteger_eq_some hvotes
  obtain ⟨rfl, hwordsMax⟩ := bindInteger_eq_some hwords
  obtain ⟨rfl, hscoreMax⟩ := bindInteger_eq_some hscore
  obtain ⟨rfl, hrankMax⟩ := bindInteger_eq_some hrank
  simp only [Participant.isValid, notBlank, sizeAtMost, Bool.and_eq_true, Option.any_some,
    Option.all_some, Bool.not_eq_true', decide_eq_true_eq] at hvalid
  obtain ⟨⟨⟨⟨⟨⟨⟨⟨hid, hidSize⟩, hname⟩, hnameSize⟩, -⟩, hvotes⟩, hwords⟩, hscore⟩, hrank⟩ := hvalid
  exact ⟨⟨⟨hid, hidSize⟩, ⟨hname, hnameSize⟩, fits_of_atLeast hvotes hvotesMax,
    fits_of_atLeast hwords hwordsMax, fits_of_atLeast hscore hscoreMax,
    fits_of_atLeast hrank hrankMax⟩, rfl⟩

/-- Participants that are all bound. -/
theorem mapM_ofJson_of_fits {participants : List MatchParticipantRecord}
    (h : ∀ p ∈ participants, ParticipantFits p) :
    participants.mapM Participant.ofJson = some (participants.map Participant.bound) := by
  induction participants with
  | nil => rfl
  | cons p participants ih =>
    rw [List.forall_mem_cons] at h
    rw [List.mapM_cons, h.1.ofJson, ih h.2]
    rfl

/-- Participants that are bound and valid. -/
theorem participantsFit_of_isValid {participants : List MatchParticipantRecord}
    {bound : List Participant} (hbind : participants.mapM Participant.ofJson = some bound)
    (hvalid : ∀ q ∈ bound, q.isValid = true) :
    (∀ p ∈ participants, ParticipantFits p) ∧
      bound.map (·.playerId) = participants.map fun p => some p.playerId := by
  induction participants generalizing bound with
  | nil =>
    obtain rfl := Option.some.inj hbind
    simp
  | cons p participants ih =>
    simp only [List.mapM_cons, Option.bind_eq_bind, Option.bind_eq_some_iff, Option.pure_def,
      Option.some.injEq] at hbind
    obtain ⟨q, hq, rest, hrest, rfl⟩ := hbind
    rw [List.forall_mem_cons] at hvalid
    obtain ⟨hfits, hid⟩ := participantFits_of_isValid hq hvalid.1
    obtain ⟨hall, hids⟩ := ih hrest hvalid.2
    exact ⟨List.forall_mem_cons.mpr ⟨hfits, hall⟩, by rw [List.map_cons, List.map_cons, hid, hids]⟩

/-! ### The match of an accepted record -/

/-- The domain participant of a record. -/
def domainParticipant (p : MatchParticipantRecord) : MatchParticipant where
  playerId := p.playerId
  displayName := p.displayName
  role := p.role
  votes := (Participant.bound p).votes
  wordsWon := (Participant.bound p).wordsWon
  score := (Participant.bound p).score
  rank := (Participant.bound p).rank
  leftEarly := p.leftEarly

theorem roleOfWireValue_roleText (role : ParticipantRole) :
    roleOfWireValue (some (roleText role)) = .ok role := by
  cases role <;> decide +kernel

theorem endReasonOfWireValue_endReasonText (reason : BattleEndReason) :
    endReasonOfWireValue (some (endReasonText reason)) = .ok reason := by
  cases reason <;> decide +kernel

theorem toDomain_bound (p : MatchParticipantRecord) :
    (Participant.bound p).toDomain = .ok (domainParticipant p) := by
  have hrole : roleOfWireValue (Participant.bound p).role = .ok p.role :=
    roleOfWireValue_roleText p.role
  rw [Participant.toDomain, hrole]
  simp [bind, Except.bind, pure, Except.pure, requireNonNull, Participant.bound, domainParticipant]

/-- The uniqueness check passes when no id was seen and none repeats. -/
theorem requireUniquePlayers_of_nodup (seen : List JsString) {participants : List MatchParticipant}
    (hnodup : (participants.map (·.playerId)).Nodup)
    (hseen : ∀ p ∈ participants, p.playerId ∉ seen) :
    Match.requireUniquePlayers seen participants = .ok () := by
  induction participants generalizing seen with
  | nil => rfl
  | cons p participants ih =>
    obtain ⟨hp, hnodup⟩ := List.nodup_cons.mp hnodup
    rw [List.forall_mem_cons] at hseen
    refine bind_eq_ok.mpr ⟨(), throwIf_eq_ok.mpr hseen.1, ih _ hnodup fun q hq => ?_⟩
    rw [List.mem_cons, not_or]
    exact ⟨fun heq => hp (List.mem_map.mpr ⟨q, hq, heq⟩), hseen.2 q hq⟩

theorem mapM_toDomain_bound (participants : List MatchParticipantRecord) :
    ((participants.map Participant.bound).map some).mapM (fun p => match p with
      | some p => p.toDomain
      | none => .error .nullCall) = .ok (participants.map domainParticipant) := by
  rw [Bag.mapM_eq_ok_iff, List.map_map, List.forall₂_map_left_iff, List.forall₂_map_right_iff]
  exact List.forall₂_same.mpr fun p _ => toDomain_bound p

theorem isValid_withParticipants {participants : List Participant} :
    (RecordMatchRequest.withParticipants record participants).isValid = true ↔
      (isBlank record.roomCode = false ∧ record.roomCode.length ≤ 16) ∧
      (∀ s ∈ record.songId, s.length ≤ 64) ∧ (∀ s ∈ record.songTitle, s.length ≤ 200) ∧
      (record.startedAt.Valid ∧ record.finishedAt.Valid) ∧
      (∀ s ∈ record.winnerPlayerId, s.length ≤ 64) ∧ participants.length ≤ 64 ∧
      (∀ p ∈ participants, p.isValid = true) ∧
      (participants.filterMap (·.playerId)).Nodup := by
  have hreason : oneOf [js "song-end", js "not-enough-dancers"]
      (some (endReasonText record.endReason)) = true := by
    cases record.endReason <;> simp [oneOf, endReasonText]
  have hparticipants : (participants.map some).filterMap id = participants := by
    simp [List.filterMap_map]
  simp only [Date.Valid, RecordMatchRequest.isValid, RecordMatchRequest.withParticipants,
    RecordMatchRequest.isEachPlayerListedOnce, hreason, notBlank, sizeAtMost, hparticipants,
    Option.any_some, Option.all_some, Option.isSome_some, Bool.and_true,
    Bool.and_eq_true, Bool.not_eq_true', decide_eq_true_eq, List.length_map, Option.all_eq_true,
    List.all_map, List.all_eq_true, Function.comp_apply]
  tauto

/-- A record of valid dates and participants that fit becomes a match. -/
theorem toDomain_withParticipants (hstarted : record.startedAt.Valid)
    (hfinished : record.finishedAt.Valid) (hnodup : (record.participants.map (·.playerId)).Nodup) :
    ((RecordMatchRequest.withParticipants record
      (record.participants.map Participant.bound)).toDomain rt id).isOk = true := by
  obtain ⟨started, hstarted⟩ := Date.exists_of_valid hstarted
  obtain ⟨finished, hfinished⟩ := Date.exists_of_valid hfinished
  have hsorted := ((record.participants.map domainParticipant).perm_insertionSort
    fun a b => Match.resultsOrder a b ≠ .gt).map (·.playerId)
  have hunique := requireUniquePlayers_of_nodup [] (hsorted.nodup_iff.mpr (by
    rw [List.map_map]
    exact hnodup)) (by simp)
  simp only [RecordMatchRequest.toDomain, RecordMatchRequest.withParticipants, hstarted, hfinished,
    Date.getTime?, endReasonOfWireValue_endReasonText, mapM_toDomain_bound, requireNonNull, bind,
    Except.bind, hunique]
  rfl

/-- Exactly the records that bind and whose constraints hold are accepted: the constructors of the
domain throw for none of them. -/
theorem accepts_iff : accepts rt id record = true ↔ RecordFits record := by
  constructor
  · intro h
    unfold accepts at h
    split at h
    next => simp at h
    next request hbind =>
      obtain ⟨bound, hbound, rfl⟩ := Option.map_eq_some_iff.mp hbind
      obtain ⟨hcode, hsong, htitle, ⟨hstarted, hfinished⟩, hwinner, hlength, hvalid, honce⟩ :=
        isValid_withParticipants.mp (Bool.and_eq_true_iff.mp h).1
      obtain ⟨hfits, hids⟩ := participantsFit_of_isValid hbound hvalid
      refine ⟨hcode, hsong, htitle, hstarted, hfinished, hwinner, ?_, hfits, ?_⟩
      · rwa [← List.length_map (·.playerId), hids, List.length_map] at hlength
      · have hfilter : bound.filterMap (·.playerId) = record.participants.map (·.playerId) := by
          have hall :
              bound.filterMap (·.playerId) = (bound.map (·.playerId)).filterMap fun x => x := by
            simp [List.filterMap_map]
          rw [hall, hids]
          simp [List.filterMap_map]
        rwa [hfilter] at honce
  · intro h
    have hbind : RecordMatchRequest.ofJson record = some (.withParticipants record
        (record.participants.map Participant.bound)) := by
      rw [RecordMatchRequest.ofJson, mapM_ofJson_of_fits h.participants]
      rfl
    rw [accepts, hbind]
    refine Bool.and_eq_true_iff.mpr ⟨?_, toDomain_withParticipants h.startedAt h.finishedAt h.nodup⟩
    refine isValid_withParticipants.mpr ⟨h.roomCode, h.songId, h.songTitle,
      ⟨h.startedAt, h.finishedAt⟩, h.winnerPlayerId,
      by simpa using h.length, ?_, ?_⟩
    · rw [List.forall_mem_map]
      exact fun p hp => (h.participants p hp).isValid
    · rw [List.filterMap_map]
      have hids : (Participant.playerId ∘ Participant.bound) =
          some ∘ MatchParticipantRecord.playerId := rfl
      rw [hids, ← List.filterMap_map]
      simpa using h.nodup

end Accepts

end DanceSync.UsersService
