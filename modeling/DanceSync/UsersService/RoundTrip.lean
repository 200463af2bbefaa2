import DanceSync.Model.Ascii
import DanceSync.Text.CodePoints
import DanceSync.UsersService.MatchStore

/-!
# The round trip of a match

A match from its request to its answer (`MatchResponse.java`). The constructor of a match puts the
room code and the participants into one form, so that a match does not depend on the order in which
its participants were sent or are read.

## Main definitions

* `MatchResponse`, `MatchResponse.fromMatch`: the answer.
* `Match.Built`, `Match.Canonical`: what the constructor makes of a match.
* `Match.rebuilt`: a match built from the fields of a match.
* `MatchEntity.ReadBack`: what the database returns for a stored entity.
* `RecordMatchRequest.Values`: what the fields of a request are read as.
* `MatchResponse.Carries`: an answer with every field of a request.

## Main results

* `Match.Built.canonical`, `Match.Canonical.new_eq_ok`: a match of that form is built again from
  its fields, in any order of the participants.
* `RecordMatchRequest.exists_values`, `RecordMatchRequest.Values.toDomain_eq_ok`: the match of a
  valid request.
* `stored_and_returned_unchanged`.
-/

namespace DanceSync.UsersService

open Utf16

/-! ### The answer -/

/-- `MatchResponse.Participant`. -/
structure MatchResponse.Participant where
  playerId : JsString
  displayName : JsString
  role : JsString
  votes : Option ℤ
  wordsWon : Option ℤ
  score : Option ℤ
  rank : Option ℤ
  leftEarly : Bool
  deriving DecidableEq

structure MatchResponse where
  id : JsString
  roomCode : JsString
  songId : Option JsString
  songTitle : Option JsString
  startedAt : Instant
  finishedAt : Instant
  winnerPlayerId : Option JsString
  endReason : JsString
  participants : List MatchResponse.Participant
  deriving DecidableEq

namespace MatchResponse

def Participant.fromParticipant (participant : MatchParticipant) : MatchResponse.Participant where
  playerId := participant.playerId
  displayName := participant.displayName
  role := roleText participant.role
  votes := participant.votes
  wordsWon := participant.wordsWon
  score := participant.score
  rank := participant.rank
  leftEarly := participant.leftEarly

def fromMatch (m : Match) : MatchResponse where
  id := m.id
  roomCode := m.roomCode
  songId := m.songId
  songTitle := m.songTitle
  startedAt := m.startedAt
  finishedAt := m.finishedAt
  winnerPlayerId := m.winnerPlayerId
  endReason := endReasonText m.endReason
  participants := m.participants.map .fromParticipant

end MatchResponse

/-! ### The results order -/

namespace Match

instance : Std.TransCmp compareNullsLast where
  eq_swap {a b} := by
    match a, b with
    | some a, some b => exact Std.OrientedOrd.eq_swap
    | some _, none | none, some _ | none, none => rfl
  isLE_trans {a b c} hab hbc := by
    match a, b, c with
    | some a, some b, some c => exact Std.TransOrd.isLE_trans hab hbc
    | some _, _, none | none, none, none => rfl
    | none, some _, _ => exact absurd hab Bool.false_ne_true
    | _, none, some _ => exact absurd hbc Bool.false_ne_true

theorem resultsOrder_eq_compareLex : resultsOrder =
    compareLex (compareOn fun p => ordinal p.role)
      (compareLex (fun a b => compareNullsLast (dancerRank a) (dancerRank b))
        (compareLex (compareOn (·.displayName)) (compareOn (·.playerId)))) := rfl

instance : Std.TransCmp resultsOrder := by
  have hrank := Bag.transCmp_comap compareNullsLast dancerRank
  rw [resultsOrder_eq_compareLex]
  infer_instance

/-- Only the same player is level. -/
theorem playerId_eq_of_resultsOrder {a b : MatchParticipant} (h : resultsOrder a b = .eq) :
    a.playerId = b.playerId := by
  rw [resultsOrder_eq_compareLex] at h
  simp only [compareLex_eq_eq] at h
  exact Std.LawfulEqCmp.eq_of_compare h.2.2.2

/-- Different players are put into one order. -/
theorem insertionSort_resultsOrder {l l' : List MatchParticipant}
    (hnodup : (l.map (·.playerId)).Nodup) (hperm : l'.Perm l) :
    l'.insertionSort (fun a b => resultsOrder a b ≠ .gt) =
      l.insertionSort fun a b => resultsOrder a b ≠ .gt :=
  Bag.insertionSort_eq_of_perm (fun _ ha _ hb h =>
    List.inj_on_of_nodup_map hnodup ha hb (playerId_eq_of_resultsOrder h)) hperm

/-! ### A match from its own fields -/

variable {rt : Runtime} {participants : List MatchParticipant} {m : Match}

theorem normalizeRoomCode_normalizeRoomCode {mapping : FullCaseMapping}
    (hupper : rt.toUpperCase = mapping.toUpperCase) (code : JsString) :
    normalizeRoomCode rt (normalizeRoomCode rt code) = normalizeRoomCode rt code := by
  simp only [normalizeRoomCode, hupper]
  calc mapping.toUpperCase (trim (mapping.toUpperCase (trim code)))
      = mapping.toUpperCase (mapping.toUpperCase (trim (trim code))) :=
        congrArg mapping.toUpperCase (mapping.trim_toUpperCase (trim code))
    _ = mapping.toUpperCase (trim (trim code)) := mapping.toUpperCase_toUpperCase _
    _ = mapping.toUpperCase (trim code) := congrArg mapping.toUpperCase (trimWith_trimWith _ code)

/-- A match that a constructor call returned. -/
def Built (rt : Runtime) (m : Match) : Prop :=
  ∃ id roomCode songId songTitle startedAt finishedAt winnerPlayerId endReason participants,
    Match.new rt id roomCode songId songTitle startedAt finishedAt winnerPlayerId endReason
      participants = .ok m

/-- What the constructor makes of the room code and the participants. -/
structure Canonical (rt : Runtime) (m : Match) : Prop where
  roomCode : normalizeRoomCode rt m.roomCode = m.roomCode
  sorted : m.participants.Pairwise fun a b => resultsOrder a b ≠ .gt
  nodup : (m.participants.map (·.playerId)).Nodup

theorem Built.canonical {mapping : FullCaseMapping}
    (hupper : rt.toUpperCase = mapping.toUpperCase) (h : m.Built rt) : m.Canonical rt := by
  obtain ⟨id, roomCode, songId, songTitle, startedAt, finishedAt, winnerPlayerId, endReason,
    participants, h⟩ := h
  obtain ⟨code, start, finish, -, -, -, hnodup, rfl⟩ := new_eq_ok_iff.mp h
  exact ⟨normalizeRoomCode_normalizeRoomCode hupper code, List.pairwise_insertionSort _ _,
    ((List.perm_insertionSort _ participants).map _).nodup_iff.mpr hnodup⟩

/-- The constructor gives a canonical match back, in whatever order its participants are. -/
theorem Canonical.new_eq_ok (h : m.Canonical rt) (hperm : participants.Perm m.participants) :
    Match.new rt m.id (some m.roomCode) m.songId m.songTitle (some m.startedAt) (some m.finishedAt)
      m.winnerPlayerId m.endReason participants = .ok m := by
  refine new_eq_ok_iff.mpr ⟨_, _, _, rfl, rfl, rfl, (hperm.map _).nodup_iff.mpr h.nodup, ?_⟩
  have hsorted : participants.insertionSort (fun a b => resultsOrder a b ≠ .gt) = m.participants :=
    (insertionSort_resultsOrder h.nodup hperm).trans h.sorted.insertionSort_eq
  rw [made, h.roomCode, hsorted]

/-- A match built from the fields of a match. -/
def rebuilt (rt : Runtime) (m : Match) : Except JavaException Match :=
  Match.new rt m.id (some m.roomCode) m.songId m.songTitle (some m.startedAt) (some m.finishedAt)
    m.winnerPlayerId m.endReason m.participants

end Match

/-! ### The entity of a match -/

namespace MatchEntity

variable {rt : Runtime} {m : Match} {entity stored read : MatchEntity}

/-- An entity that the database returns for a stored one: the columns are the same, and the
participants come in any order. -/
structure ReadBack (stored read : MatchEntity) : Prop where
  row : read.toMatchRow = stored.toMatchRow
  participants : read.participants.Perm stored.participants

theorem ReadBack.toDomain_eq_ok (hm : m.Canonical rt)
    (h : ReadBack (m.entity entity.newEntity) read) : read.toDomain rt = .ok m := by
  obtain ⟨participants, hparticipants, hperm⟩ :=
    Bag.mapM_perm (mapM_toDomain_fromDomain m.participants) h.participants
  have hrow (row : MatchRow) (h : read.toMatchRow = row) : read = { read with toMatchRow := row } :=
    h ▸ rfl
  rw [hrow _ h.row]
  refine bind_eq_ok.mpr ⟨m.endReason, endReasonOfWireValue_endReasonText _, ?_⟩
  exact bind_eq_ok.mpr ⟨participants, hparticipants, hm.new_eq_ok hperm⟩

end MatchEntity

/-! ### The match of a request -/

/-- A participant of the domain has the fields of one of the request. -/
structure Participant.Reads (p : Participant) (q : MatchParticipant) : Prop where
  playerId : p.playerId = some q.playerId
  displayName : p.displayName = some q.displayName
  role : p.role = some (roleText q.role)
  votes : q.votes = p.votes
  wordsWon : q.wordsWon = p.wordsWon
  score : q.score = p.score
  rank : q.rank = p.rank
  leftEarly : q.leftEarly = p.leftEarly.getD false

/-- The participants of a request, in their order. -/
def ReadsAll (sent : List (Option Participant)) (participants : List MatchParticipant) : Prop :=
  List.Forall₂ (fun p q => ∃ p', p = some p' ∧ p'.Reads q) sent participants

/-- What the fields of a request are read as. -/
structure RecordMatchRequest.Values (request : RecordMatchRequest) where
  roomCode : JsString
  startedAt : Instant
  finishedAt : Instant
  endReason : BattleEndReason
  participants : List MatchParticipant
  roomCode_eq : request.roomCode = some roomCode
  startedAt_eq : request.startedAt = some startedAt
  finishedAt_eq : request.finishedAt = some finishedAt
  endReason_eq : request.endReason = some (endReasonText endReason)
  participants_eq : ∃ sent, request.participants = some sent ∧ ReadsAll sent participants
  nodup : (participants.map (·.playerId)).Nodup

section Values

variable {rt : Runtime} {request : RecordMatchRequest} {p : Participant}
  {q : MatchParticipant} {sent : List (Option Participant)} {participants : List MatchParticipant}

theorem exists_roleText {s : Option JsString}
    (h : oneOf [js "dancer", js "spectator"] s = true) : ∃ role, s = some (roleText role) := by
  obtain ⟨word, rfl, hword⟩ := (Option.any_eq_true _ _).mp h
  rcases List.mem_pair.mp (of_decide_eq_true hword) with rfl | rfl
  · exact ⟨.dancer, rfl⟩
  · exact ⟨.spectator, rfl⟩

theorem exists_endReasonText {s : Option JsString}
    (h : oneOf [js "song-end", js "not-enough-dancers"] s = true) :
    ∃ reason, s = some (endReasonText reason) := by
  obtain ⟨word, rfl, hword⟩ := (Option.any_eq_true _ _).mp h
  rcases List.mem_pair.mp (of_decide_eq_true hword) with rfl | rfl
  · exact ⟨.songEnd, rfl⟩
  · exact ⟨.notEnoughDancers, rfl⟩

theorem exists_of_notBlank {s : Option JsString} (h : notBlank s = true) :
    ∃ text, s = some text := by
  obtain ⟨text, rfl, -⟩ := (Option.any_eq_true _ _).mp h
  exact ⟨text, rfl⟩

theorem Participant.exists_reads (h : p.isValid = true) : ∃ q, p.Reads q := by
  simp only [isValid, Bool.and_eq_true] at h
  obtain ⟨⟨⟨⟨⟨⟨⟨⟨hid, -⟩, hname⟩, -⟩, hrole⟩, -⟩, -⟩, -⟩, -⟩ := h
  obtain ⟨playerId, hid⟩ := exists_of_notBlank hid
  obtain ⟨displayName, hname⟩ := exists_of_notBlank hname
  obtain ⟨role, hrole⟩ := exists_roleText hrole
  exact ⟨⟨playerId, displayName, role, p.votes, p.wordsWon, p.score, p.rank,
    p.leftEarly.getD false⟩, hid, hname, hrole, rfl, rfl, rfl, rfl, rfl⟩

theorem Participant.Reads.toDomain (h : p.Reads q) : p.toDomain = .ok q := by
  have hleft : decide (p.leftEarly = some true) = p.leftEarly.getD false := by
    rcases p.leftEarly with _ | _ | _ <;> rfl
  refine bind_eq_ok.mpr ⟨q.role, h.role ▸ roleOfWireValue_roleText q.role, ?_⟩
  refine bind_eq_ok.mpr ⟨q.playerId, h.playerId ▸ rfl, ?_⟩
  refine bind_eq_ok.mpr ⟨q.displayName, h.displayName ▸ rfl, ?_⟩
  rw [← h.votes, ← h.wordsWon, ← h.score, ← h.rank, hleft, ← h.leftEarly]
  rfl

/-- The participants of a valid request are all read. -/
theorem exists_readsAll (h : ∀ p ∈ sent, p.any Participant.isValid = true) :
    ∃ participants, ReadsAll sent participants := by
  induction sent with
  | nil => exact ⟨[], .nil⟩
  | cons p sent ih =>
    rw [List.forall_mem_cons] at h
    obtain ⟨participants, hrest⟩ := ih h.2
    obtain ⟨p', rfl, hp⟩ := (Option.any_eq_true _ _).mp h.1
    obtain ⟨q, hq⟩ := Participant.exists_reads hp
    exact ⟨q :: participants, .cons ⟨p', rfl, hq⟩ hrest⟩

theorem ReadsAll.playerIds (h : ReadsAll sent participants) :
    (sent.filterMap id).filterMap (·.playerId) = participants.map (·.playerId) := by
  induction h with
  | nil => rfl
  | cons hp hrest ih =>
    obtain ⟨p, rfl, hp⟩ := hp
    simp only [List.filterMap_cons, id_eq, hp.playerId, List.map_cons]
    exact congrArg _ ih

/-- A valid request has a value for each field that the match needs. -/
theorem RecordMatchRequest.exists_values (h : request.isValid = true) :
    Nonempty request.Values := by
  simp only [isValid, Bool.and_eq_true] at h
  obtain ⟨⟨⟨⟨⟨⟨⟨⟨⟨⟨⟨hcode, -⟩, -⟩, -⟩, hstart⟩, hfinish⟩, -⟩, hreason⟩, hsome⟩, -⟩, hvalid⟩,
    honce⟩ := h
  obtain ⟨roomCode, hcode⟩ := exists_of_notBlank hcode
  obtain ⟨startedAt, hstart⟩ := Option.isSome_iff_exists.mp hstart
  obtain ⟨finishedAt, hfinish⟩ := Option.isSome_iff_exists.mp hfinish
  obtain ⟨endReason, hreason⟩ := exists_endReasonText hreason
  obtain ⟨sent, hsent⟩ := Option.isSome_iff_exists.mp hsome
  rw [isEachPlayerListedOnce, hsent, Option.all_some, decide_eq_true_eq] at honce
  rw [hsent, Option.all_some, List.all_eq_true] at hvalid
  obtain ⟨participants, hparticipants⟩ := exists_readsAll hvalid
  exact ⟨{
    roomCode, startedAt, finishedAt, endReason, participants
    roomCode_eq := hcode
    startedAt_eq := hstart
    finishedAt_eq := hfinish
    endReason_eq := hreason
    participants_eq := ⟨sent, hsent, hparticipants⟩
    nodup := hparticipants.playerIds ▸ honce }⟩

/-- The match of the values. -/
def RecordMatchRequest.Values.toMatch (values : request.Values) (rt : Runtime) (id : JsString) :
    Match :=
  Match.made rt id values.roomCode request.songId request.songTitle values.startedAt
    values.finishedAt request.winnerPlayerId values.endReason values.participants

namespace RecordMatchRequest

/-- A participant of a request that may be `null`. -/
def readParticipant : Option Participant → Except JavaException MatchParticipant
  | some p => p.toDomain
  | none => .error .nullCall

theorem mapM_readParticipant (h : ReadsAll sent participants) :
    sent.mapM readParticipant = .ok participants :=
  Bag.mapM_eq_ok_iff.mpr (h.imp fun p q hpq => by
    obtain ⟨p', rfl, hp'⟩ := hpq
    exact hp'.toDomain)

/-- The match is what the constructor makes of the values, in whatever order the participants were
sent. -/
theorem Values.toDomain_eq_ok (values : request.Values) (rt : Runtime) (id : JsString)
    {sent' : List (Option Participant)} (hsent : request.participants = some sent)
    (hperm : sent'.Perm sent) :
    toDomain rt { request with participants := some sent' } id = .ok (values.toMatch rt id) ∧
      ∃ ordered : List MatchParticipant, ReadsAll sent' ordered ∧
        ordered.Perm values.participants := by
  obtain ⟨_, hsent', hreads⟩ := values.participants_eq
  obtain rfl := Option.some.inj (hsent.symm.trans hsent')
  obtain ⟨ordered, hordered, hperm'⟩ := List.perm_comp_forall₂ hperm hreads
  refine ⟨?_, ordered, hordered, hperm'⟩
  refine bind_eq_ok.mpr ⟨values.endReason,
    values.endReason_eq ▸ endReasonOfWireValue_endReasonText _, ?_⟩
  refine bind_eq_ok.mpr ⟨ordered, mapM_readParticipant hordered, ?_⟩
  refine Match.new_eq_ok_iff.mpr ⟨_, _, _, values.roomCode_eq, values.startedAt_eq,
    values.finishedAt_eq, (hperm'.map _).nodup_iff.mpr values.nodup, ?_⟩
  rw [Values.toMatch, Match.made, Match.made,
    Match.insertionSort_resultsOrder values.nodup hperm']

theorem Values.toDomain_self (values : request.Values) (rt : Runtime) (id : JsString) :
    request.toDomain rt id = .ok (values.toMatch rt id) := by
  obtain ⟨sent, hsent, -⟩ := values.participants_eq
  have hsame := (values.toDomain_eq_ok rt id hsent .rfl).1
  rwa [← hsent] at hsame

end RecordMatchRequest

end Values

/-! ### What the answer carries -/

/-- A participant of an answer with every field of one of the request. -/
structure MatchResponse.Participant.Carries (p : UsersService.Participant)
    (q : MatchResponse.Participant) : Prop where
  playerId : p.playerId = some q.playerId
  displayName : p.displayName = some q.displayName
  role : p.role = some q.role
  votes : q.votes = p.votes
  wordsWon : q.wordsWon = p.wordsWon
  score : q.score = p.score
  rank : q.rank = p.rank
  leftEarly : q.leftEarly = p.leftEarly.getD false

/-- An answer with every field of a request; its participants are those of the request in the
results order. -/
structure MatchResponse.Carries (rt : Runtime) (request : RecordMatchRequest)
    (response : MatchResponse) : Prop where
  roomCode : request.roomCode.map (fun code => rt.toUpperCase (Match.trim code)) =
    some response.roomCode
  songId : response.songId = request.songId
  songTitle : response.songTitle = request.songTitle
  startedAt : request.startedAt = some response.startedAt
  finishedAt : request.finishedAt = some response.finishedAt
  winnerPlayerId : response.winnerPlayerId = request.winnerPlayerId
  endReason : request.endReason = some response.endReason
  participants : ∃ sent ordered : List (Option UsersService.Participant),
    request.participants = some sent ∧ ordered.Perm sent ∧
      List.Forall₂ (fun p q => ∃ p', p = some p' ∧ Participant.Carries p' q) ordered
        response.participants
  sorted : ∃ participants : List MatchParticipant,
    response.participants = participants.map .fromParticipant ∧
      participants.Pairwise fun a b => Match.resultsOrder a b ≠ .gt

theorem Participant.Reads.carries {p : Participant} {q : MatchParticipant} (h : p.Reads q) :
    MatchResponse.Participant.Carries p (.fromParticipant q) :=
  ⟨h.playerId, h.displayName, h.role, h.votes, h.wordsWon, h.score, h.rank, h.leftEarly⟩

theorem RecordMatchRequest.Values.carries {request : RecordMatchRequest} (values : request.Values)
    (rt : Runtime) (id : JsString) :
    (MatchResponse.fromMatch (values.toMatch rt id)).Carries rt request := by
  obtain ⟨sent, hsent, hreads⟩ := values.participants_eq
  have hsorted := List.perm_insertionSort (fun a b => Match.resultsOrder a b ≠ .gt)
    values.participants
  obtain ⟨ordered, hordered, hperm⟩ := List.perm_comp_forall₂ hsorted hreads.flip
  exact {
    roomCode := congrArg (Option.map _) values.roomCode_eq
    songId := rfl
    songTitle := rfl
    startedAt := values.startedAt_eq
    finishedAt := values.finishedAt_eq
    winnerPlayerId := rfl
    endReason := values.endReason_eq
    participants := ⟨sent, ordered, hsent, hperm, List.forall₂_map_right_iff.mpr
      (hordered.flip.imp fun _ _ ⟨p', hp, hreads⟩ => ⟨p', hp, hreads.carries⟩)⟩
    sorted := ⟨_, rfl, List.pairwise_insertionSort _ _⟩ }

/-- A match is stored and returned unchanged. Whatever a constructor call returned is built again
from its own fields, and an entity that held anything before gives it back after its columns and its
participants, in any order, were read. A valid request becomes one match, in whatever order its
participants were sent, and the answer carries every field of the request. -/
theorem stored_and_returned_unchanged {rt : Runtime} {mapping : FullCaseMapping}
    (hupper : rt.toUpperCase = mapping.toUpperCase) :
    (∀ m : Match, m.Built rt →
      m.rebuilt rt = .ok m ∧
      ∀ entity : MatchEntity, entity.id = m.id → ∃ stored, entity.replaceWith m = .ok stored ∧
        ∀ read, MatchEntity.ReadBack stored read → read.toDomain rt = .ok m) ∧
    ∀ (request : RecordMatchRequest) (id : JsString), request.isValid = true →
      ∃ m : Match, m.Built rt ∧ m.id = id ∧ request.toDomain rt id = .ok m ∧
        (∀ sent sent', request.participants = some sent → sent'.Perm sent →
          RecordMatchRequest.toDomain rt { request with participants := some sent' } id = .ok m) ∧
        (MatchResponse.fromMatch m).id = id ∧ (MatchResponse.fromMatch m).Carries rt request := by
  constructor
  · intro m hm
    have hcanonical := hm.canonical hupper
    refine ⟨hcanonical.new_eq_ok .rfl, fun entity hid => ?_⟩
    exact ⟨_, MatchEntity.replaceWith_eq hid, fun read h => h.toDomain_eq_ok hcanonical⟩
  · intro request id hvalid
    obtain ⟨values⟩ := request.exists_values hvalid
    refine ⟨values.toMatch rt id, ?_, rfl, values.toDomain_self rt id, fun sent sent' hsent hperm =>
      (values.toDomain_eq_ok rt id hsent hperm).1, rfl, values.carries rt id⟩
    exact ⟨_, _, _, _, _, _, _, _, _, Match.new_eq_ok_iff.mpr
      ⟨_, _, _, rfl, rfl, rfl, values.nodup, rfl⟩⟩

/-! ### An engine with a sharp s -/

/-- The upper case of the ASCII letters and of the sharp s, which is two letters. -/
def sharpSUpper : CodePoint → List CodePoint
  | .unit u => if u = 0xDF then [.unit 0x53, .unit 0x53] else [.unit (Runtime.asciiUpper u)]
  | .pair high low hhigh hlow => [.pair high low hhigh hlow]

theorem toNat_asciiUpper (u : UInt16) : (Runtime.asciiUpper u).toNat =
    if 97 ≤ u.toNat ∧ u.toNat ≤ 122 then u.toNat - 32 else u.toNat := by
  rw [Runtime.asciiUpper]
  split_ifs with h h' h'
  · rw [UInt16.toNat_sub_of_le _ _ (UInt16.le_trans (by decide) h.1)]
    rfl
  · exact absurd ⟨UInt16.le_iff_toNat_le.mp h.1, UInt16.le_iff_toNat_le.mp h.2⟩ h'
  · exact absurd ⟨UInt16.le_iff_toNat_le.mpr h'.1, UInt16.le_iff_toNat_le.mpr h'.2⟩ h
  · rfl

theorem isHighSurrogate_asciiUpper (u : UInt16) :
    isHighSurrogate (Runtime.asciiUpper u) = isHighSurrogate u := by
  rw [isHighSurrogate, isHighSurrogate, decide_eq_decide]
  simp only [UInt16.le_iff_toNat_le, UInt16.lt_iff_toNat_lt, toNat_asciiUpper, UInt16.toNat_ofNat]
  split_ifs <;> omega

theorem isLowSurrogate_asciiUpper (u : UInt16) :
    isLowSurrogate (Runtime.asciiUpper u) = isLowSurrogate u := by
  rw [isLowSurrogate, isLowSurrogate, decide_eq_decide]
  simp only [UInt16.le_iff_toNat_le, UInt16.lt_iff_toNat_lt, toNat_asciiUpper, UInt16.toNat_ofNat]
  split_ifs <;> omega

theorem asciiUpper_le_space (u : UInt16) : Runtime.asciiUpper u ≤ 0x20 ↔ u ≤ 0x20 := by
  simp only [UInt16.le_iff_toNat_le, toNat_asciiUpper, UInt16.toNat_ofNat]
  split_ifs <;> omega

theorem asciiUpper_eq_sharpS (u : UInt16) : Runtime.asciiUpper u = 0xDF ↔ u = 0xDF := by
  simp only [← UInt16.toNat_inj, toNat_asciiUpper, UInt16.toNat_ofNat]
  split_ifs <;> omega

theorem asciiUpper_asciiUpper (u : UInt16) :
    Runtime.asciiUpper (Runtime.asciiUpper u) = Runtime.asciiUpper u := by
  simp only [← UInt16.toNat_inj, toNat_asciiUpper]
  split_ifs <;> omega

theorem mem_sharpSUpper {c d : CodePoint} (h : d ∈ sharpSUpper c) : d = c ∨
    (c = .unit 0xDF ∧ d = .unit 0x53) ∨
    ∃ u, c = .unit u ∧ u ≠ 0xDF ∧ d = .unit (Runtime.asciiUpper u) := by
  cases c with
  | pair high low hhigh hlow => exact .inl (List.mem_singleton.mp h)
  | unit u =>
    rw [sharpSUpper] at h
    split_ifs at h with hu
    · obtain rfl : d = .unit 0x53 := by simpa using h
      exact .inr (.inl ⟨congrArg _ hu, rfl⟩)
    · exact .inr (.inr ⟨u, rfl, hu, List.mem_singleton.mp h⟩)

/-- A full case mapping that knows these only. -/
def sharpSMapping : FullCaseMapping where
  upper := sharpSUpper
  ne_nil c := by
    cases c with
    | unit u =>
      rw [sharpSUpper]
      split_ifs <;> simp
    | pair high low hhigh hlow => simp [sharpSUpper]
  idempotent c d hd := by
    cases c with
    | pair high low hhigh hlow =>
      obtain rfl := List.mem_singleton.mp hd
      rfl
    | unit u =>
      rw [sharpSUpper] at hd
      split_ifs at hd with hu
      · obtain rfl : d = .unit 0x53 := by simpa using hd
        decide
      · obtain rfl := List.mem_singleton.mp hd
        rw [sharpSUpper, if_neg (mt (asciiUpper_eq_sharpS u).mp hu), asciiUpper_asciiUpper]
  isHigh_eq c d hd := by
    rcases mem_sharpSUpper hd with rfl | ⟨rfl, rfl⟩ | ⟨u, rfl, -, rfl⟩
    · rfl
    · decide
    · exact isHighSurrogate_asciiUpper u
  isLow_eq c d hd := by
    rcases mem_sharpSUpper hd with rfl | ⟨rfl, rfl⟩ | ⟨u, rfl, -, rfl⟩
    · rfl
    · decide
    · exact isLowSurrogate_asciiUpper u
  isBlank_eq c d hd := by
    rcases mem_sharpSUpper hd with rfl | ⟨rfl, rfl⟩ | ⟨u, rfl, -, rfl⟩
    · rfl
    · decide
    · exact decide_eq_decide.mpr (asciiUpper_le_space u)

/-- An engine that upper-cases with this mapping. -/
def sharpSRuntime : Runtime := { Runtime.ascii with toUpperCase := sharpSMapping.toUpperCase }

def sampleRequest : RecordMatchRequest where
  roomCode := some (js " groß1 ")
  songId := none
  songTitle := some (js "Song")
  startedAt := some 0
  finishedAt := some 60000
  winnerPlayerId := some (js "b")
  endReason := some (js "song-end")
  participants := some [
    some ⟨some (js "s"), some (js "Sam"), some (js "spectator"), none, none, none, none, none⟩,
    some ⟨some (js "a"), some (js "Ann"), some (js "dancer"), some 1, some 2, some 3, some 2,
      some true⟩,
    some ⟨some (js "b"), some (js "Bob"), some (js "dancer"), some 2, some 2, some 4, some 1,
      some false⟩]

theorem stored_and_returned_unchanged_sampleRequest : ∃ m : Match,
    sampleRequest.toDomain sharpSRuntime sampleId = .ok m ∧ m.rebuilt sharpSRuntime = .ok m ∧
    (MatchResponse.fromMatch m).Carries sharpSRuntime sampleRequest ∧
    ∃ stored, (MatchEntity.newMatch sampleId).replaceWith m = .ok stored ∧
      MatchEntity.toDomain sharpSRuntime { stored with
        participants := stored.participants.reverse
        newEntity := false } = .ok m := by
  obtain ⟨hmatches, hrequests⟩ :=
    @stored_and_returned_unchanged sharpSRuntime sharpSMapping rfl
  obtain ⟨m, hbuilt, hid, hdomain, -, -, hcarries⟩ :=
    hrequests sampleRequest sampleId (by decide +kernel)
  obtain ⟨hrebuilt, hstored⟩ := hmatches m hbuilt
  obtain ⟨stored, hreplaced, hread⟩ := hstored (.newMatch sampleId) hid.symm
  exact ⟨m, hdomain, hrebuilt, hcarries, stored, hreplaced,
    hread _ ⟨rfl, List.reverse_perm _⟩⟩

example : (sampleRequest.toDomain sharpSRuntime sampleId).map (fun m =>
    (m.roomCode, m.participants.map (·.playerId))) =
    .ok (js "GROSS1", [js "b", js "a", js "s"]) := by
  decide +kernel

end DanceSync.UsersService
