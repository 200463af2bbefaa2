import DanceSync.Sorting.Bag
import DanceSync.Transactions.ReadCommitted
import DanceSync.UsersService.RecordMatch

/-!
# The stored matches

`MatchEntity.java`, `MatchParticipantEmbeddable.java` and the tables of `V2__matches.sql`: a match
as a row of `matches` with its rows of `match_participants`, and the statements that a flush sends.
A column of an entity is `none` when it is `null`.

The participants are a bag. When it has changed, every participant row of the match is deleted and
the rows of the bag are inserted; when it was empty there is nothing to delete.

## Main definitions

* `MatchRow`, `MatchParticipantRow`, `Row`, `Row.fits`: the tables with their constraints.
* `MatchEntity`, `MatchEntity.replaceWith`, `MatchEntity.toDomain`, `MatchEntity.flush`.
* `Match.new`, `Match.made`: the constructor of a match.
* `Match.rows`: the rows of a match.
* `Match.FitsSchema`: a match that the tables can hold.

## Main results

* `Match.new_eq_ok_iff`: what the constructor returns.
* `MatchEntity.runAll_flush_newMatch`, `MatchEntity.runAll_flush_stored`: a flush leaves the rows of
  the match, and those of the other matches as they were.
* `MatchEntity.toDomain_isOk`: the entity of a match that fits becomes a match again.
-/

namespace DanceSync.UsersService

open ReadCommitted

/-! ### The tables -/

/-- A row of `matches`. -/
structure MatchRow where
  id : JsString
  roomCode : Option JsString
  songId : Option JsString
  songTitle : Option JsString
  startedAt : Option Instant
  finishedAt : Option Instant
  winnerPlayerId : Option JsString
  endReason : Option JsString
  deriving DecidableEq

/-- `MatchParticipantEmbeddable`. -/
structure MatchParticipantEmbeddable where
  playerId : JsString
  displayName : JsString
  role : JsString
  votes : Option ℤ
  wordsWon : Option ℤ
  score : Option ℤ
  rank : Option ℤ
  leftEarly : Bool
  deriving DecidableEq

/-- A row of `match_participants`. -/
structure MatchParticipantRow extends MatchParticipantEmbeddable where
  matchId : JsString
  deriving DecidableEq

inductive Row where
  | ofMatch (row : MatchRow)
  | ofParticipant (row : MatchParticipantRow)
  deriving DecidableEq

/-- The primary keys of the two tables. -/
inductive Key where
  | ofMatch (id : JsString)
  | ofParticipant (matchId playerId : JsString)
  deriving DecidableEq

namespace Row

instance : Keyed Row Key where
  key
    | ofMatch row => .ofMatch row.id
    | ofParticipant row => .ofParticipant row.matchId row.playerId

/-- The match of a row. -/
def matchId : Row → JsString
  | ofMatch row => row.id
  | ofParticipant row => row.matchId

def match? : Row → Option MatchRow
  | ofMatch row => some row
  | ofParticipant _ => none

def participant? : Row → Option MatchParticipantRow
  | ofMatch _ => none
  | ofParticipant row => some row

@[simp] theorem key_ofMatch (row : MatchRow) : key (ofMatch row) = .ofMatch row.id := rfl

@[simp] theorem key_ofParticipant (row : MatchParticipantRow) :
    key (ofParticipant row) = .ofParticipant row.matchId row.playerId := rfl

@[simp] theorem matchId_ofMatch (row : MatchRow) : (ofMatch row).matchId = row.id := rfl

@[simp] theorem matchId_ofParticipant (row : MatchParticipantRow) :
    (ofParticipant row).matchId = row.matchId := rfl

end Row

/-- The number of characters: a surrogate pair is one. -/
def characters : JsString → ℕ
  | [] => 0
  | [_] => 1
  | u :: v :: s =>
    if 0xD800 ≤ u ∧ u < 0xDC00 ∧ 0xDC00 ≤ v ∧ v < 0xE000 then characters s + 1
    else characters (v :: s) + 1

/-- `VARCHAR(n)`; a text has no null character. -/
def varchar (n : ℕ) (s : JsString) : Bool := characters s ≤ n && 0 ∉ s

/-- `INT`. -/
def int (n : ℤ) : Bool := -INTEGER_MAX_VALUE - 1 ≤ n ∧ n ≤ INTEGER_MAX_VALUE

/-- `NOT NULL` and the column lengths of `matches`, and `ck_matches_end_reason`. -/
def MatchRow.fits (row : MatchRow) : Bool :=
  row.roomCode.any (varchar 16) && row.songId.all (varchar 64) && row.songTitle.all (varchar 200) &&
  row.startedAt.isSome && row.finishedAt.isSome && row.winnerPlayerId.all (varchar 64) &&
  row.endReason.any (varchar 32) && row.endReason.any (· ∈ [js "song-end", js "not-enough-dancers"])

/-- The columns of `match_participants`, and `ck_match_participants_role`. -/
def MatchParticipantEmbeddable.fits (p : MatchParticipantEmbeddable) : Bool :=
  varchar 64 p.playerId && varchar 64 p.displayName && varchar 16 p.role &&
  p.votes.all int && p.wordsWon.all int && p.score.all int && p.rank.all int &&
  p.role ∈ [js "dancer", js "spectator"]

/-- The constraints of a row; a participant refers to a match that is there. -/
def Row.fits : Constraints Row
  | _, .ofMatch row => row.fits
  | rows, .ofParticipant row =>
    row.toMatchParticipantEmbeddable.fits && .ofMatch row.matchId ∈ rows.map key

/-! ### Entities -/

namespace MatchParticipantEmbeddable

def fromDomain (participant : MatchParticipant) : MatchParticipantEmbeddable where
  playerId := participant.playerId
  displayName := participant.displayName
  role := roleText participant.role
  votes := participant.votes
  wordsWon := participant.wordsWon
  score := participant.score
  rank := participant.rank
  leftEarly := participant.leftEarly

def toDomain (p : MatchParticipantEmbeddable) : Except JavaException MatchParticipant := do
  let role ← roleOfWireValue (some p.role)
  return {
    playerId := p.playerId
    displayName := p.displayName
    role
    votes := p.votes
    wordsWon := p.wordsWon
    score := p.score
    rank := p.rank
    leftEarly := p.leftEarly }

def row (p : MatchParticipantEmbeddable) (matchId : JsString) : MatchParticipantRow :=
  { p with matchId }

end MatchParticipantEmbeddable

structure MatchEntity extends MatchRow where
  participants : List MatchParticipantEmbeddable
  newEntity : Bool
  deriving DecidableEq

/-- `new Match(…)`. -/
def Match.new (rt : Runtime) (id : JsString) (roomCode songId songTitle : Option JsString)
    (startedAt finishedAt : Option Instant) (winnerPlayerId : Option JsString)
    (endReason : BattleEndReason) (participants : List MatchParticipant) :
    Except JavaException Match := do
  let roomCode ← requireNonNull roomCode (js "roomCode must not be null")
  let startedAt ← requireNonNull startedAt (js "startedAt must not be null")
  let finishedAt ← requireNonNull finishedAt (js "finishedAt must not be null")
  let participants := participants.insertionSort fun a b => Match.resultsOrder a b ≠ .gt
  Match.requireUniquePlayers [] participants
  return {
    id
    roomCode := Match.normalizeRoomCode rt roomCode
    songId, songTitle, startedAt, finishedAt, winnerPlayerId, endReason, participants }

namespace MatchEntity

/-- A match that is not stored yet. -/
def newMatch (id : JsString) : MatchEntity where
  id
  roomCode := none
  songId := none
  songTitle := none
  startedAt := none
  finishedAt := none
  winnerPlayerId := none
  endReason := none
  participants := []
  newEntity := true

/-- Overwrites every column and the participants with the given match. -/
def replaceWith (entity : MatchEntity) (m : Match) : Except JavaException MatchEntity := do
  throwIf (entity.id ≠ m.id) (.illegalArgument
    (js "Cannot replace match " ++ entity.id ++ js " with match " ++ m.id))
  return { entity with
    roomCode := some m.roomCode
    songId := m.songId
    songTitle := m.songTitle
    startedAt := some m.startedAt
    finishedAt := some m.finishedAt
    winnerPlayerId := m.winnerPlayerId
    endReason := some (endReasonText m.endReason)
    participants := m.participants.map .fromDomain }

def toDomain (rt : Runtime) (entity : MatchEntity) : Except JavaException Match := do
  let endReason ← endReasonOfWireValue entity.endReason
  let participants ← entity.participants.mapM (·.toDomain)
  Match.new rt entity.id entity.roomCode entity.songId entity.songTitle entity.startedAt
    entity.finishedAt entity.winnerPlayerId endReason participants

/-- The rows of the bag. -/
def participantRows (entity : MatchEntity) : List Row :=
  entity.participants.map fun p => .ofParticipant (p.row entity.id)

/-- A participant row of the match. -/
def isParticipantOf (id : JsString) (r : Row) : Bool := r.participant?.any (·.matchId = id)

/-- The participants of a match, as they are read. -/
def storedParticipants (id : JsString) (rows : List Row) : List MatchParticipantEmbeddable :=
  ((rows.filterMap Row.participant?).filter fun row => row.matchId = id).map
    (·.toMatchParticipantEmbeddable)

/-- The statements of a flush; `snapshot` is the entity as it was read. -/
def flush (entity snapshot : MatchEntity) : List (Statement Row) :=
  let inserts := entity.participantRows.map .insert
  if entity.newEntity then .insert (.ofMatch entity.toMatchRow) :: inserts
  else
    (if entity.toMatchRow = snapshot.toMatchRow then []
      else [.update (.ofMatch entity.toMatchRow)]) ++
    (if snapshot.participants = [] then [] else [.delete (isParticipantOf entity.id)]) ++ inserts

end MatchEntity

/-! ### The constructor of a match -/

theorem requireNonNull_eq_ok {α : Type} {value : Option α} {message : JsString} {a : α} :
    requireNonNull value message = .ok a ↔ value = some a := by
  cases value <;> simp [requireNonNull]

namespace Match

variable {rt : Runtime} {id : JsString} {roomCode songId songTitle : Option JsString}
  {startedAt finishedAt : Option Instant} {winnerPlayerId : Option JsString}
  {endReason : BattleEndReason} {participants : List MatchParticipant} {m : Match}

theorem nodup_of_requireUniquePlayers {seen : List JsString}
    (h : requireUniquePlayers seen participants = .ok ()) :
    (participants.map (·.playerId)).Nodup ∧ ∀ p ∈ participants, p.playerId ∉ seen := by
  induction participants generalizing seen with
  | nil => exact ⟨List.nodup_nil, by simp⟩
  | cons p participants ih =>
    obtain ⟨_, hp, h⟩ := bind_eq_ok.mp h
    obtain ⟨hnodup, hseen⟩ := ih h
    simp only [List.mem_cons, not_or] at hseen
    refine ⟨List.nodup_cons.mpr ⟨fun hmem => ?_, hnodup⟩, List.forall_mem_cons.mpr
      ⟨throwIf_eq_ok.mp hp, fun q hq => (hseen q hq).2⟩⟩
    obtain ⟨q, hq, heq⟩ := List.mem_map.mp hmem
    exact (hseen q hq).1 heq

/-- A match with these values, as its constructor makes it. -/
def made (rt : Runtime) (id roomCode : JsString) (songId songTitle : Option JsString)
    (startedAt finishedAt : Instant) (winnerPlayerId : Option JsString)
    (endReason : BattleEndReason) (participants : List MatchParticipant) : Match where
  id
  roomCode := normalizeRoomCode rt roomCode
  songId
  songTitle
  startedAt
  finishedAt
  winnerPlayerId
  endReason
  participants := participants.insertionSort fun a b => resultsOrder a b ≠ .gt

/-- The constructor throws for a value that is `null` and for a player who is there twice. -/
theorem new_eq_ok_iff :
    Match.new rt id roomCode songId songTitle startedAt finishedAt winnerPlayerId endReason
      participants = .ok m ↔
    ∃ code start finish, roomCode = some code ∧ startedAt = some start ∧ finishedAt = some finish ∧
      (participants.map (·.playerId)).Nodup ∧
      m = made rt id code songId songTitle start finish winnerPlayerId endReason participants := by
  have hnodup := ((participants.perm_insertionSort fun a b => resultsOrder a b ≠ .gt).map
    (·.playerId)).nodup_iff
  constructor
  · intro h
    obtain ⟨code, hcode, h⟩ := bind_eq_ok.mp h
    obtain ⟨start, hstart, h⟩ := bind_eq_ok.mp h
    obtain ⟨finish, hfinish, h⟩ := bind_eq_ok.mp h
    obtain ⟨_, hunique, h⟩ := bind_eq_ok.mp h
    exact ⟨code, start, finish, requireNonNull_eq_ok.mp hcode, requireNonNull_eq_ok.mp hstart,
      requireNonNull_eq_ok.mp hfinish, hnodup.mp (nodup_of_requireUniquePlayers hunique).1,
      (Except.ok.inj h).symm⟩
  · rintro ⟨code, start, finish, rfl, rfl, rfl, h, rfl⟩
    have hunique := requireUniquePlayers_of_nodup [] (hnodup.mpr h) (by simp)
    exact bind_eq_ok.mpr ⟨code, rfl, bind_eq_ok.mpr ⟨start, rfl, bind_eq_ok.mpr ⟨finish, rfl,
      bind_eq_ok.mpr ⟨(), hunique, rfl⟩⟩⟩⟩

end Match

/-! ### The rows of a match -/

/-- The entity of a match: every column and every participant is the match's. -/
def Match.entity (m : Match) (newEntity : Bool) : MatchEntity where
  id := m.id
  roomCode := some m.roomCode
  songId := m.songId
  songTitle := m.songTitle
  startedAt := some m.startedAt
  finishedAt := some m.finishedAt
  winnerPlayerId := m.winnerPlayerId
  endReason := some (endReasonText m.endReason)
  participants := m.participants.map .fromDomain
  newEntity

/-- The rows of a match: one of `matches`, and one of `match_participants` for each participant. -/
def Match.rows (m : Match) : List Row :=
  .ofMatch (m.entity true).toMatchRow :: (m.entity true).participantRows

/-- A match that the tables can hold: its rows meet the constraints and differ in their keys. -/
structure Match.FitsSchema (m : Match) : Prop where
  row : (m.entity true).toMatchRow.fits = true
  participants : ∀ p ∈ m.participants, (MatchParticipantEmbeddable.fromDomain p).fits = true
  nodup : (m.participants.map (·.playerId)).Nodup

/-- The rows of the tables that belong to a match. -/
def rowsOf (id : JsString) (rows : List Row) : List Row := rows.filter fun r => r.matchId = id

/-- The rows that belong to the other matches. -/
def otherRows (id : JsString) (rows : List Row) : List Row := rows.filter fun r => r.matchId ≠ id

/-- The match has a row. -/
def IsStored (id : JsString) (rows : List Row) : Prop := Key.ofMatch id ∈ rows.map key

instance (id : JsString) (rows : List Row) : Decidable (IsStored id rows) :=
  inferInstanceAs (Decidable (_ ∈ _))

/-- What the primary keys and the foreign key promise of the rows of a match. -/
structure Sound (id : JsString) (rows : List Row) : Prop where
  unique : Statement.Unique rows
  references : ∀ r ∈ rows, r.matchId = id → IsStored id rows

/-- The rows of a match became those of a document, and the others stayed. -/
structure Replaced (id : JsString) (m : Match) (rows rows' : List Row) : Prop where
  rowsOf_eq : rowsOf id rows' = m.rows
  otherRows_eq : otherRows id rows' = otherRows id rows

section Rows

variable {id : JsString} {m : Match} {rows rows' : List Row}

theorem matchId_of_mem_rows {r : Row} (hr : r ∈ m.rows) : r.matchId = m.id := by
  rcases List.mem_cons.mp hr with rfl | hr
  · rfl
  · obtain ⟨p, -, rfl⟩ := List.mem_map.mp hr
    rfl

theorem rowsOf_rows : rowsOf m.id m.rows = m.rows :=
  List.filter_eq_self.mpr fun _ hr => decide_eq_true (matchId_of_mem_rows hr)

theorem isStored_of_rowsOf (h : rowsOf id rows = m.rows) (hid : m.id = id) : IsStored id rows := by
  have hmem : .ofMatch (m.entity true).toMatchRow ∈ rowsOf id rows := h ▸ List.mem_cons_self ..
  rw [IsStored, ← hid]
  exact List.mem_map.mpr ⟨_, (List.mem_filter.mp hmem).1, rfl⟩

theorem Replaced.isStored (h : Replaced id m rows rows') (hid : m.id = id) : IsStored id rows' :=
  isStored_of_rowsOf h.rowsOf_eq hid

theorem not_isStored_iff (hsound : Sound id rows) : ¬IsStored id rows ↔ rowsOf id rows = [] := by
  rw [rowsOf, List.filter_eq_nil_iff]
  constructor
  · intro h r hr hid
    exact h (hsound.references r hr (of_decide_eq_true hid))
  · intro h hstored
    obtain ⟨r, hr, hkey⟩ := List.mem_map.mp hstored
    cases r with
    | ofMatch row => exact h _ hr (decide_eq_true (Key.ofMatch.inj hkey))
    | ofParticipant row => simp at hkey

end Rows

/-! ### Inserting the participants -/

namespace MatchEntity

variable {id : JsString} {m : Match} {rows rows' : List Row} {row : MatchRow}

/-- Nothing is left of what the entity held before. -/
theorem replaceWith_eq {entity : MatchEntity} (hid : entity.id = m.id) :
    entity.replaceWith m = .ok (m.entity entity.newEntity) := by
  rw [replaceWith, throwIf, if_neg (by simp [hid])]
  simp [Match.entity, ← hid]

theorem replaceWith_newMatch : (newMatch m.id).replaceWith m = .ok (m.entity true) :=
  replaceWith_eq rfl

theorem replaceWith_stored {participants : List MatchParticipantEmbeddable} (hid : row.id = m.id) :
    (MatchEntity.mk row participants false).replaceWith m = .ok (m.entity false) :=
  replaceWith_eq hid

/-- Participants of different ids that the match does not have yet are inserted in order. -/
theorem runAll_inserts {participants : List MatchParticipantEmbeddable}
    (hfits : ∀ p ∈ participants, p.fits = true)
    (hnodup : (participants.map (·.playerId)).Nodup) (hstored : IsStored id rows)
    (hnew : ∀ p ∈ participants, Key.ofParticipant id p.playerId ∉ rows.map key) :
    Statement.runAll Row.fits rows
      (participants.map fun p => .insert (.ofParticipant (p.row id))) =
      some (rows ++ participants.map fun p => .ofParticipant (p.row id)) := by
  induction participants generalizing rows with
  | nil => simp [Statement.runAll]
  | cons p participants ih =>
    rw [List.forall_mem_cons] at hfits hnew
    obtain ⟨hp, hnodup⟩ := List.nodup_cons.mp hnodup
    have hrow : Row.fits rows (.ofParticipant (p.row id)) = true :=
      Bool.and_eq_true_iff.mpr ⟨hfits.1, decide_eq_true hstored⟩
    have hrun : Statement.run Row.fits rows (.insert (.ofParticipant (p.row id))) =
        some (rows ++ [.ofParticipant (p.row id)]) :=
      if_pos ⟨hrow, hnew.1⟩
    have hstored' : IsStored id (rows ++ [.ofParticipant (p.row id)]) := by
      rw [IsStored, List.map_append]
      exact List.mem_append_left _ hstored
    rw [List.map_cons, Statement.runAll, hrun, Option.bind_some, ih hfits.2 hnodup hstored' ?_,
      List.append_assoc]
    · rfl
    · intro q hq hmem
      rw [List.map_append, List.mem_append] at hmem
      rcases hmem with hmem | hmem
      · exact hnew.2 q hq hmem
      · refine hp (List.mem_map.mpr ⟨q, hq, ?_⟩)
        exact (Key.ofParticipant.inj (List.mem_singleton.mp hmem)).2

theorem nodup_playerIds (hfits : m.FitsSchema) (newEntity : Bool) :
    ((m.entity newEntity).participants.map (·.playerId)).Nodup := by
  rw [Match.entity, List.map_map]
  exact hfits.nodup

/-- The flush of a new match adds its rows. -/
theorem runAll_flush_newMatch (snapshot : MatchEntity) (hfits : m.FitsSchema)
    (hsound : Sound m.id rows) (hstored : ¬IsStored m.id rows) :
    Statement.runAll Row.fits rows ((m.entity true).flush snapshot) = some (rows ++ m.rows) := by
  have hrun : Statement.run Row.fits rows (.insert (.ofMatch (m.entity true).toMatchRow)) =
      some (rows ++ [.ofMatch (m.entity true).toMatchRow]) :=
    if_pos ⟨hfits.row, hstored⟩
  have hstored' : IsStored m.id (rows ++ [.ofMatch (m.entity true).toMatchRow]) := by
    rw [IsStored, List.map_append]
    exact List.mem_append_right _ (List.mem_singleton_self _)
  have hnew : ∀ p ∈ (m.entity true).participants, Key.ofParticipant m.id p.playerId ∉
      (rows ++ [Row.ofMatch (m.entity true).toMatchRow]).map key := by
    intro p _ hmem
    rw [List.map_append, List.mem_append] at hmem
    rcases hmem with hmem | hmem
    · obtain ⟨r, hr, hkey⟩ := List.mem_map.mp hmem
      cases r with
      | ofMatch row => simp at hkey
      | ofParticipant row => exact hstored (hsound.references _ hr (Key.ofParticipant.inj hkey).1)
    · simp at hmem
  have hinserts := runAll_inserts (List.forall_mem_map.mpr hfits.participants)
    (nodup_playerIds hfits true) hstored' hnew
  have hflush : (m.entity true).flush snapshot =
      .insert (.ofMatch (m.entity true).toMatchRow) ::
        (m.entity true).participants.map fun p => .insert (.ofParticipant (p.row m.id)) := by
    simp [flush, Match.entity, participantRows]
  rw [hflush, Statement.runAll, hrun, Option.bind_some]
  exact hinserts.trans (congrArg some (List.append_assoc ..))

/-- The row of a match is updated where it differs. -/
theorem runAll_update (hfits : m.FitsSchema) (hunique : Statement.Unique rows)
    (hrow : .ofMatch row ∈ rows) (hid : row.id = m.id) : ∃ rows',
      Statement.runAll Row.fits rows (if (m.entity false).toMatchRow = row then []
        else [.update (.ofMatch (m.entity false).toMatchRow)]) = some rows' ∧
      Statement.Unique rows' ∧ .ofMatch (m.entity false).toMatchRow ∈ rows' ∧
      otherRows m.id rows' = otherRows m.id rows ∧
      ∀ r, isParticipantOf m.id r → (r ∈ rows' ↔ r ∈ rows) := by
  split_ifs with hsame
  · exact ⟨rows, rfl, hunique, hsame ▸ hrow, rfl, fun r _ => Iff.rfl⟩
  · have hkey : key (Row.ofMatch (m.entity false).toMatchRow) ∈ rows.map key :=
      List.mem_map.mpr ⟨_, hrow, congrArg Key.ofMatch hid⟩
    have hrun : Statement.run Row.fits rows (.update (.ofMatch (m.entity false).toMatchRow)) =
        some ((rows.filter fun q => key q ≠ .ofMatch m.id) ++
          [.ofMatch (m.entity false).toMatchRow]) := by
      have hrowFits : Row.fits rows (.ofMatch (m.entity false).toMatchRow) = true := hfits.row
      rw [Statement.run, hrowFits, if_neg (by simp), if_pos hkey]
      rfl
    refine ⟨_, by rw [Statement.runAll, hrun]; rfl, Statement.unique_of_run hrun hunique, by simp,
      ?_, fun r hr => ?_⟩
    · rw [otherRows, List.filter_append, List.filter_filter]
      simp only [Row.matchId_ofMatch, Match.entity, List.filter_cons, List.filter_nil, ne_eq,
        not_true, decide_false, Bool.false_eq_true, if_false, List.append_nil, otherRows]
      refine List.filter_congr fun r _ => Bool.eq_iff_iff.mpr ?_
      simp only [Bool.and_eq_true, decide_eq_true_eq]
      cases r <;> simp
    · cases r with
      | ofMatch row => simp [isParticipantOf, Row.participant?] at hr
      | ofParticipant row => simp

/-- The bag that was read is empty when the match has no participant rows. -/
theorem storedParticipants_eq_nil_iff :
    storedParticipants id rows = [] ↔ ∀ r ∈ rows, isParticipantOf id r = false := by
  simp only [storedParticipants, List.map_eq_nil_iff, List.filter_eq_nil_iff, List.mem_filterMap,
    decide_eq_true_eq, forall_exists_index, and_imp]
  constructor
  · intro h r hr
    cases r with
    | ofMatch row => rfl
    | ofParticipant row => simpa [isParticipantOf, Row.participant?] using h row _ hr rfl
  · intro h row r hr hrow
    obtain ⟨_, rfl⟩ | ⟨_, rfl⟩ : (∃ q, r = .ofMatch q) ∨ ∃ q, r = .ofParticipant q := by
      cases r <;> simp
    · simp [Row.participant?] at hrow
    · obtain rfl := Option.some.inj hrow
      simpa [isParticipantOf, Row.participant?] using h _ hr

/-- Deleting the participants of a match leaves its row and the rows of the others. -/
theorem rowsOf_deleted (hunique : Statement.Unique rows) (hrow : .ofMatch row ∈ rows) :
    rowsOf row.id (rows.filter fun r => !isParticipantOf row.id r) = [.ofMatch row] ∧
    otherRows row.id (rows.filter fun r => !isParticipantOf row.id r) = otherRows row.id rows := by
  constructor
  · rw [rowsOf, List.filter_filter, ← hunique.filter_key hrow]
    refine List.filter_congr fun r _ => Bool.eq_iff_iff.mpr ?_
    simp only [Bool.and_eq_true, decide_eq_true_eq, Bool.not_eq_true']
    cases r <;> simp [isParticipantOf, Row.participant?]
  · rw [otherRows, List.filter_filter, otherRows]
    refine List.filter_congr fun r _ => Bool.eq_iff_iff.mpr ?_
    simp only [Bool.and_eq_true, decide_eq_true_eq, Bool.not_eq_true']
    cases r <;> simp [isParticipantOf, Row.participant?]

/-- The flush of a stored match replaces its rows and no others. -/
theorem runAll_flush_stored (hfits : m.FitsSchema) (hunique : Statement.Unique rows)
    (hrow : .ofMatch row ∈ rows) (hid : row.id = m.id) : ∃ rows',
      Statement.runAll Row.fits rows ((m.entity false).flush
        (.mk row (storedParticipants m.id rows) false)) = some rows' ∧
      Replaced m.id m rows rows' := by
  obtain ⟨rows₁, hrun, hunique₁, hrow₁, hothers, hmem⟩ := runAll_update hfits hunique hrow hid
  have hdelete : Statement.runAll Row.fits rows₁ (if storedParticipants m.id rows = [] then []
      else [.delete (isParticipantOf m.id)]) =
        some (rows₁.filter fun r => !isParticipantOf m.id r) := by
    split_ifs with hnone
    · rw [storedParticipants_eq_nil_iff] at hnone
      refine congrArg some (List.filter_eq_self.mpr fun r hr => ?_).symm
      by_contra hpart
      rw [Bool.not_eq_true, Bool.not_eq_false'] at hpart
      simp [hnone r ((hmem r hpart).mp hr)] at hpart
    · rfl
  obtain ⟨hrowsOf, hotherRows⟩ := rowsOf_deleted hunique₁ hrow₁
  have hstored : IsStored m.id (rows₁.filter fun r => !isParticipantOf m.id r) :=
    List.mem_map.mpr ⟨_, List.mem_filter.mpr ⟨hrow₁, rfl⟩, rfl⟩
  have hnew : ∀ p ∈ (m.entity false).participants, Key.ofParticipant m.id p.playerId ∉
      (rows₁.filter fun r => !isParticipantOf m.id r).map key := by
    intro p _ hkey
    obtain ⟨r, hr, hkey⟩ := List.mem_map.mp hkey
    cases r with
    | ofMatch row => simp at hkey
    | ofParticipant row =>
      have hid := (Key.ofParticipant.inj hkey).1
      simpa [isParticipantOf, Row.participant?, hid] using (List.mem_filter.mp hr).2
  have hinserts := runAll_inserts (List.forall_mem_map.mpr hfits.participants)
    (nodup_playerIds hfits false) hstored hnew
  have hflush : (m.entity false).flush (.mk row (storedParticipants m.id rows) false) =
      ((if (m.entity false).toMatchRow = row then []
        else [.update (.ofMatch (m.entity false).toMatchRow)]) ++
      if storedParticipants m.id rows = [] then [] else [.delete (isParticipantOf m.id)]) ++
        (m.entity false).participants.map fun p => .insert (.ofParticipant (p.row m.id)) := by
    simp [flush, Match.entity, participantRows]
  rw [hflush, Statement.runAll_append, Statement.runAll_append, hrun, Option.bind_some, hdelete,
    Option.bind_some]
  refine ⟨_, hinserts, ?_, ?_⟩
  · have hps : rowsOf m.id (m.entity false).participantRows = (m.entity false).participantRows :=
      List.filter_eq_self.mpr fun r hr => by
        obtain ⟨p, -, rfl⟩ := List.mem_map.mp hr
        exact decide_eq_true rfl
    exact (List.filter_append ..).trans (congrArg₂ _ hrowsOf hps)
  · have hps : otherRows m.id (m.entity false).participantRows = [] :=
      List.filter_eq_nil_iff.mpr fun r hr => by
        obtain ⟨p, -, rfl⟩ := List.mem_map.mp hr
        simp [MatchParticipantEmbeddable.row, Match.entity]
    exact (List.filter_append ..).trans
      ((congrArg₂ _ hotherRows hps).trans ((List.append_nil _).trans hothers))

/-! ### Reading an entity back -/

theorem toDomain_fromDomain (p : MatchParticipant) :
    (MatchParticipantEmbeddable.fromDomain p).toDomain = .ok p :=
  bind_eq_ok.mpr ⟨p.role, roleOfWireValue_roleText p.role, rfl⟩

theorem mapM_toDomain_fromDomain (participants : List MatchParticipant) :
    (participants.map MatchParticipantEmbeddable.fromDomain).mapM (·.toDomain) =
      .ok participants :=
  Bag.mapM_eq_ok_iff.mpr (List.forall₂_map_left_iff.mpr
    (List.forall₂_same.mpr fun p _ => toDomain_fromDomain p))

/-- The entity of a match whose players differ becomes a match again. -/
theorem toDomain_isOk (rt : Runtime) (hnodup : (m.participants.map (·.playerId)).Nodup)
    (newEntity : Bool) : ∃ m', (m.entity newEntity).toDomain rt = .ok m' := by
  refine ⟨Match.made rt m.id m.roomCode m.songId m.songTitle m.startedAt m.finishedAt
    m.winnerPlayerId m.endReason m.participants, ?_⟩
  refine bind_eq_ok.mpr ⟨m.endReason, endReasonOfWireValue_endReasonText _, ?_⟩
  refine bind_eq_ok.mpr ⟨m.participants, mapM_toDomain_fromDomain _, ?_⟩
  exact Match.new_eq_ok_iff.mpr ⟨_, _, _, rfl, rfl, rfl, hnodup, rfl⟩

end MatchEntity

/-- The id of a match in samples. -/
def sampleId : JsString := js "6a1f6d1f-3f0e-4c55-9d4f-0b9f8c660a00"

end DanceSync.UsersService
