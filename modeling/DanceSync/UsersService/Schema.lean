import DanceSync.UsersService.RoundTrip

/-!
# What the validator accepts and what the schema holds

The limits of a match are declared twice: as constraints of the request, which measure a text in
UTF-16 code units, and as the columns of `V2__matches.sql`, which measure it in characters. No text
has more characters than code units. The room code is upper-cased between the two, and upper case
may be longer.

## Main definitions

* `MatchEntity.MeetsSchema`: the columns of an entity hold its values.
* `RecordMatchRequest.CanBeStored`: the request becomes a match whose entity meets the schema.

## Main results

* `RecordMatchRequest.canBeStored_iff_characters`: only the room code of a valid request can be too
  long.
* `canBeStored_iff_upper_case_fits`.
-/

namespace DanceSync.UsersService

open Utf16

/-! ### Characters -/

theorem surrogates_iff {u v : UInt16} : (isHighSurrogate u ∧ isLowSurrogate v) ↔
    0xD800 ≤ u ∧ u < 0xDC00 ∧ 0xDC00 ≤ v ∧ v < 0xE000 := by
  rw [isHighSurrogate, isLowSurrogate, decide_eq_true_eq, decide_eq_true_eq, and_assoc]

theorem characters_eq_length_codePoints (s : JsString) : characters s = (codePoints s).length := by
  induction s using codePoints.induct with
  | case1 => rfl
  | case2 u => rfl
  | case3 u v s h ih =>
    rw [characters, if_pos (surrogates_iff.mp h), codePoints, dif_pos h, List.length_cons, ih]
  | case4 u v s h ih =>
    rw [characters, if_neg (mt surrogates_iff.mpr h), codePoints, dif_neg h, List.length_cons, ih]

/-- A text has no more characters than code units. -/
theorem characters_le_length (s : JsString) : characters s ≤ s.length := by
  induction s using characters.induct with
  | case1 => rfl
  | case2 u => rfl
  | case3 u v s h ih =>
    rw [characters, if_pos h, List.length_cons, List.length_cons]
    omega
  | case4 u v s h ih =>
    rw [characters, if_neg h, List.length_cons]
    omega

/-! ### The schema -/

/-- What `V2__matches.sql` asks of the values of an entity: `NOT NULL`, the lengths of the `VARCHAR`
columns, the two `CHECK` lists and the primary key of `match_participants`. -/
structure MatchEntity.MeetsSchema (entity : MatchEntity) : Prop where
  roomCode : ∃ s, entity.roomCode = some s ∧ characters s ≤ 16
  songId : ∀ s ∈ entity.songId, characters s ≤ 64
  songTitle : ∀ s ∈ entity.songTitle, characters s ≤ 200
  startedAt : entity.startedAt.isSome
  finishedAt : entity.finishedAt.isSome
  winnerPlayerId : ∀ s ∈ entity.winnerPlayerId, characters s ≤ 64
  endReason : ∃ s, entity.endReason = some s ∧ characters s ≤ 32 ∧
    s ∈ [js "song-end", js "not-enough-dancers"]
  playerIds : ∀ p ∈ entity.participants, characters p.playerId ≤ 64
  displayNames : ∀ p ∈ entity.participants, characters p.displayName ≤ 64
  roles : ∀ p ∈ entity.participants, characters p.role ≤ 16 ∧ p.role ∈ [js "dancer", js "spectator"]
  nodup : (entity.participants.map fun p => (entity.id, p.playerId)).Nodup

/-- A request becomes a match, and whatever the entity of that match held before, what is written to
it meets the schema. -/
def RecordMatchRequest.CanBeStored (rt : Runtime) (request : RecordMatchRequest) (id : JsString) :
    Prop :=
  ∃ m, request.toDomain rt id = .ok m ∧ ∀ entity : MatchEntity, entity.id = id →
    ∃ stored, entity.replaceWith m = .ok stored ∧ stored.MeetsSchema

section Schema

variable {rt : Runtime} {id : JsString} {request : RecordMatchRequest}

theorem characters_le_of_sizeAtMost {max : ℕ} {s : Option JsString} (h : sizeAtMost max s = true) :
    ∀ t ∈ s, characters t ≤ max := by
  rintro t rfl
  exact (characters_le_length t).trans (by simpa [sizeAtMost] using h)

theorem ReadsAll.characters_le {sent : List (Option Participant)}
    {participants : List MatchParticipant} (h : ReadsAll sent participants)
    (hvalid : ∀ p ∈ sent, p.any Participant.isValid = true) :
    ∀ q ∈ participants, characters q.playerId ≤ 64 ∧ characters q.displayName ≤ 64 := by
  induction h with
  | nil => simp
  | cons hp hrest ih =>
    rw [List.forall_mem_cons] at hvalid ⊢
    refine ⟨?_, ih hvalid.2⟩
    obtain ⟨p, rfl, hp⟩ := hp
    have hvalid := hvalid.1
    simp only [Option.any_some, Participant.isValid, Bool.and_eq_true] at hvalid
    obtain ⟨⟨⟨⟨⟨⟨⟨⟨-, hid⟩, -⟩, hname⟩, -⟩, -⟩, -⟩, -⟩, -⟩ := hvalid
    exact ⟨characters_le_of_sizeAtMost hid _ hp.playerId,
      characters_le_of_sizeAtMost hname _ hp.displayName⟩

theorem roleText_fits (role : ParticipantRole) :
    characters (roleText role) ≤ 16 ∧ roleText role ∈ [js "dancer", js "spectator"] := by
  cases role <;> decide +kernel

theorem endReasonText_fits (reason : BattleEndReason) :
    characters (endReasonText reason) ≤ 32 ∧
      endReasonText reason ∈ [js "song-end", js "not-enough-dancers"] := by
  cases reason <;> decide +kernel

/-- The keys of the participants differ when their players do. -/
theorem nodup_keys_iff {m : Match} {newEntity : Bool} :
    ((m.entity newEntity).participants.map fun p => (m.id, p.playerId)).Nodup ↔
      (m.participants.map (·.playerId)).Nodup := by
  have hpairs := List.nodup_map_iff (l := m.participants.map (·.playerId))
    (Prod.mk_right_injective m.id)
  rw [List.map_map] at hpairs
  rw [Match.entity, List.map_map]
  exact hpairs

/-- Of the values of a valid request, only the room code can be too long. -/
theorem RecordMatchRequest.Values.meetsSchema_iff (values : request.Values)
    (hvalid : request.isValid = true) (newEntity : Bool) :
    ((values.toMatch rt id).entity newEntity).MeetsSchema ↔
      characters (Match.normalizeRoomCode rt values.roomCode) ≤ 16 := by
  obtain ⟨sent, hsent, hreads⟩ := values.participants_eq
  simp only [isValid, Bool.and_eq_true] at hvalid
  obtain ⟨⟨⟨⟨⟨⟨⟨⟨⟨⟨⟨-, -⟩, hsong⟩, htitle⟩, -⟩, -⟩, hwinner⟩, -⟩, -⟩, -⟩, hparticipants⟩, -⟩ :=
    hvalid
  rw [hsent, Option.all_some, List.all_eq_true] at hparticipants
  have hsorted := List.perm_insertionSort (fun a b => Match.resultsOrder a b ≠ .gt)
    values.participants
  have hbounds : ∀ q ∈ (values.toMatch rt id).participants,
      characters q.playerId ≤ 64 ∧ characters q.displayName ≤ 64 := fun q hq =>
    hreads.characters_le hparticipants q (hsorted.mem_iff.mp hq)
  constructor
  · intro h
    obtain ⟨code, hcode, hle⟩ := h.roomCode
    obtain rfl := Option.some.inj hcode
    exact hle
  · intro h
    exact {
      roomCode := ⟨_, rfl, h⟩
      songId := characters_le_of_sizeAtMost hsong
      songTitle := characters_le_of_sizeAtMost htitle
      startedAt := rfl
      finishedAt := rfl
      winnerPlayerId := characters_le_of_sizeAtMost hwinner
      endReason := ⟨_, rfl, endReasonText_fits values.endReason⟩
      playerIds := List.forall_mem_map.mpr fun q hq => (hbounds q hq).1
      displayNames := List.forall_mem_map.mpr fun q hq => (hbounds q hq).2
      roles := List.forall_mem_map.mpr fun q _ => roleText_fits q.role
      nodup := nodup_keys_iff.mpr ((hsorted.map _).nodup_iff.mpr values.nodup) }

/-- A valid request always becomes a match, and the schema holds all of it but, at times, the room
code. -/
theorem RecordMatchRequest.canBeStored_iff_characters (hvalid : request.isValid = true) :
    request.CanBeStored rt id ↔
      ∀ code ∈ request.roomCode, characters (Match.normalizeRoomCode rt code) ≤ 16 := by
  obtain ⟨values⟩ := request.exists_values hvalid
  have hdomain := values.toDomain_self rt id
  have hcode : (∀ code ∈ request.roomCode, characters (Match.normalizeRoomCode rt code) ≤ 16) ↔
      characters (Match.normalizeRoomCode rt values.roomCode) ≤ 16 := by
    rw [values.roomCode_eq]
    simp
  rw [hcode]
  constructor
  · rintro ⟨m, hm, hstored⟩
    obtain rfl := Except.ok.inj (hdomain.symm.trans hm)
    obtain ⟨stored, hreplaced, hmeets⟩ := hstored (.newMatch id) rfl
    obtain rfl := Except.ok.inj ((MatchEntity.replaceWith_eq rfl).symm.trans hreplaced)
    exact (values.meetsSchema_iff hvalid _).mp hmeets
  · intro h
    exact ⟨_, hdomain, fun entity hid => ⟨_, MatchEntity.replaceWith_eq hid,
      (values.meetsSchema_iff hvalid _).mpr h⟩⟩

/-- The characters of the upper case of a text. -/
theorem characters_normalizeRoomCode {mapping : FullCaseMapping}
    (hupper : rt.toUpperCase = mapping.toUpperCase) (code : JsString) :
    characters (Match.normalizeRoomCode rt code) =
      ((codePoints (Match.trim code)).map fun c => (mapping.upper c).length).sum := by
  rw [Match.normalizeRoomCode, hupper, characters_eq_length_codePoints,
    mapping.length_codePoints_toUpperCase]

/-- What the validator accepts can be stored exactly when the upper cases of the characters of the
trimmed room code are together at most 16 characters. -/
theorem canBeStored_iff_upper_case_fits {mapping : FullCaseMapping}
    (hupper : rt.toUpperCase = mapping.toUpperCase) (hvalid : request.isValid = true)
    (id : JsString) : request.CanBeStored rt id ↔ ∀ code ∈ request.roomCode,
      ((codePoints (Match.trim code)).map fun c => (mapping.upper c).length).sum ≤ 16 := by
  rw [RecordMatchRequest.canBeStored_iff_characters hvalid]
  refine forall₂_congr fun code _ => ?_
  rw [characters_normalizeRoomCode hupper]

/-- A room code of sixteen sharp s. -/
def overlongRequest : RecordMatchRequest :=
  { sampleRequest with roomCode := some (List.replicate 16 0xDF) }

theorem canBeStored_iff_upper_case_fits_sampleRequest :
    sampleRequest.CanBeStored sharpSRuntime sampleId :=
  (@canBeStored_iff_upper_case_fits sharpSRuntime sampleRequest sharpSMapping rfl
    (by decide +kernel) sampleId).mpr (by decide +kernel)

/-- It passes the validator, and its upper case has 32 characters. -/
theorem overlongRequest_not_canBeStored :
    sharpSRuntime.toUpperCase = sharpSMapping.toUpperCase ∧ overlongRequest.isValid = true ∧
      ¬overlongRequest.CanBeStored sharpSRuntime sampleId := by
  have hvalid : overlongRequest.isValid = true := by decide +kernel
  refine ⟨rfl, hvalid, ?_⟩
  rw [RecordMatchRequest.canBeStored_iff_characters hvalid]
  decide +kernel

end Schema

theorem varchar_iff {n : ℕ} {s : JsString} : varchar n s = true ↔ characters s ≤ n ∧ 0 ∉ s := by
  rw [varchar, Bool.and_eq_true, decide_eq_true_eq, decide_eq_true_eq]

end DanceSync.UsersService
