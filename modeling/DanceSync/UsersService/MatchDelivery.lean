import DanceSync.Machine.Delivery
import DanceSync.UsersService.RoundTrip
import DanceSync.UsersService.Schema
import DanceSync.UsersService.SingleUpsert

/-!
# Finished battles reach the match history

`RecordMatchResult.ts` and `HttpMatchResultPublisher.ts` on the side of the battles, and
`PUT /api/matches/{id}` of `MatchController.java` over `MatchService.java` and
`MatchPersistenceAdapter.java` on the side of the history. Any number of finished battles are
recorded at once over a network that loses and delays what it carries. The history handles one
request at a time here, as a call of `UpsertRace` that is alone; what requests for one match do to
each other inside the database is the subject of that module.

Recording is tried again after a failure that may pass, and the `PUT` overwrites what an earlier
attempt stored, so a match is stored completely or not at all whatever the network does, also when
an attempt that was given up is handled last.

## Main definitions

* `MatchController.record`: a request in the history.
* `HttpMatchResultPublisher.verdict`, `matchHistory`: the status codes as battles take them.
* `Consistent`: what the tables promise of their rows.

## Main results

* `MatchController.record_storable`, `MatchController.record_refused`: what a request does.
* `match_delivered`: what holds after every run of the network.
-/

namespace DanceSync.UsersService

open ReadCommitted Delivery

/-! ### Requests -/

/-- `PUT /api/matches/{id}` with the JSON of a record: the rows and the status of the response. -/
def MatchController.record (rt : Runtime) (rows : List Row) (record : MatchRecord) :
    List Row × ℕ :=
  match RecordMatchRequest.ofJson record with
  | none => (rows, 400)
  | some request =>
    if request.isValid then
      match request.toDomain rt record.id with
      | .error _ => (rows, 500)
      | .ok m =>
        match MatchPersistenceAdapter.upsert rt rows m with
        | .ok (rows', _) => (rows', 200)
        | .error .dataIntegrityViolation => (rows, 409)
        | .error (.java _) => (rows, 500)
    else (rows, 400)

/-- `publish` resolves, or throws a `MatchPublishError` that is retryable or not. -/
def HttpMatchResultPublisher.verdict (status : ℕ) : Verdict :=
  if 200 ≤ status ∧ status < 300 then .delivered
  else if 500 ≤ status ∨ status = 408 ∨ status = 429 then .passing
  else .refused

/-- The history as the battles see it. -/
def matchHistory (rt : Runtime) : Backend (List Row) MatchRecord ℕ where
  serve := MatchController.record rt
  verdict := HttpMatchResultPublisher.verdict

/-- `Math.max(1, options.attempts ?? 3)` and `options.baseDelayMs ?? 500`. -/
def RecordMatchResult.policy (attempts baseDelayMs : Option ℕ) : Policy where
  attempts := max 1 (attempts.getD 3)
  baseDelay := baseDelayMs.getD 500

/-- The match of a record that the history can store. -/
def Storable (rt : Runtime) (record : MatchRecord) (m : Match) : Prop :=
  ∃ request, RecordMatchRequest.ofJson record = some request ∧ request.isValid = true ∧
    request.toDomain rt record.id = .ok m ∧ m.FitsSchema

/-! ### What the tables promise -/

/-- The keys of the rows differ, and every row meets its constraints: a participant that is stored
has its match. -/
structure Consistent (rows : List Row) : Prop where
  unique : Statement.Unique rows
  fits : ∀ r ∈ rows, Row.fits rows r = true

section Consistent

variable {rt : Runtime} {rows rows' : List Row} {m : Match} {id : JsString}

theorem consistent_nil : Consistent [] where
  unique := List.nodup_nil
  fits := by simp

theorem Consistent.references (h : Consistent rows) : ∀ r ∈ rows, IsStored r.matchId rows := by
  intro r hr
  cases r with
  | ofMatch row => exact List.mem_map_of_mem hr
  | ofParticipant row => exact of_decide_eq_true (Bool.and_eq_true_iff.mp (h.fits _ hr)).2

/-- The constraints of a row speak of the other rows only where its match is concerned. -/
theorem fits_of_fits {r : Row} (h : Row.fits rows r = true) (hstored : IsStored r.matchId rows') :
    Row.fits rows' r = true := by
  cases r with
  | ofMatch row => exact h
  | ofParticipant row =>
    exact Bool.and_eq_true_iff.mpr ⟨(Bool.and_eq_true_iff.mp h).1, decide_eq_true hstored⟩

/-- The rows of a match that fits meet their constraints where its match is stored. -/
theorem fits_of_mem_rows (hfits : m.FitsSchema) (hstored : IsStored m.id rows) {r : Row}
    (hr : r ∈ m.rows) : Row.fits rows r = true := by
  rcases List.mem_cons.mp hr with rfl | hr
  · exact hfits.row
  · obtain ⟨embedded, hembedded, rfl⟩ := List.mem_map.mp hr
    obtain ⟨p, hp, rfl⟩ := List.mem_map.mp hembedded
    exact Bool.and_eq_true_iff.mpr ⟨hfits.participants p hp, decide_eq_true hstored⟩

theorem Consistent.sound (h : Consistent rows) (id : JsString) : Sound id rows where
  unique := h.unique
  references r hr hid := hid ▸ h.references r hr

theorem mem_otherRows_iff {r : Row} : r ∈ otherRows id rows ↔ r ∈ rows ∧ r.matchId ≠ id := by
  rw [otherRows, List.mem_filter, decide_eq_true_iff]

/-- The rows of another match stay. -/
theorem Replaced.rowsOf_of_ne (h : Replaced id m rows rows') {other : JsString} (hne : other ≠ id) :
    rowsOf other rows' = rowsOf other rows := by
  have hother : ∀ rows, rowsOf other (otherRows id rows) = rowsOf other rows := by
    intro rows
    rw [rowsOf, otherRows, List.filter_filter, rowsOf]
    refine List.filter_congr fun r _ => Bool.eq_iff_iff.mpr ?_
    simp only [Bool.and_eq_true, decide_eq_true_eq, and_iff_left_iff_imp]
    rintro rfl
    exact hne
  rw [← hother rows', h.otherRows_eq, hother]

/-- Replacing the rows of a match by those of a document that fits keeps the promises. -/
theorem Consistent.replaced (h : Consistent rows) (hfits : m.FitsSchema)
    (hreplaced : Replaced m.id m rows rows') (hunique : Statement.Unique rows') :
    Consistent rows' where
  unique := hunique
  fits r hr := by
    by_cases hid : r.matchId = m.id
    · refine fits_of_mem_rows hfits (hreplaced.isStored rfl) ?_
      rw [← hreplaced.rowsOf_eq]
      exact List.mem_filter.mpr ⟨hr, decide_eq_true hid⟩
    · have hmem := mem_otherRows_iff.mpr ⟨hr, hid⟩
      rw [hreplaced.otherRows_eq] at hmem
      have hr' := (mem_otherRows_iff.mp hmem).1
      have hstored := h.references r hr'
      refine fits_of_fits (h.fits r hr') ?_
      obtain ⟨row, hrow, hkey⟩ := List.mem_map.mp hstored
      have hother : row ∈ otherRows m.id rows := by
        refine mem_otherRows_iff.mpr ⟨hrow, ?_⟩
        cases row with
        | ofMatch row => exact fun heq => hid ((Key.ofMatch.inj hkey).symm.trans heq)
        | ofParticipant row => simp at hkey
      rw [← hreplaced.otherRows_eq] at hother
      exact List.mem_map.mpr ⟨row, (mem_otherRows_iff.mp hother).1, hkey⟩

end Consistent

/-! ### What a flush accepts -/

section Flush

variable {rt : Runtime} {rows rows' : List Row} {m : Match} {id : JsString}

/-- Participants that were all inserted fit, and their ids differ. -/
theorem fits_of_runAll_inserts {participants : List MatchParticipantEmbeddable}
    (h : Statement.runAll Row.fits rows
      (participants.map fun p => .insert (.ofParticipant (p.row id))) = some rows') :
    (∀ p ∈ participants, p.fits = true ∧ Key.ofParticipant id p.playerId ∉ rows.map key) ∧
      (participants.map (·.playerId)).Nodup := by
  induction participants generalizing rows with
  | nil => simp
  | cons p participants ih =>
    obtain ⟨rows₁, hrun, hrest⟩ := Statement.runAll_cons_eq_some h
    obtain ⟨hall, hnodup⟩ := ih hrest
    simp only [Statement.run, Option.ite_none_right_eq_some, Option.some.injEq] at hrun
    obtain ⟨⟨hfits, hkey⟩, rfl⟩ := hrun
    have hp : p.fits = true := (Bool.and_eq_true_iff.mp hfits).1
    simp only [List.map_append, List.mem_append, not_or] at hall
    refine ⟨List.forall_mem_cons.mpr ⟨⟨hp, hkey⟩, fun q hq => ⟨(hall q hq).1, (hall q hq).2.1⟩⟩,
      List.nodup_cons.mpr ⟨fun hmem => ?_, hnodup⟩⟩
    obtain ⟨q, hq, hid⟩ := List.mem_map.mp hmem
    exact (hall q hq).2.2 (List.mem_singleton.mpr (congrArg (Key.ofParticipant id) hid))

/-- A match whose participants were all inserted. -/
theorem fitsSchema_of_inserts (hrow : (m.entity true).toMatchRow.fits = true)
    (h : Statement.runAll Row.fits rows ((m.entity true).participants.map fun p =>
      .insert (.ofParticipant (p.row m.id))) = some rows') : m.FitsSchema := by
  obtain ⟨hall, hnodup⟩ := fits_of_runAll_inserts h
  refine ⟨hrow, fun p hp => (hall _ (List.mem_map_of_mem hp)).1, ?_⟩
  rwa [Match.entity, List.map_map] at hnodup

/-- A match whose flush breaks no constraint fits. -/
theorem fitsSchema_of_runAll_newMatch {snapshot : MatchEntity}
    (h : Statement.runAll Row.fits rows ((m.entity true).flush snapshot) = some rows') :
    m.FitsSchema := by
  have hflush : (m.entity true).flush snapshot =
      .insert (.ofMatch (m.entity true).toMatchRow) ::
        (m.entity true).participants.map fun p => .insert (.ofParticipant (p.row m.id)) := by
    simp [MatchEntity.flush, Match.entity, MatchEntity.participantRows]
  rw [hflush] at h
  obtain ⟨rows₁, hrun, hrest⟩ := Statement.runAll_cons_eq_some h
  simp only [Statement.run, Option.ite_none_right_eq_some] at hrun
  exact fitsSchema_of_inserts hrun.1.1 hrest

/-- So does one whose flush replaces a row that met the constraints. -/
theorem fitsSchema_of_runAll_stored {row : MatchRow}
    {participants : List MatchParticipantEmbeddable} (hrow : row.fits = true)
    (h : Statement.runAll Row.fits rows ((m.entity false).flush (.mk row participants false)) =
      some rows') : m.FitsSchema := by
  have hflush : (m.entity false).flush (.mk row participants false) =
      ((if (m.entity false).toMatchRow = row then []
        else [.update (.ofMatch (m.entity false).toMatchRow)]) ++
      if participants = [] then [] else [.delete (MatchEntity.isParticipantOf m.id)]) ++
        (m.entity false).participants.map fun p => .insert (.ofParticipant (p.row m.id)) := by
    simp [MatchEntity.flush, Match.entity, MatchEntity.participantRows]
  rw [hflush, Statement.runAll_append, Statement.runAll_append] at h
  obtain ⟨rows₂, hdeleted, hinserts⟩ := Option.bind_eq_some_iff.mp h
  obtain ⟨rows₁, hupdated, -⟩ := Option.bind_eq_some_iff.mp hdeleted
  refine fitsSchema_of_inserts ?_ hinserts
  split_ifs at hupdated with hsame
  · exact hsame ▸ hrow
  · obtain ⟨_, hrun, -⟩ := Statement.runAll_cons_eq_some hupdated
    by_contra hnot
    have hrefused : Row.fits rows (.ofMatch (m.entity false).toMatchRow) = false :=
      Bool.not_eq_true _ ▸ hnot
    rw [Statement.run, hrefused] at hrun
    simp at hrun

theorem unique_of_runAll {statements : List (Statement Row)} (hunique : Statement.Unique rows)
    (h : Statement.runAll Row.fits rows statements = some rows') : Statement.Unique rows' := by
  induction statements generalizing rows with
  | nil => exact Option.some.inj h ▸ hunique
  | cons st statements ih =>
    obtain ⟨rows₁, hrun, hrest⟩ := Statement.runAll_cons_eq_some h
    exact ih (Statement.unique_of_run hrun hunique) hrest

end Flush

/-! ### What a request does -/

section Request

variable {rt : Runtime} {rows rows' : List Row} {m : Match} {record : MatchRecord}

namespace MatchPersistenceAdapter

/-- The row of the match, or none. -/
theorem findForUpdate_cases (rows : List Row) (id : JsString) :
    (¬IsStored id rows ∧ findForUpdate rows id = .newMatch id) ∨
      ∃ row, .ofMatch row ∈ rows ∧ row.id = id ∧
        findForUpdate rows id = .mk row (MatchEntity.storedParticipants id rows) false := by
  rw [findForUpdate]
  cases hfind : rows.find? fun r => key r = .ofMatch id with
  | none =>
    refine Or.inl ⟨fun hstored => ?_, rfl⟩
    obtain ⟨r, hr, hkey⟩ := List.mem_map.mp hstored
    exact absurd (decide_eq_true hkey) (List.find?_eq_none.mp hfind r hr)
  | some r =>
    have hkey : key r = Key.ofMatch id := of_decide_eq_true (List.find?_some hfind :)
    cases r with
    | ofMatch row =>
      exact Or.inr ⟨row, List.mem_of_find?_eq_some hfind, Key.ofMatch.inj hkey, rfl⟩
    | ofParticipant row => simp at hkey

/-- A transaction stores exactly the matches that fit. -/
theorem upsertOnce_cases (rt : Runtime) (hconsistent : Consistent rows) (m : Match) :
    (m.FitsSchema ∧ ∃ rows' stored, upsertOnce rt rows m = .ok (rows', stored) ∧
      Replaced m.id m rows rows' ∧ Consistent rows') ∨
    (¬m.FitsSchema ∧ upsertOnce rt rows m = .error .dataIntegrityViolation) := by
  by_cases hfits : m.FitsSchema
  · left
    refine ⟨hfits, ?_⟩
    have hdone : ∀ {newEntity : Bool} {rows' : List Row},
        (findForUpdate rows m.id).replaceWith m = .ok (m.entity newEntity) →
        Statement.runAll Row.fits rows
          ((m.entity newEntity).flush (findForUpdate rows m.id)) = some rows' →
        Replaced m.id m rows rows' → ∃ rows' stored, upsertOnce rt rows m = .ok (rows', stored) ∧
          Replaced m.id m rows rows' ∧ Consistent rows' := by
      intro newEntity rows' hreplace hrun hreplaced
      obtain ⟨stored, hstored⟩ := MatchEntity.toDomain_isOk rt hfits.nodup newEntity
      exact ⟨rows', stored, by simp only [upsertOnce, hreplace, hrun, hstored], hreplaced,
        hconsistent.replaced hfits hreplaced (unique_of_runAll hconsistent.unique hrun)⟩
    rcases findForUpdate_cases rows m.id with ⟨hnew, hfind⟩ | ⟨row, hrow, hid, hfind⟩
    · have hsound := hconsistent.sound m.id
      refine hdone (hfind ▸ MatchEntity.replaceWith_newMatch)
        (MatchEntity.runAll_flush_newMatch _ hfits hsound hnew) ⟨?_, ?_⟩
      · rw [rowsOf, List.filter_append, ← rowsOf, ← rowsOf, (not_isStored_iff hsound).mp hnew,
          rowsOf_rows, List.nil_append]
      · have hnone : otherRows m.id m.rows = [] :=
          List.filter_eq_nil_iff.mpr fun r hr => by simpa using matchId_of_mem_rows hr
        rw [otherRows, List.filter_append, ← otherRows, ← otherRows, hnone, List.append_nil]
    · obtain ⟨rows', hrun, hreplaced⟩ :=
        MatchEntity.runAll_flush_stored hfits hconsistent.unique hrow hid
      exact hdone (hfind ▸ MatchEntity.replaceWith_stored hid) (hfind ▸ hrun) hreplaced
  · right
    refine ⟨hfits, ?_⟩
    have hnone : ∀ {newEntity : Bool},
        (findForUpdate rows m.id).replaceWith m = .ok (m.entity newEntity) →
        Statement.runAll Row.fits rows
          ((m.entity newEntity).flush (findForUpdate rows m.id)) = none →
        upsertOnce rt rows m = .error .dataIntegrityViolation := by
      intro newEntity hreplace hrun
      simp only [upsertOnce, hreplace, hrun]
    rcases findForUpdate_cases rows m.id with ⟨-, hfind⟩ | ⟨row, hrow, hid, hfind⟩
    · refine hnone (hfind ▸ MatchEntity.replaceWith_newMatch) ?_
      exact Option.eq_none_iff_forall_ne_some.mpr fun rows' hrun =>
        hfits (fitsSchema_of_runAll_newMatch hrun)
    · refine hnone (hfind ▸ MatchEntity.replaceWith_stored hid) ?_
      rw [hfind]
      exact Option.eq_none_iff_forall_ne_some.mpr fun rows' hrun =>
        hfits (fitsSchema_of_runAll_stored (hconsistent.fits _ hrow) hrun)

end MatchPersistenceAdapter

/-- The match of a record has its id. -/
theorem Storable.id_eq (h : Storable rt record m) : m.id = record.id := by
  obtain ⟨request, -, hvalid, hdomain, -⟩ := h
  obtain ⟨values⟩ := request.exists_values hvalid
  rw [← Except.ok.inj ((values.toDomain_self rt record.id).symm.trans hdomain)]
  rfl

namespace MatchController

/-- A record that can be stored replaces the rows of its match. -/
theorem record_storable (hconsistent : Consistent rows) (hstorable : Storable rt record m) :
    ∃ rows', MatchController.record rt rows record = (rows', 200) ∧
      Replaced record.id m rows rows' ∧ Consistent rows' := by
  have hid := hstorable.id_eq
  obtain ⟨request, hbind, hvalid, hdomain, hfits⟩ := hstorable
  rcases MatchPersistenceAdapter.upsertOnce_cases rt hconsistent m with
    ⟨-, rows', stored, honce, hreplaced, hconsistent'⟩ | ⟨hnot, -⟩
  · refine ⟨rows', ?_, hid ▸ hreplaced, hconsistent'⟩
    have hupsert : MatchPersistenceAdapter.upsert rt rows m = .ok (rows', stored) := by
      rw [MatchPersistenceAdapter.upsert, honce]
    simp only [MatchController.record, hbind, hvalid, hdomain, hupsert, if_true]
  · exact absurd hfits hnot

/-- Any other record is refused for good, and the rows stay. -/
theorem record_refused (hconsistent : Consistent rows) (hnone : ∀ m, ¬Storable rt record m) :
    ∃ status, MatchController.record rt rows record = (rows, status) ∧
      HttpMatchResultPublisher.verdict status = .refused := by
  cases hbind : RecordMatchRequest.ofJson record with
  | none => exact ⟨400, by simp only [MatchController.record, hbind], rfl⟩
  | some request =>
    cases hvalid : request.isValid with
    | false =>
      refine ⟨400, ?_, rfl⟩
      simp only [MatchController.record, hbind, hvalid, Bool.false_eq_true, if_false]
    | true =>
      obtain ⟨values⟩ := request.exists_values hvalid
      have hdomain := values.toDomain_self rt record.id
      rcases MatchPersistenceAdapter.upsertOnce_cases rt hconsistent
        (values.toMatch rt record.id) with ⟨hfits, -⟩ | ⟨-, honce⟩
      · exact absurd ⟨request, hbind, hvalid, hdomain, hfits⟩ (hnone _)
      · refine ⟨409, ?_, rfl⟩
        have hupsert : MatchPersistenceAdapter.upsert rt rows (values.toMatch rt record.id) =
            .error .dataIntegrityViolation := by
          rw [MatchPersistenceAdapter.upsert, honce]
        simp only [MatchController.record, hbind, hvalid, hdomain, hupsert, if_true]

end MatchController

end Request

/-! ### What every run leaves -/

section Delivery

variable {ι : Type} {rt : Runtime} {records : ι → MatchRecord} {rows rows' : List Row} {i : ι}

/-- The rows of a record's match are all there, as the match has them. -/
def StoredWhole (rt : Runtime) (record : MatchRecord) (rows : List Row) : Prop :=
  ∃ m, Storable rt record m ∧ rowsOf record.id rows = m.rows

/-- What the history holds while the records reach it. -/
structure Recording (rt : Runtime) (records : ι → MatchRecord) (start rows : List Row) :
    Prop where
  consistent : Consistent rows
  whole : ∀ i, rowsOf (records i).id rows = rowsOf (records i).id start ∨
    StoredWhole rt (records i) rows
  others : ∀ id, (∀ i, (records i).id ≠ id) → rowsOf id rows = rowsOf id start

/-- What a response says of its record. -/
def Answers (rt : Runtime) (record : MatchRecord) (status : ℕ) (rows : List Row) : Prop :=
  match HttpMatchResultPublisher.verdict status with
  | .delivered => StoredWhole rt record rows
  | .passing => False
  | .refused => ∀ m, ¬Storable rt record m

variable (hbattles : ∀ i k, (records i).id = (records k).id → records i = records k)
include hbattles

/-- The match of a record stays as it is, or is stored, when another one is. -/
theorem StoredWhole.replaced {k : ι} {m : Match} (hstorable : Storable rt (records k) m)
    (hreplaced : Replaced (records k).id m rows rows') (i : ι) :
    StoredWhole rt (records i) rows' ∨
      rowsOf (records i).id rows' = rowsOf (records i).id rows := by
  by_cases hid : (records i).id = (records k).id
  · left
    rw [hbattles i k hid]
    exact ⟨m, hstorable, hreplaced.rowsOf_eq⟩
  · exact Or.inr (hreplaced.rowsOf_of_ne hid)

theorem Recording.serve (h : Recording rt records rows rows') (k : ι) :
    Recording rt records rows ((matchHistory rt).serve rows' (records k)).1 := by
  by_cases hstorable : ∃ m, Storable rt (records k) m
  · obtain ⟨m, hm⟩ := hstorable
    obtain ⟨rows₁, hrecord, hreplaced, hconsistent⟩ :=
      MatchController.record_storable h.consistent hm
    simp only [matchHistory, hrecord]
    refine ⟨hconsistent, fun i => ?_, fun id hid => ?_⟩
    · rcases StoredWhole.replaced hbattles hm hreplaced i with hstored | heq
      · exact Or.inr hstored
      · rw [StoredWhole, heq]
        exact h.whole i
    · rw [hreplaced.rowsOf_of_ne (hid k).symm, h.others id hid]
  · obtain ⟨status, hrecord, -⟩ :=
      MatchController.record_refused h.consistent (not_exists.mp hstorable)
    simp only [matchHistory, hrecord]
    exact h

omit hbattles in
theorem answers_serve (hconsistent : Consistent rows) (i : ι) :
    Answers rt (records i) ((matchHistory rt).serve rows (records i)).2
      ((matchHistory rt).serve rows (records i)).1 := by
  by_cases hstorable : ∃ m, Storable rt (records i) m
  · obtain ⟨m, hm⟩ := hstorable
    obtain ⟨rows₁, hrecord, hreplaced, -⟩ := MatchController.record_storable hconsistent hm
    simp only [matchHistory, hrecord]
    exact ⟨m, hm, hreplaced.rowsOf_eq⟩
  · obtain ⟨status, hrecord, hverdict⟩ :=
      MatchController.record_refused hconsistent (not_exists.mp hstorable)
    simp only [matchHistory, hrecord, Answers, hverdict]
    exact not_exists.mp hstorable

theorem Answers.serve {status : ℕ} (hconsistent : Consistent rows)
    (h : Answers rt (records i) status rows) (k : ι) :
    Answers rt (records i) status ((matchHistory rt).serve rows (records k)).1 := by
  rw [Answers] at h ⊢
  cases hverdict : HttpMatchResultPublisher.verdict status <;> simp only [hverdict] at h ⊢
  case refused => exact h
  case delivered =>
    by_cases hstorable : ∃ m, Storable rt (records k) m
    · obtain ⟨m, hm⟩ := hstorable
      obtain ⟨rows₁, hrecord, hreplaced, -⟩ := MatchController.record_storable hconsistent hm
      simp only [matchHistory, hrecord]
      rcases StoredWhole.replaced hbattles hm hreplaced i with hstored | heq
      · exact hstored
      · rwa [StoredWhole, heq]
    · obtain ⟨_, hrecord, -⟩ :=
        MatchController.record_refused hconsistent (not_exists.mp hstorable)
      simp only [matchHistory, hrecord]
      exact h

end Delivery

/-- What holds of a finished battle in every state of the network. -/
structure MatchDelivered {ι : Type} [DecidableEq ι] (rt : Runtime) (policy : Policy)
    (record : MatchRecord) (start : List Row) (n : Network ι (List Row) ℕ) (i : ι) : Prop where
  /-- The match is stored as a whole, or its rows are as they were. -/
  whole : rowsOf record.id n.server = rowsOf record.id start ∨ StoredWhole rt record n.server
  /-- `execute` returns `true` only when the match is stored, and it stays stored. -/
  stored : (n.clients i).phase = .returned true → StoredWhole rt record n.server
  /-- `execute` gives up only after the last attempt, unless the history refuses the document. -/
  exhausted : (n.clients i).phase = .returned false →
    (n.clients i).sent = policy.attempts ∨ ∀ m, ¬Storable rt record m
  attempts : (n.clients i).sent ≤ policy.attempts
  pauses : ∃ k < policy.attempts, (n.clients i).paused = policy.pauses k
  /-- The history handles an attempt at most once. -/
  once : (n.served.filter fun a => a.1 = i).Nodup ∧
    (n.served.filter fun a => a.1 = i).length ≤ (n.clients i).sent

/-- Any number of finished battles are recorded over a network that loses and delays requests and
responses, each with its own attempts. At every moment the rows of each battle are those that were
there before or all of its match; a recording that has succeeded stays; one that has failed used
all its attempts, or its document is not storable; and no other match changes. What the history
does with the next document is what a call of `UpsertRace` does that is alone. A recording goes on
at most twice for each attempt, and until it returns the next attempt or the end of the last one
makes it go on. -/
theorem match_delivered {ι : Type} [DecidableEq ι] (rt : Runtime) (attempts baseDelayMs : Option ℕ)
    (records : ι → MatchRecord)
    (hbattles : ∀ i k, (records i).id = (records k).id → records i = records k)
    (rows : List Row) (hrows : Consistent rows) (moves : List (Move ι)) :
    let policy := RecordMatchResult.policy attempts baseDelayMs
    let network := delivery (matchHistory rt) policy records
    let n := network.run { server := rows } moves
    (∀ i, MatchDelivered rt policy (records i) rows n i) ∧
    (∀ id, (∀ i, (records i).id ≠ id) → rowsOf id n.server = rowsOf id rows) ∧
    Consistent n.server ∧
    (∀ documents i, UpsertRace.AloneUpserts rt n.server documents (i : ι)) ∧
    ∀ i, (network.trace { server := rows } moves).countP (GoesOn i) ≤ 2 * policy.attempts ∧
      ((∀ result, (n.clients i).phase ≠ .returned result) →
        (network.next n (.send i)).clients i ≠ n.clients i ∨
          (network.next n (.fail i)).clients i ≠ n.clients i) := by
  intro policy network n
  have hpos : 0 < policy.attempts := Nat.lt_of_lt_of_le one_pos (le_max_left ..)
  have htracked : Tracked (matchHistory rt) policy n := Tracked.run hpos rows
  have hstart : Vouched (Recording rt records rows) (fun i => Answers rt (records i))
      ({ server := rows } : Network ι (List Row) ℕ) :=
    ⟨⟨hrows, fun _ => Or.inl rfl, fun _ _ => rfl⟩, by simp⟩
  have hvouched : Vouched (Recording rt records rows) (fun i => Answers rt (records i)) n :=
    vouched_run (fun i rows' h => h.serve hbattles i)
      (fun i rows' h => answers_serve h.consistent i)
      (fun i k status rows' h hanswer => hanswer.serve hbattles h.consistent k) hstart moves
  refine ⟨fun i => ?_, hvouched.server.others, hvouched.server.consistent,
    fun documents i => UpsertRace.aloneUpserts rt hvouched.server.consistent.unique documents i,
    fun i => ⟨countP_goesOn_le hpos rows i, goesOn_of_not_returned _ _ _ n i⟩⟩
  exact {
    whole := hvouched.server.whole i
    stored := fun hphase => by
      obtain ⟨k, status, hmem, hverdict⟩ := htracked.grounds i true hphase
      have hanswer := hvouched.responses _ hmem
      simp only [Answers, show HttpMatchResultPublisher.verdict status = .delivered from hverdict]
        at hanswer
      exact hanswer
    exhausted := fun hphase => by
      rcases htracked.grounds i false hphase with hsent | ⟨k, status, hmem, hverdict⟩
      · exact Or.inl hsent
      · have hanswer := hvouched.responses _ hmem
        simp only [Answers, show HttpMatchResultPublisher.verdict status = .refused from hverdict]
          at hanswer
        exact Or.inr hanswer
    attempts := (htracked.clients i).sent_le
    pauses := (htracked.clients i).exists_pauses
    once := ⟨(List.nodup_append.mp htracked.nodup).2.1.filter _, htracked.length_served_le i⟩ }

/-- A battle of two dancers. -/
def sampleRecord : MatchRecord where
  id := sampleId
  roomCode := js "ROOM01"
  songId := none
  songTitle := some (js "Song")
  startedAt := 0
  finishedAt := 60000
  winnerPlayerId := some (js "b")
  endReason := .songEnd
  participants := [
    ⟨js "a", js "Ann", .dancer, some 0, some 2, some 2, some 2, false⟩,
    ⟨js "b", js "Bob", .dancer, some 2, some 1, some 5, some 1, false⟩]

/-- The first attempt times out and is handled last. -/
def lateFirstAttempt : List (Move Unit) :=
  [.send (), .fail (), .send (), .serve ((), 2), .receive (), .serve ((), 1)]

theorem match_delivered_sampleRecord : StoredWhole .ascii sampleRecord
    ((delivery (matchHistory .ascii) (RecordMatchResult.policy none none) fun _ => sampleRecord).run
      { server := [] } lateFirstAttempt).server :=
  ((match_delivered .ascii none none (fun _ => sampleRecord) (fun _ _ _ => rfl) [] consistent_nil
    lateFirstAttempt).1 ()).stored (by decide +kernel)

end DanceSync.UsersService
