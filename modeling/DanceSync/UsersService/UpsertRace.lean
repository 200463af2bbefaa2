import DanceSync.Machine.Run
import DanceSync.Model.Ascii
import DanceSync.UsersService.MatchStore

/-!
# Racing stores of one match

`MatchPersistenceAdapter.upsert`: one transaction locks the row of the match, or finds none, and
flushes the entity; a constraint that is broken rolls it back, and one more transaction is tried.
Any number of calls store documents of one match at once, and a schedule says which of them makes
the next step.

A transaction that found the row holds its lock, and one that inserted it holds its key, so at most
one of them has changes of the match at a time. A call whose insert is refused finds a row in its
second transaction, for nothing deletes it.

## Main definitions

* `Phase`, `Call`, `UpsertRace`, `upsertRace`: the calls, and the machine of their steps.
* `lastCommitted`: the last call of a run that has committed.

## Main results

* `UpsertRace.upsert_wholeDocument`: every call succeeds in at most two transactions, and the rows
  of the match are those of the document that was committed last.
-/

namespace DanceSync.UsersService

open ReadCommitted

/-- What a call may throw. -/
inductive UpsertFailure where
  /-- `DataIntegrityViolationException`. -/
  | dataIntegrityViolation
  | java (exception : JavaException)
  deriving DecidableEq

/-- Where a call is in `upsertOnce`. -/
inductive Phase where
  /-- Before `findForUpdateById`. -/
  | find
  /-- The row was found and is locked; the participants are read when they are cleared. -/
  | found (row : MatchRow)
  /-- In `saveAndFlush`. -/
  | flushing (entity : MatchEntity) (statements : List (Statement Row))
  | returned (result : Except UpsertFailure Match)

/-- A call of `upsert`; `attempt` counts its transactions. -/
structure Call where
  document : Match
  attempt : ℕ := 1
  phase : Phase := .find

/-- The database with all calls; the transactions of a call go by its name. -/
structure UpsertRace (ι : Type) where
  db : Database Key Row ι
  calls : ι → Call

/-- What a step of a call came to. -/
inductive Progress where
  | waiting
  | stepped
  | committed
  /-- The call has returned before. -/
  | idle
  deriving DecidableEq

namespace UpsertRace

variable {ι : Type} [DecidableEq ι] (rt : Runtime) (s : UpsertRace ι) (i : ι)

/-- Call `i` enters a phase and leaves the database as `db`. -/
def enter (db : Database Key Row ι) (phase : Phase) : UpsertRace ι where
  db
  calls := Function.update s.calls i { s.calls i with phase }

/-- `upsertOnce` has thrown: its transaction is rolled back, and `upsert` tries once more after a
first `DataIntegrityViolationException`. -/
def throw (failure : UpsertFailure) : UpsertRace ι where
  db := s.db.rollback i
  calls := Function.update s.calls i
    (if failure = .dataIntegrityViolation ∧ (s.calls i).attempt = 1
    then { s.calls i with attempt := 2, phase := .find }
    else { s.calls i with phase := .returned (.error failure) })

/-- `entity.replaceWith(match)`, with the statements that its flush will send. -/
def replace (db : Database Key Row ι) (snapshot : MatchEntity) : UpsertRace ι :=
  match snapshot.replaceWith (s.calls i).document with
  | .error e => s.throw i (.java e)
  | .ok entity => s.enter i db (.flushing entity (entity.flush snapshot))

/-- The next step of a call. -/
def step : UpsertRace ι × Progress :=
  let id := (s.calls i).document.id
  match (s.calls i).phase with
  | .find =>
    match s.db.selectForUpdate i (.ofMatch id) with
    | .waits => (s, .waiting)
    | .violated => (s.throw i .dataIntegrityViolation, .stepped)
    | .done found db =>
      match found.bind Row.match? with
      | some row => (s.enter i db (.found row), .stepped)
      | none => (s.replace i db (.newMatch id), .stepped)
  | .found row =>
    let participants := MatchEntity.storedParticipants id (s.db.visible i)
    (s.replace i s.db (.mk row participants false), .stepped)
  | .flushing entity (st :: statements) =>
    match st.perform Row.fits i s.db with
    | .waits => (s, .waiting)
    | .violated => (s.throw i .dataIntegrityViolation, .stepped)
    | .done _ db => (s.enter i db (.flushing entity statements), .stepped)
  | .flushing entity [] =>
    match entity.toDomain rt with
    | .error e => (s.throw i (.java e), .stepped)
    | .ok m => (s.enter i (s.db.commit i) (.returned (.ok m)), .committed)
  | .returned _ => (s, .idle)

/-- All calls begin at once on these rows. -/
def start (rows : List Row) (documents : ι → Match) : UpsertRace ι where
  db := { committed := rows }
  calls i := { document := documents i }

/-- The call has returned. -/
def Finished : Prop := ∃ result, (s.calls i).phase = .returned result

end UpsertRace

/-- The machine whose runs are the interleavings of the calls. -/
def upsertRace {ι : Type} [DecidableEq ι] (rt : Runtime) : Machine (UpsertRace ι) ι Progress where
  step s i := s.step rt i

/-- The last call of a run that has committed. -/
def lastCommitted {ι : Type} (events : List (Machine.Event (UpsertRace ι) ι Progress)) : Option ι :=
  ((events.filter fun e => e.output = .committed).getLast?).map (·.input)

/-! ### What a step does -/

/-- A call without changes in the database. -/
def Call.Resting (committed : List Row) (c : Call) : Prop :=
  match c.phase with
  | .find => c.attempt = 1 ∨ c.attempt = 2 ∧ IsStored c.document.id committed
  | .found _ => False
  | .flushing entity statements =>
    c.attempt = 1 ∧ entity = c.document.entity true ∧
      statements = entity.flush (.newMatch c.document.id)
  | .returned result => (c.attempt = 1 ∨ c.attempt = 2) ∧ ∃ m, result = .ok m

theorem Call.Resting.attempt_le {committed : List Row} {c : Call} (h : c.Resting committed) :
    c.attempt ≤ 2 := by
  unfold Call.Resting at h
  split at h
  · rcases h with h | ⟨h, -⟩ <;> omega
  · exact h.elim
  · exact h.1.le.trans one_le_two
  · rcases h.1 with h | h <;> omega

/-- The statements that a call has still to send will leave the rows of its document. -/
def Call.Flushes {ι : Type} [DecidableEq ι] (db : Database Key Row ι) (i : ι) (c : Call) : Prop :=
  match c.phase with
  | .found row => .ofMatch row ∈ db.committed ∧ row.id = c.document.id ∧
      Statement.Unique db.committed ∧ db.visible i = db.committed
  | .flushing entity statements =>
    (∃ newEntity, entity = c.document.entity newEntity) ∧ Statement.Unique (db.visible i) ∧
      ∃ rows, Statement.runAll Row.fits (db.visible i) statements = some rows ∧
        Replaced c.document.id c.document db.committed rows
  | _ => False

/-- A call that alone has claims in the database, one of them on its match. -/
structure Call.Writing {ι : Type} [DecidableEq ι] (db : Database Key Row ι) (i : ι) (c : Call) :
    Prop where
  ownedBy : db.OwnedBy i
  claimed : db.Claimed (.ofMatch c.document.id)
  attempt : c.attempt = 1 ∨ c.attempt = 2
  flushes : c.Flushes db i

theorem Call.Resting.mono {c : Call} {committed committed' : List Row}
    (h : c.Resting committed)
    (hstored : IsStored c.document.id committed → IsStored c.document.id committed') :
    c.Resting committed' := by
  unfold Call.Resting at h ⊢
  cases hphase : c.phase <;> simp only [hphase] at h ⊢
  case find => exact h.imp_right (And.imp_right hstored)
  all_goals exact h

namespace UpsertRace

variable {ι : Type} [DecidableEq ι] {rt : Runtime} {s s' : UpsertRace ι} {i : ι} {id : JsString}
  {progress : Progress}

/-- Call `i` goes on as `c`, and the database becomes `db`. -/
def next (s : UpsertRace ι) (i : ι) (db : Database Key Row ι) (c : Call) : UpsertRace ι where
  db
  calls := Function.update s.calls i c

/-- What a step does: nothing, when the call has returned or another one is writing; it changes
only the call; it goes on with the changes of the call; or it commits them. -/
inductive Stepped (s : UpsertRace ι) (i : ι) : UpsertRace ι → Progress → Prop
  | idle (h : s.Finished i) : Stepped s i s .idle
  | waiting (t : ι) (hne : t ≠ i) (h : (s.calls t).Writing s.db t) : Stepped s i s .waiting
  | rests (c : Call) (hdocument : c.document = (s.calls i).document)
      (h : c.Resting s.db.committed) (hphase : ∀ result, c.phase ≠ .returned result)
      (hbefore : ¬(s.calls i).Writing s.db i) :
      Stepped s i (s.next i s.db c) .stepped
  | writes (db : Database Key Row ι) (c : Call) (hdocument : c.document = (s.calls i).document)
      (hcommitted : db.committed = s.db.committed) (h : c.Writing db i) (howned : s.db.OwnedBy i) :
      Stepped s i (s.next i db c) .stepped
  | commits (db : Database Key Row ι) (c : Call) (hdocument : c.document = (s.calls i).document)
      (h : Replaced c.document.id c.document s.db.committed db.committed)
      (hunique : Statement.Unique db.committed) (hclaims : db.claims = [])
      (hattempt : c.attempt = 1 ∨ c.attempt = 2) (hphase : ∃ m, c.phase = .returned (.ok m))
      (hbefore : (s.calls i).Writing s.db i) :
      Stepped s i (s.next i db c) .committed

/-- What holds in every state of a race of documents for one match, begun on some rows. -/
structure Inv (id : JsString) (documents : ι → Match) (rows : List Row) (s : UpsertRace ι) :
    Prop where
  document : ∀ i, (s.calls i).document = documents i
  sound : Sound id s.db.committed
  otherRows_eq : otherRows id s.db.committed = otherRows id rows
  calls : ∀ i, (s.calls i).Writing s.db i ∨ (s.calls i).Resting s.db.committed
  claims : s.db.claims = [] ∨ ∃ t, (s.calls t).Writing s.db t

/-- A call that is not writing has no claims; when there are any, another call is writing. -/
theorem free_or_writing (hclaims : s.db.claims = [] ∨ ∃ t, (s.calls t).Writing s.db t)
    (hi : ¬(s.calls i).Writing s.db i) : (∀ c ∈ s.db.claims, c.owner ≠ i) ∧
      (s.db.claims = [] ∨ ∃ t, t ≠ i ∧ (s.calls t).Writing s.db t) := by
  rcases hclaims with hnil | ⟨t, ht⟩
  · exact ⟨by simp [hnil], Or.inl hnil⟩
  · have hne : t ≠ i := fun h => hi (h ▸ ht)
    exact ⟨fun c hc heq => hne ((ht.ownedBy c hc).symm.trans heq), Or.inr ⟨t, hne, ht⟩⟩

/-- Nobody has claims when the match can be claimed. -/
theorem ownedBy_of_not_waits (hid : ∀ t, (s.calls t).document.id = id)
    (hfree : s.db.claims = [] ∨ ∃ t, t ≠ i ∧ (s.calls t).Writing s.db t)
    (h : ¬s.db.Waits i (.ofMatch (s.calls i).document.id)) : s.db.OwnedBy i := by
  rcases hfree with hnil | ⟨t, hne, ht⟩
  · exact Database.ownedBy_of_claims_eq_nil hnil
  · have hwaits := ht.claimed.waits ht.ownedBy hne.symm
    rw [hid t, ← hid i] at hwaits
    exact absurd hwaits h

/-- A step of a call that looks for its match. -/
theorem stepped_find (hsound : Sound id s.db.committed) (hid : ∀ t, (s.calls t).document.id = id)
    (hno : ∀ c ∈ s.db.claims, c.owner ≠ i)
    (hfree : s.db.claims = [] ∨ ∃ t, t ≠ i ∧ (s.calls t).Writing s.db t)
    (hphase : (s.calls i).phase = .find) (hi : ¬(s.calls i).Writing s.db i)
    (hrest : (s.calls i).attempt = 1 ∨
      (s.calls i).attempt = 2 ∧ IsStored (s.calls i).document.id s.db.committed) :
    Stepped s i (s.step rt i).1 (s.step rt i).2 := by
  have hvisible := Database.visible_of_no_claim hno
  by_cases hstored : IsStored id s.db.committed
  · have hmem : Key.ofMatch (s.calls i).document.id ∈ (s.db.visible i).map key := by
      rwa [hvisible, hid i]
    obtain ⟨r, hr, hkey, hselect⟩ := Database.selectForUpdate_of_mem hmem
    by_cases hwaits : s.db.Waits i (.ofMatch (s.calls i).document.id)
    · rw [if_pos hwaits] at hselect
      simp only [step, hphase, hselect]
      rcases hfree with hnil | ⟨t, hne, ht⟩
      · exact absurd hwaits (Database.ownedBy_of_claims_eq_nil hnil).not_waits
      · exact .waiting t hne ht
    · have howned := ownedBy_of_not_waits hid hfree hwaits
      obtain ⟨row, rfl⟩ : ∃ row, r = .ofMatch row := by
        cases r with
        | ofMatch row => exact ⟨row, rfl⟩
        | ofParticipant row => simp at hkey
      rw [if_neg hwaits] at hselect
      simp only [step, hphase, hselect, Option.bind_some, Row.match?]
      refine .writes _ { s.calls i with phase := .found row } rfl Database.committed_lock
        ⟨howned.lock, Database.claimed_lock, hrest.imp_right And.left, ?_⟩ howned
      refine ⟨?_, Key.ofMatch.inj hkey, ?_, ?_⟩
      · rwa [Database.committed_lock, ← hvisible]
      · rw [Database.committed_lock]
        exact hsound.unique
      · rw [Database.visible_lock, Database.committed_lock, hvisible]
  · have hmem : Key.ofMatch (s.calls i).document.id ∉ (s.db.visible i).map key := by
      rwa [hvisible, hid i]
    have hfirst : (s.calls i).attempt = 1 := hrest.resolve_right fun h => hstored (hid i ▸ h.2)
    have hreplace := MatchEntity.replaceWith_newMatch (m := (s.calls i).document)
    simp only [step, hphase, Database.selectForUpdate_of_not_mem hmem, Option.bind_none, replace,
      hreplace]
    exact .rests { s.calls i with phase := .flushing _ _ } rfl ⟨hfirst, rfl, rfl⟩ (by simp) hi

/-- A step of a call that inserts its match. -/
theorem stepped_insert (hsound : Sound id s.db.committed)
    (hid : ∀ t, (s.calls t).document.id = id) (hfits : (s.calls i).document.FitsSchema)
    (hno : ∀ c ∈ s.db.claims, c.owner ≠ i)
    (hfree : s.db.claims = [] ∨ ∃ t, t ≠ i ∧ (s.calls t).Writing s.db t)
    (hphase : (s.calls i).phase = .flushing ((s.calls i).document.entity true)
      (((s.calls i).document.entity true).flush (.newMatch (s.calls i).document.id)))
    (hi : ¬(s.calls i).Writing s.db i) (hattempt : (s.calls i).attempt = 1) :
    Stepped s i (s.step rt i).1 (s.step rt i).2 := by
  have hvisible := Database.visible_of_no_claim hno
  have hflush : ((s.calls i).document.entity true).flush (.newMatch (s.calls i).document.id) =
      .insert (.ofMatch ((s.calls i).document.entity true).toMatchRow) ::
        ((s.calls i).document.entity true).participantRows.map .insert := rfl
  have hsound' : Sound (s.calls i).document.id s.db.committed := (hid i).symm ▸ hsound
  have hrow : Row.fits (s.db.visible i)
      (.ofMatch ((s.calls i).document.entity true).toMatchRow) = true := hfits.row
  have hperform := Statement.perform_insert (t := i) hrow
  rw [hflush] at hphase
  by_cases hwaits : s.db.Waits i (.ofMatch (s.calls i).document.id)
  · rw [if_pos (show s.db.Waits i (key _) from hwaits)] at hperform
    simp only [step, hphase, hperform]
    rcases hfree with hnil | ⟨t, hne, ht⟩
    · exact absurd hwaits (Database.ownedBy_of_claims_eq_nil hnil).not_waits
    · exact .waiting t hne ht
  have howned := ownedBy_of_not_waits hid hfree hwaits
  by_cases hstored : IsStored (s.calls i).document.id s.db.committed
  · rw [if_neg (show ¬s.db.Waits i (key _) from hwaits),
      if_pos (show key _ ∈ _ from hvisible ▸ hstored)] at hperform
    have hrollback : s.db.rollback i = s.db := Database.rollback_of_no_claim hno
    simp only [step, hphase, hperform, throw, hrollback, hattempt, and_self, if_true]
    exact .rests { s.calls i with attempt := 2, phase := .find } rfl (Or.inr ⟨rfl, hstored⟩)
      (by simp) hi
  · have hrun := MatchEntity.runAll_flush_newMatch (.newMatch (s.calls i).document.id)
      hfits hsound' hstored
    rw [hflush, ← hvisible] at hrun
    obtain ⟨rows, hfirst, hrest⟩ := Statement.runAll_cons_eq_some hrun
    have hunique : Statement.Unique (s.db.visible i) := hvisible ▸ hsound.unique
    obtain ⟨db, hperform, rfl, howned', hcommitted, -⟩ :=
      Statement.perform_of_ownedBy howned hunique hfirst
    simp only [step, hphase, hperform]
    refine .writes db { s.calls i with phase := .flushing _ _ } rfl hcommitted
      ⟨howned', Statement.claimed_of_insert hperform, Or.inl hattempt, ⟨true, rfl⟩,
        Statement.unique_of_run hfirst hunique, _, hrest, ?_⟩ howned
    have hnone := (not_isStored_iff hsound').mp hstored
    rw [hvisible, hcommitted]
    refine ⟨?_, ?_⟩
    · rw [rowsOf, List.filter_append]
      exact (congrArg₂ _ hnone rowsOf_rows).trans (List.nil_append _)
    · have hothers : otherRows (s.calls i).document.id (s.calls i).document.rows = [] :=
        List.filter_eq_nil_iff.mpr fun r hr => by simp [matchId_of_mem_rows hr]
      rw [otherRows, List.filter_append]
      exact (congrArg₂ _ rfl hothers).trans (List.append_nil _)

/-- A step of a call that is writing. -/
theorem stepped_writing (hfits : (s.calls i).document.FitsSchema)
    (hi : (s.calls i).Writing s.db i) : Stepped s i (s.step rt i).1 (s.step rt i).2 := by
  have hflushes := hi.flushes
  cases hphase : (s.calls i).phase with
  | find | returned => simp [Call.Flushes, hphase] at hflushes
  | found row =>
    simp only [Call.Flushes, hphase] at hflushes
    obtain ⟨hrow, hid, hunique, hvisible⟩ := hflushes
    obtain ⟨rows, hrun, hreplaced⟩ := MatchEntity.runAll_flush_stored hfits hunique hrow hid
    simp only [step, hphase, hvisible, replace, MatchEntity.replaceWith_stored hid]
    refine .writes s.db { s.calls i with phase := .flushing _ _ } rfl rfl
      ⟨hi.ownedBy, hi.claimed, hi.attempt, ⟨false, rfl⟩, ?_, rows, ?_, hreplaced⟩ hi.ownedBy
    · rwa [hvisible]
    · rwa [hvisible]
  | flushing entity statements =>
    simp only [Call.Flushes, hphase] at hflushes
    obtain ⟨⟨newEntity, rfl⟩, hunique, rows, hrun, hreplaced⟩ := hflushes
    cases statements with
    | nil =>
      obtain rfl : s.db.visible i = rows := Option.some.inj hrun
      obtain ⟨m, hm⟩ := MatchEntity.toDomain_isOk rt hfits.nodup newEntity
      simp only [step, hphase, hm]
      exact .commits (s.db.commit i) { s.calls i with phase := .returned (.ok m) } rfl hreplaced
        hunique hi.ownedBy.claims_eq_nil_of_filter hi.attempt ⟨m, rfl⟩ hi
    | cons st statements =>
      obtain ⟨rows₁, hfirst, hrest⟩ := Statement.runAll_cons_eq_some hrun
      obtain ⟨db, hperform, rfl, howned, hcommitted, hclaimed⟩ :=
        Statement.perform_of_ownedBy hi.ownedBy hunique hfirst
      simp only [step, hphase, hperform]
      exact .writes db { s.calls i with phase := .flushing _ statements } rfl hcommitted
        ⟨howned, hclaimed _ hi.claimed, hi.attempt, ⟨newEntity, rfl⟩,
          Statement.unique_of_run hfirst hunique, rows, hrest, hcommitted ▸ hreplaced⟩ hi.ownedBy

variable {documents : ι → Match} {rows : List Row}

/-- The case that a step is. -/
theorem Inv.stepped (rt : Runtime) (hinv : Inv id documents rows s)
    (hid : ∀ i, (documents i).id = id)
    (hfits : ∀ i, (documents i).FitsSchema) (i : ι) :
    Stepped s i (s.step rt i).1 (s.step rt i).2 := by
  have hid' : ∀ t, (s.calls t).document.id = id := fun t => (hinv.document t).symm ▸ hid t
  have hfits' : (s.calls i).document.FitsSchema := (hinv.document i).symm ▸ hfits i
  by_cases hi : (s.calls i).Writing s.db i
  · exact stepped_writing hfits' hi
  have hrest := (hinv.calls i).resolve_left hi
  obtain ⟨hno, hfree⟩ := free_or_writing hinv.claims hi
  cases hphase : (s.calls i).phase with
  | find =>
    simp only [Call.Resting, hphase] at hrest
    exact stepped_find hinv.sound hid' hno hfree hphase hi hrest
  | found row => simp [Call.Resting, hphase] at hrest
  | flushing entity statements =>
    simp only [Call.Resting, hphase] at hrest
    obtain ⟨hattempt, rfl, rfl⟩ := hrest
    exact stepped_insert hinv.sound hid' hfits' hno hfree hphase hi hattempt
  | returned result =>
    simp only [step, hphase]
    exact .idle ⟨result, hphase⟩

/-! ### The invariant -/

/-- Two calls do not write at once. -/
theorem not_writing_of_ownedBy {t : ι} (howned : s.db.OwnedBy i) (hne : t ≠ i) :
    ¬(s.calls t).Writing s.db t := by
  intro ht
  obtain ⟨c, hc, -⟩ := ht.claimed
  exact hne ((ht.ownedBy c hc).symm.trans (howned c hc))

@[simp] theorem next_db {db : Database Key Row ι} {c : Call} : (s.next i db c).db = db := rfl

@[simp] theorem next_calls_self {db : Database Key Row ι} {c : Call} :
    (s.next i db c).calls i = c := Function.update_self ..

theorem next_calls_of_ne {db : Database Key Row ι} {c : Call} {t : ι} (hne : t ≠ i) :
    (s.next i db c).calls t = s.calls t := Function.update_of_ne hne ..

theorem document_next (hinv : Inv id documents rows s) {db : Database Key Row ι} {c : Call}
    (hc : c.document = (s.calls i).document) (t : ι) :
    ((s.next i db c).calls t).document = documents t := by
  by_cases hne : t = i
  · subst hne
    rw [next_calls_self, hc, hinv.document]
  · rw [next_calls_of_ne hne, hinv.document]

theorem Inv.of_stepped (hinv : Inv id documents rows s) (hid : ∀ i, (documents i).id = id)
    (h : Stepped s i s' progress) : Inv id documents rows s' := by
  cases h with
  | idle | waiting => exact hinv
  | rests c hdocument hrest hphase hbefore =>
    refine ⟨document_next hinv hdocument, hinv.sound, hinv.otherRows_eq, fun t => ?_, ?_⟩
    · by_cases hne : t = i
      · subst hne
        exact Or.inr (by simpa using hrest)
      · rw [next_calls_of_ne hne]
        exact hinv.calls t
    · refine hinv.claims.imp_right ?_
      rintro ⟨t, ht⟩
      refine ⟨t, ?_⟩
      rw [next_calls_of_ne fun heq : t = i => hbefore (heq ▸ ht)]
      exact ht
  | writes db c hdocument hcommitted hwriting howned =>
    refine ⟨document_next hinv hdocument, ?_, ?_, fun t => ?_, Or.inr ⟨i, by simpa using hwriting⟩⟩
    · exact (congrArg (Sound id) hcommitted).mpr hinv.sound
    · exact (congrArg (otherRows id) hcommitted).trans hinv.otherRows_eq
    · by_cases hne : t = i
      · subst hne
        exact Or.inl (by simpa using hwriting)
      · rw [next_calls_of_ne hne]
        have hrest := (hinv.calls t).resolve_left (not_writing_of_ownedBy howned hne)
        exact Or.inr (hrest.mono fun h => (congrArg (IsStored _) hcommitted).mpr h)
  | commits db c hdocument hreplaced hunique hclaims hattempt hphase hbefore =>
    have hcid : c.document.id = id := by rw [hdocument, hinv.document, hid]
    have hstored : IsStored id db.committed := hcid ▸ hreplaced.isStored rfl
    refine ⟨document_next hinv hdocument, ⟨hunique, fun r _ _ => hstored⟩, ?_, fun t => ?_,
      Or.inl hclaims⟩
    · rw [hcid] at hreplaced
      exact hreplaced.otherRows_eq.trans hinv.otherRows_eq
    · by_cases hne : t = i
      · subst hne
        obtain ⟨m, hm⟩ := hphase
        refine Or.inr ?_
        rw [next_calls_self, Call.Resting, hm]
        exact ⟨hattempt, m, rfl⟩
      · rw [next_calls_of_ne hne]
        have hrest := (hinv.calls t).resolve_left (not_writing_of_ownedBy hbefore.ownedBy hne)
        refine Or.inr (hrest.mono fun _ => ?_)
        rw [hinv.document, hid]
        exact hstored

theorem inv_start (hsound : Sound id rows) : Inv id documents rows (.start rows documents) where
  document _ := rfl
  sound := hsound
  otherRows_eq := rfl
  calls _ := Or.inr (Or.inl rfl)
  claims := Or.inl rfl

theorem inv_run (rt : Runtime) (hsound : Sound id rows) (hid : ∀ i, (documents i).id = id)
    (hfits : ∀ i, (documents i).FitsSchema) (schedule : List ι) :
    Inv id documents rows ((upsertRace rt).run (.start rows documents) schedule) :=
  Machine.run_invariant (fun e he hinv => by
    rw [Machine.event_of_mem_trace he]
    exact hinv.of_stepped hid (hinv.stepped rt hid hfits e.input)) (inv_start hsound)

/-! ### Calls end -/

/-- A call made a step. -/
def moved (progress : Progress) : Bool := progress = .stepped ∨ progress = .committed

theorem Stepped.moved_or (h : Stepped s i s' progress) : moved progress = true ∨ s.Finished i ∨
    ∃ t, t ≠ i ∧ (s.calls t).Writing s.db t := by
  cases h with
  | idle h => exact Or.inr (Or.inl h)
  | waiting t hne h => exact Or.inr (Or.inr ⟨t, hne, h⟩)
  | rests | writes | commits => exact Or.inl rfl

/-- While some call has not returned, some call makes a step. -/
theorem Inv.exists_moved (hinv : Inv id documents rows s) (hid : ∀ i, (documents i).id = id)
    (hfits : ∀ i, (documents i).FitsSchema) (hi : ¬s.Finished i) :
    ∃ t, moved (s.step rt t).2 = true := by
  have hmoved : ∀ t, ¬s.Finished t → (∀ u, u ≠ t → ¬(s.calls u).Writing s.db u) →
      moved (s.step rt t).2 = true := by
    intro t hfinished hnone
    rcases (hinv.stepped rt hid hfits t).moved_or with hmoved | hfin | ⟨u, hne, hu⟩
    · exact hmoved
    · exact absurd hfin hfinished
    · exact absurd hu (hnone u hne)
  rcases hinv.claims with hnil | ⟨t, ht⟩
  · refine ⟨i, hmoved i hi fun u _ hu => ?_⟩
    obtain ⟨c, hc, -⟩ := hu.claimed
    simp [hnil] at hc
  · refine ⟨t, hmoved t ?_ fun u hne => not_writing_of_ownedBy ht.ownedBy hne⟩
    rintro ⟨result, hphase⟩
    simpa [Call.Flushes, hphase] using ht.flushes

/-- More than the steps that a call can still make. -/
def weight (c : Call) : ℕ :=
  let n := c.document.participants.length
  let retry := if c.attempt = 1 then n + 6 else 0
  match c.phase with
  | .find => retry + n + 5
  | .found _ => retry + n + 4
  | .flushing _ statements => retry + statements.length + 1
  | .returned _ => 0

theorem length_flush_le {m : Match} {entity snapshot : MatchEntity}
    (h : snapshot.replaceWith m = .ok entity) :
    (entity.flush snapshot).length ≤ m.participants.length + 2 := by
  obtain ⟨-, -, hentity⟩ := bind_eq_ok.mp h
  obtain rfl := pure_eq_ok.mp hentity
  simp only [MatchEntity.flush, MatchEntity.participantRows]
  split_ifs <;> simp

/-- A transaction that is rolled back brings its call closer to its end. -/
theorem weight_throw (failure : UpsertFailure) (hphase : ¬s.Finished i) :
    weight ((s.throw i failure).calls i) < weight (s.calls i) := by
  have hpos : (if (s.calls i).attempt = 1 then (s.calls i).document.participants.length + 6
      else 0) + 1 ≤ weight (s.calls i) := by
    cases h : (s.calls i).phase with
    | returned result => exact absurd ⟨result, h⟩ hphase
    | find | found | flushing =>
      simp only [weight, h]
      omega
  simp only [throw, Function.update_self]
  by_cases hretry : failure = .dataIntegrityViolation ∧ (s.calls i).attempt = 1
  · have hfind : weight { s.calls i with attempt := 2, phase := .find } =
        (s.calls i).document.participants.length + 5 := by simp [weight]
    rw [if_pos hretry, hfind]
    rw [if_pos hretry.2] at hpos
    omega
  · rw [if_neg hretry]
    exact (Nat.le_add_left ..).trans hpos

theorem weight_replace {db : Database Key Row ι} {snapshot : MatchEntity}
    (hphase : (s.calls i).phase = .find ∨ ∃ row, (s.calls i).phase = .found row) :
    weight ((s.replace i db snapshot).calls i) < weight (s.calls i) := by
  unfold replace
  split
  next => 
    refine weight_throw _ ?_
    rintro ⟨result, h⟩
    rcases hphase with hphase | ⟨row, hphase⟩ <;> simp [hphase] at h
  next entity hentity =>
    have hlength := length_flush_le hentity
    simp only [enter, Function.update_self]
    rcases hphase with hphase | ⟨row, hphase⟩ <;> simp only [weight, hphase] <;> omega

/-- A step of a call brings it closer to its end. -/
theorem weight_step (hmoved : moved (s.step rt i).2 = true) :
    weight ((s.step rt i).1.calls i) < weight (s.calls i) := by
  cases hphase : (s.calls i).phase with
  | returned result => simp [step, hphase, moved] at hmoved
  | found row =>
    simp only [step, hphase]
    exact weight_replace (Or.inr ⟨row, hphase⟩)
  | find =>
    have hthrow := weight_throw (s := s) (i := i) .dataIntegrityViolation
      (by simp [Finished, hphase])
    simp only [step, hphase] at hmoved ⊢
    split
    next hselect => simp [hselect, moved] at hmoved
    next => exact hthrow
    next =>
      split
      next row _ =>
        simp only [enter, Function.update_self, weight, hphase]
        omega
      next => exact weight_replace (Or.inl hphase)
  | flushing entity statements =>
    have hthrow := fun failure => weight_throw (s := s) (i := i) failure
      (by simp [Finished, hphase])
    cases statements with
    | nil =>
      simp only [step, hphase]
      split
      next => exact hthrow _
      next =>
        simp only [enter, Function.update_self, weight, hphase]
        omega
    | cons st statements =>
      simp only [step, hphase] at hmoved ⊢
      split
      next hperform => simp [hperform, moved] at hmoved
      next => exact hthrow _
      next =>
        simp only [enter, Function.update_self, weight, hphase, List.length_cons]
        omega

/-- A step changes no other call. -/
theorem step_calls_of_ne {t : ι} (hne : t ≠ i) : (s.step rt i).1.calls t = s.calls t := by
  have henter : ∀ db phase, (s.enter i db phase).calls t = s.calls t := fun _ _ =>
    Function.update_of_ne hne ..
  have hthrow : ∀ failure, (s.throw i failure).calls t = s.calls t := fun _ =>
    Function.update_of_ne hne ..
  have hreplace : ∀ db snapshot, (s.replace i db snapshot).calls t = s.calls t := by
    intro db snapshot
    unfold replace
    split
    · exact hthrow _
    · exact henter _ _
  unfold step
  simp only
  split
  · split
    · rfl
    · exact hthrow _
    · split
      · exact henter _ _
      · exact hreplace _ _
  · exact hreplace _ _
  · split
    · rfl
    · exact hthrow _
    · exact henter _ _
  · split
    · exact hthrow _
    · exact henter _ _
  · rfl

theorem step_of_not_moved (h : moved (s.step rt i).2 = false) : (s.step rt i).1 = s := by
  revert h
  unfold step
  simp only
  repeat' split
  all_goals simp [moved]

/-- Only so many steps are made. -/
theorem countP_moved_le [Fintype ι] (schedule : List ι) :
    ((upsertRace rt).trace s schedule).countP (fun e => moved e.output) ≤
      ∑ i, weight (s.calls i) := by
  have hlt : ∀ (s : UpsertRace ι) i, moved (s.step rt i).2 = true →
      ∑ t, weight ((s.step rt i).1.calls t) < ∑ t, weight (s.calls t) := by
    intro s i hmoved
    refine Finset.sum_lt_sum (fun t _ => ?_) ⟨i, Finset.mem_univ i, weight_step hmoved⟩
    by_cases hne : t = i
    · exact hne ▸ (weight_step hmoved).le
    · exact (congrArg weight (step_calls_of_ne hne)).le
  refine Machine.countP_trace_le (fun s : UpsertRace ι => ∑ i, weight (s.calls i))
    (fun e he hmoved => ?_)
    fun e he => ?_
  · rw [Machine.event_of_mem_trace he] at hmoved ⊢
    exact hlt _ _ hmoved
  · rw [Machine.event_of_mem_trace he]
    by_cases hmoved : moved ((e.before.step rt e.input).2) = true
    · exact (hlt _ _ hmoved).le
    · exact (congrArg (fun s : UpsertRace ι => ∑ i, weight (s.calls i))
        (step_of_not_moved (Bool.not_eq_true _ ▸ hmoved))).le

/-! ### The document that was committed last -/

omit [DecidableEq ι] in
theorem lastCommitted_append (events : List (Machine.Event (UpsertRace ι) ι Progress))
    (e : Machine.Event (UpsertRace ι) ι Progress) : lastCommitted (events ++ [e]) =
      if e.output = .committed then some e.input else lastCommitted events := by
  unfold lastCommitted
  rw [List.filter_append]
  by_cases h : e.output = .committed <;> simp [h]

theorem Stepped.rowsOf_eq (hinv : Inv id documents rows s) (hid : ∀ i, (documents i).id = id)
    (h : Stepped s i s' progress) : rowsOf id s'.db.committed =
      if progress = .committed then (documents i).rows else rowsOf id s.db.committed := by
  cases h with
  | idle | waiting | rests => rfl
  | writes db c hdocument hcommitted hwriting howned => exact congrArg (rowsOf id) hcommitted
  | commits db c hdocument hreplaced =>
    rw [hdocument, hinv.document, hid] at hreplaced
    exact hreplaced.rowsOf_eq

/-- A call returns only when it commits. -/
theorem Stepped.finished (h : Stepped s i s' progress) {t : ι} (ht : s'.Finished t) :
    s.Finished t ∨ progress = .committed := by
  cases h with
  | idle | waiting => exact Or.inl ht
  | commits => exact Or.inr rfl
  | rests c hdocument hrest hphase =>
    obtain ⟨result, hresult⟩ := ht
    by_cases hne : t = i
    · subst hne
      rw [next_calls_self] at hresult
      exact absurd hresult (hphase result)
    · rw [next_calls_of_ne hne] at hresult
      exact Or.inl ⟨result, hresult⟩
  | writes db c hdocument hcommitted hwriting =>
    obtain ⟨result, hresult⟩ := ht
    by_cases hne : t = i
    · subst hne
      rw [next_calls_self] at hresult
      simpa [Call.Flushes, hresult] using hwriting.flushes
    · rw [next_calls_of_ne hne] at hresult
      exact Or.inl ⟨result, hresult⟩

/-- The rows of the match are those of the document that was committed last, or as they were; once
a call has returned, one was committed. -/
theorem rowsOf_run (rt : Runtime) (hsound : Sound id rows) (hid : ∀ i, (documents i).id = id)
    (hfits : ∀ i, (documents i).FitsSchema) (schedule : List ι) :
    let s := (upsertRace rt).run (.start rows documents) schedule
    let last := lastCommitted ((upsertRace rt).trace (.start rows documents) schedule)
    (rowsOf id s.db.committed = last.elim (rowsOf id rows) fun i => (documents i).rows) ∧
      ∀ i, s.Finished i → last.isSome := by
  induction schedule using List.reverseRecOn with
  | nil =>
    refine ⟨rfl, ?_⟩
    rintro i ⟨result, h⟩
    simp [start] at h
  | append_singleton schedule i ih =>
    obtain ⟨hrows, hfinished⟩ := ih
    have hinv := inv_run rt hsound hid hfits schedule
    have hstep := hinv.stepped rt hid hfits i
    have houtput : ((upsertRace rt).event ((upsertRace rt).run (.start rows documents)
        schedule) i).output =
        (((upsertRace rt).run (.start rows documents) schedule).step rt i).2 :=
      rfl
    simp only [Machine.run_append, Machine.trace_append, Machine.run_cons, Machine.run_nil,
      Machine.trace_cons, Machine.trace_nil, lastCommitted_append, houtput]
    refine ⟨(hstep.rowsOf_eq hinv hid).trans ?_, fun t ht => ?_⟩
    · split_ifs
      · rfl
      · exact hrows
    · rcases hstep.finished ht with ht | hcommitted
      · split_ifs
        · rfl
        · exact hfinished t ht
      · rw [if_pos hcommitted, Option.isSome_some]

/-- What a run of racing calls came to: its calls, its state and its events. -/
structure Outcome [Fintype ι] (rt : Runtime) (id : JsString) (rows : List Row)
    (documents : ι → Match) (s : UpsertRace ι)
    (events : List (Machine.Event (UpsertRace ι) ι Progress)) : Prop where
  /-- No call fails. -/
  succeeds : ∀ i result, (s.calls i).phase = .returned result → ∃ m, result = .ok m
  /-- A call runs at most two transactions. -/
  attempts : ∀ i, (s.calls i).attempt ≤ 2
  /-- While a call has not returned, some call can make a step. -/
  goesOn : ∀ i, ¬s.Finished i → ∃ t, moved (s.step rt t).2 = true
  /-- There are only so many steps, so all calls return. -/
  ends : events.countP (fun e => moved e.output) ≤
    ∑ i, (2 * (documents i).participants.length + 11)
  /-- Once a call has returned, the match has one row, with the columns and the participants of the
  document that was committed last. -/
  whole : ∀ i, s.Finished i → ∃ t, lastCommitted events = some t ∧
    rowsOf id s.db.committed = (documents t).rows
  /-- Before the first commit, the rows of the match are as they were. -/
  before : lastCommitted events = none → rowsOf id s.db.committed = rowsOf id rows
  /-- Other matches are left alone. -/
  others : otherRows id s.db.committed = otherRows id rows

/-- Racing stores of one match all succeed and leave one whole document. -/
theorem upsert_wholeDocument [Fintype ι] (rt : Runtime) (id : JsString) (rows : List Row)
    (documents : ι → Match) (hsound : Sound id rows) (hid : ∀ i, (documents i).id = id)
    (hfits : ∀ i, (documents i).FitsSchema) (schedule : List ι) :
    Outcome rt id rows documents ((upsertRace rt).run (.start rows documents) schedule)
      ((upsertRace rt).trace (.start rows documents) schedule) := by
  have hinv := inv_run rt hsound hid hfits schedule
  obtain ⟨hrows, hfinished⟩ := rowsOf_run rt hsound hid hfits schedule
  refine
    { succeeds := fun i result hphase => ?_
      attempts := fun i => ?_
      goesOn := fun i hi => hinv.exists_moved hid hfits hi
      ends := ?_
      whole := fun i hi => ?_
      before := fun hnone => ?_
      others := hinv.otherRows_eq }
  · rcases hinv.calls i with hwriting | hrest
    · simpa [Call.Flushes, hphase] using hwriting.flushes
    · simp only [Call.Resting, hphase] at hrest
      exact hrest.2
  · rcases hinv.calls i with hwriting | hrest
    · exact hwriting.attempt.elim (by omega) (by omega)
    · exact hrest.attempt_le
  · refine (countP_moved_le schedule).trans (Finset.sum_le_sum fun i _ => ?_)
    simp only [weight, start, if_true]
    omega
  · obtain ⟨t, ht⟩ := Option.isSome_iff_exists.mp (hfinished i hi)
    refine ⟨t, ht, hrows.trans ?_⟩
    rw [ht, Option.elim_some]
  · refine hrows.trans ?_
    rw [hnone, Option.elim_none]

/-- Two documents of one match, with one dancer each. -/
def sampleDocuments (i : Fin 2) : Match where
  id := sampleId
  roomCode := js "ABCD"
  songId := none
  songTitle := none
  startedAt := 0
  finishedAt := 90000
  winnerPlayerId := none
  endReason := .songEnd
  participants := [{
    playerId := if i = 0 then js "ana" else js "bob"
    displayName := js "Dancer"
    role := .dancer
    votes := some 1
    wordsWon := some 0
    score := some 1
    rank := some 1
    leftEarly := false }]

/-- Both calls find no row. The first one inserts its match and commits, while the second one waits
to insert its own; its insert is refused, and it replaces the match in its second transaction. -/
def sampleSchedule : List (Fin 2) := [0, 1, 0, 1, 0, 0, 1, 1, 1, 1, 1, 1]

theorem upsert_wholeDocument_sample : Outcome .ascii sampleId [] sampleDocuments
    ((upsertRace .ascii).run (.start [] sampleDocuments) sampleSchedule)
    ((upsertRace .ascii).trace (.start [] sampleDocuments) sampleSchedule) :=
  upsert_wholeDocument .ascii sampleId [] sampleDocuments ⟨List.nodup_nil, by simp⟩
    (fun _ => rfl) (fun i => by
      refine ⟨?_, ?_, List.nodup_singleton _⟩ <;> fin_cases i <;> decide +kernel) sampleSchedule

example : lastCommitted ((upsertRace .ascii).trace (.start [] sampleDocuments) sampleSchedule) =
      some 1 ∧
    (((upsertRace .ascii).run (.start [] sampleDocuments) sampleSchedule).calls 1).attempt = 2 := by
  decide +kernel

end UpsertRace

end DanceSync.UsersService
