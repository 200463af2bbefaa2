import DanceSync.UsersService.UpsertRace

/-!
# A store of one match with nobody else

`MatchPersistenceAdapter.upsert` as a function of the stored rows: one transaction, and another one
after a constraint that was broken. It is what a call comes to among the racing ones when no other
call makes a step.

## Main definitions

* `MatchPersistenceAdapter.upsertOnce`, `MatchPersistenceAdapter.upsert`.
* `UpsertRace.Advances`, `UpsertRace.AloneUpserts`: the steps of one call.

## Main results

* `Statement.perform_of_run_eq_none`: a statement that breaks a constraint.
* `UpsertRace.aloneUpserts`: a call that is alone does what `upsert` says.
-/

namespace DanceSync

namespace ReadCommitted

/-- A single writer's statement that breaks a constraint is refused. -/
theorem Statement.perform_of_run_eq_none {κ ρ τ : Type} [Keyed ρ κ] [DecidableEq κ] [DecidableEq τ]
    {fits : Constraints ρ} {db : Database κ ρ τ} {t : τ} {st : Statement ρ} (howned : db.OwnedBy t)
    (h : st.run fits (db.visible t) = none) : st.perform fits t db = .violated := by
  cases st with
  | insert r =>
    simp only [Statement.run, ite_eq_right_iff, reduceCtorEq, imp_false, not_and, not_not] at h
    by_cases hfits : fits (db.visible t) r = true
    · simp only [Statement.perform, hfits, Bool.not_true, Bool.false_eq_true, if_false,
        if_neg howned.not_waits, if_pos (h hfits)]
    · simp [Statement.perform, hfits]
  | update r =>
    have hfits : (!fits (db.visible t) r) = true := by
      simp only [Statement.run] at h
      split_ifs at h with hfits
      exact hfits
    simp only [Statement.perform, hfits, if_true]
  | delete p => cases h

end ReadCommitted

namespace UsersService

open ReadCommitted

/-! ### One call -/

namespace MatchPersistenceAdapter

/-- The entity that `findForUpdateById` finds, with the participants it reads, or a new one. -/
def findForUpdate (rows : List Row) (id : JsString) : MatchEntity :=
  match (rows.find? fun r => key r = .ofMatch id).bind Row.match? with
  | some row => .mk row (MatchEntity.storedParticipants id rows) false
  | none => .newMatch id

/-- One transaction; what it throws rolls it back. -/
def upsertOnce (rt : Runtime) (rows : List Row) (m : Match) :
    Except UpsertFailure (List Row × Match) :=
  let snapshot := findForUpdate rows m.id
  match snapshot.replaceWith m with
  | .error e => .error (.java e)
  | .ok entity =>
    match Statement.runAll Row.fits rows (entity.flush snapshot) with
    | none => .error .dataIntegrityViolation
    | some rows' =>
      match entity.toDomain rt with
      | .error e => .error (.java e)
      | .ok stored => .ok (rows', stored)

def upsert (rt : Runtime) (rows : List Row) (m : Match) :
    Except UpsertFailure (List Row × Match) :=
  match upsertOnce rt rows m with
  | .error .dataIntegrityViolation => upsertOnce rt rows m
  | result => result

end MatchPersistenceAdapter

open MatchPersistenceAdapter

namespace UpsertRace

variable {ι : Type} [DecidableEq ι] {rt : Runtime} {s s' s'' : UpsertRace ι} {i : ι}
  {db : Database Key Row ι} {phase : Phase}

/-- Some steps of call `i` lead from one state to another. -/
def Advances (rt : Runtime) (i : ι) (s s' : UpsertRace ι) : Prop :=
  ∃ n, (upsertRace rt).run s (List.replicate n i) = s'

theorem Advances.refl : Advances rt i s s := ⟨0, rfl⟩

theorem Advances.step (h : Advances rt i (s.step rt i).1 s') : Advances rt i s s' := by
  obtain ⟨n, hrun⟩ := h
  exact ⟨n + 1, hrun⟩

theorem Advances.trans (h : Advances rt i s s') (h' : Advances rt i s' s'') :
    Advances rt i s s'' := by
  obtain ⟨n, rfl⟩ := h
  obtain ⟨k, rfl⟩ := h'
  exact ⟨n + k, by rw [List.replicate_add, Machine.run_append]⟩

@[simp] theorem enter_enter (db' : Database Key Row ι) (phase' : Phase) :
    (s.enter i db phase).enter i db' phase' = s.enter i db' phase' := by
  simp [enter]

@[simp] theorem db_enter : (s.enter i db phase).db = db := rfl

@[simp] theorem calls_enter_self :
    (s.enter i db phase).calls i = { s.calls i with phase } := Function.update_self ..

/-- A transaction that throws leaves nothing behind. -/
theorem throw_enter (hs : s.db.claims = []) (howned : db.OwnedBy i)
    (hcommitted : db.committed = s.db.committed) (failure : UpsertFailure) :
    (s.enter i db phase).throw i failure = s.throw i failure := by
  have hrollback : db.rollback i = s.db.rollback i := by
    rw [Database.rollback, Database.rollback, howned.claims_eq_nil_of_filter, hcommitted, hs]
    rfl
  simp [throw, hrollback, enter]

/-- The statements of a transaction that alone has claims are all done, or one breaks a
constraint. -/
theorem flush_advances (rt : Runtime) (hs : s.db.claims = []) (entity : MatchEntity)
    (statements : List (Statement Row)) (howned : db.OwnedBy i)
    (hcommitted : db.committed = s.db.committed) (hunique : Statement.Unique (db.visible i)) :
    (∀ rows, Statement.runAll Row.fits (db.visible i) statements = some rows →
      ∃ db', db'.visible i = rows ∧ db'.OwnedBy i ∧ db'.committed = s.db.committed ∧
        Advances rt i (s.enter i db (.flushing entity statements))
          (s.enter i db' (.flushing entity []))) ∧
    (Statement.runAll Row.fits (db.visible i) statements = none →
      Advances rt i (s.enter i db (.flushing entity statements))
        (s.throw i .dataIntegrityViolation)) := by
  induction statements generalizing db with
  | nil =>
    refine ⟨fun rows hrows => ⟨db, Option.some.inj hrows, howned, hcommitted, .refl⟩, ?_⟩
    rintro ⟨⟩
  | cons st statements ih =>
    cases hrun : st.run Row.fits (db.visible i) with
    | none =>
      have hperform := Statement.perform_of_run_eq_none howned hrun
      simp only [Statement.runAll, hrun, Option.bind_none]
      refine ⟨by rintro rows ⟨⟩, fun _ => .step ?_⟩
      have hstep : ((s.enter i db (.flushing entity (st :: statements))).step rt i).1 =
          s.throw i .dataIntegrityViolation := by
        simp only [step, calls_enter_self, db_enter, hperform]
        exact throw_enter hs howned hcommitted _
      rw [hstep]
      exact .refl
    | some rows₁ =>
      obtain ⟨db₁, hperform, rfl, howned₁, hcommitted₁, -⟩ :=
        Statement.perform_of_ownedBy howned hunique hrun
      have hstep : ((s.enter i db (.flushing entity (st :: statements))).step rt i).1 =
          s.enter i db₁ (.flushing entity statements) := by
        simp only [step, calls_enter_self, db_enter, hperform, enter_enter]
      obtain ⟨hdone, hnone⟩ := ih howned₁ (hcommitted₁.trans hcommitted)
        (Statement.unique_of_run hrun hunique)
      simp only [Statement.runAll, hrun, Option.bind_some]
      refine ⟨fun rows hrows => ?_, fun hrows => .step (hstep ▸ hnone hrows)⟩
      obtain ⟨db', hvisible, howned', hcommitted', hadvances⟩ := hdone rows hrows
      exact ⟨db', hvisible, howned', hcommitted', .step (hstep ▸ hadvances)⟩

/-- What a transaction leaves. -/
def settled (s : UpsertRace ι) (i : ι) (result : Except UpsertFailure (List Row × Match)) :
    UpsertRace ι :=
  match result with
  | .ok (rows, stored) => s.enter i { committed := rows } (.returned (.ok stored))
  | .error failure => s.throw i failure

/-- A transaction that commits or is rolled back. -/
theorem commit_advances (rt : Runtime) (hs : s.db.claims = []) (howned : db.OwnedBy i)
    (hcommitted : db.committed = s.db.committed) (hvisible : db.visible i = s.db.committed)
    (hunique : Statement.Unique s.db.committed) (entity : MatchEntity)
    (statements : List (Statement Row)) :
    Advances rt i (s.enter i db (.flushing entity statements))
      (match Statement.runAll Row.fits s.db.committed statements with
      | none => s.throw i .dataIntegrityViolation
      | some rows => match entity.toDomain rt with
        | .error e => s.throw i (.java e)
        | .ok stored => s.enter i { committed := rows } (.returned (.ok stored))) := by
  obtain ⟨hdone, hnone⟩ := flush_advances rt hs entity statements howned
    hcommitted (hvisible ▸ hunique)
  rw [hvisible] at hdone hnone
  cases hrun : Statement.runAll Row.fits s.db.committed statements with
  | none => exact hnone hrun
  | some rows =>
    obtain ⟨db', rfl, howned', hcommitted', hadvances⟩ := hdone rows hrun
    refine hadvances.trans (.step ?_)
    cases hdomain : entity.toDomain rt with
    | error e =>
      have hstep : ((s.enter i db' (.flushing entity [])).step rt i).1 = s.throw i (.java e) := by
        simp only [step, calls_enter_self, hdomain]
        exact throw_enter hs howned' hcommitted' _
      exact hstep ▸ .refl
    | ok stored =>
      have hcommit : db'.commit i = { committed := db'.visible i } := by
        rw [Database.commit, howned'.claims_eq_nil_of_filter]
      have hstep : ((s.enter i db' (.flushing entity [])).step rt i).1 =
          s.enter i { committed := db'.visible i } (.returned (.ok stored)) := by
        simp only [step, calls_enter_self, db_enter, hdomain, hcommit, enter_enter]
      exact hstep ▸ .refl

theorem replace_enter (hs : s.db.claims = []) (howned : db.OwnedBy i)
    (hcommitted : db.committed = s.db.committed) (db' : Database Key Row ι)
    (snapshot : MatchEntity) :
    (s.enter i db phase).replace i db' snapshot = s.replace i db' snapshot := by
  simp only [replace, calls_enter_self]
  cases snapshot.replaceWith (s.calls i).document with
  | error e => exact throw_enter hs howned hcommitted _
  | ok entity => exact enter_enter ..

/-- From the entity that a transaction found, it does what is left of `upsertOnce`. -/
theorem replace_advances (hs : s.db.claims = []) (howned : db.OwnedBy i)
    (hcommitted : db.committed = s.db.committed) (hvisible : db.visible i = s.db.committed)
    (hunique : Statement.Unique s.db.committed) {snapshot : MatchEntity}
    (hfind : findForUpdate s.db.committed (s.calls i).document.id = snapshot) :
    Advances rt i (s.replace i db snapshot)
      (s.settled i (upsertOnce rt s.db.committed (s.calls i).document)) := by
  rw [replace, upsertOnce, hfind]
  cases snapshot.replaceWith (s.calls i).document with
  | error e => exact .refl
  | ok entity =>
    have hadvances := commit_advances rt hs howned hcommitted hvisible hunique entity
      (entity.flush snapshot)
    dsimp only
    cases hrun : Statement.runAll Row.fits s.db.committed (entity.flush snapshot) with
    | none =>
      rw [hrun] at hadvances
      exact hadvances
    | some rows =>
      rw [hrun] at hadvances
      dsimp only at hadvances ⊢
      cases hdomain : entity.toDomain rt with
      | error e | ok stored =>
        rw [hdomain] at hadvances
        exact hadvances

/-- A transaction that is alone does what `upsertOnce` says. -/
theorem upsertOnce_advances (rt : Runtime) (hs : s.db.claims = [])
    (hunique : Statement.Unique s.db.committed) (hphase : (s.calls i).phase = .find) :
    Advances rt i s (s.settled i (upsertOnce rt s.db.committed (s.calls i).document)) := by
  have howned : s.db.OwnedBy i := Database.ownedBy_of_claims_eq_nil hs
  have hvisible : s.db.visible i = s.db.committed :=
    Database.visible_of_no_claim (by simp [hs])
  refine .step ?_
  cases hfind : s.db.committed.find? fun r => key r = Key.ofMatch (s.calls i).document.id with
  | none =>
    have hstep : (s.step rt i).1 = s.replace i s.db (.newMatch (s.calls i).document.id) := by
      simp only [step, hphase, Database.selectForUpdate, hvisible, hfind, Option.bind_none]
    rw [hstep]
    exact replace_advances hs howned rfl hvisible hunique
      (by rw [findForUpdate, hfind, Option.bind_none])
  | some r =>
    have hselect : s.db.selectForUpdate i (.ofMatch (s.calls i).document.id) =
        .done (some r) (s.db.lock i (.ofMatch (s.calls i).document.id)) := by
      rw [Database.selectForUpdate, hvisible, hfind]
      exact if_neg howned.not_waits
    have hlocked := howned.lock (k := Key.ofMatch (s.calls i).document.id)
    have hvisible' : (s.db.lock i (.ofMatch (s.calls i).document.id)).visible i =
        s.db.committed := Database.visible_lock.trans hvisible
    cases r with
    | ofMatch row =>
      have hstep : (s.step rt i).1 =
          s.enter i (s.db.lock i (.ofMatch (s.calls i).document.id)) (.found row) := by
        simp only [step, hphase, hselect, Option.bind_some, Row.match?]
      rw [hstep]
      refine .step ?_
      have hread : ((s.enter i (s.db.lock i (.ofMatch (s.calls i).document.id))
          (.found row)).step rt i).1 = s.replace i (s.db.lock i (.ofMatch (s.calls i).document.id))
            (.mk row (MatchEntity.storedParticipants (s.calls i).document.id s.db.committed)
              false) := by
        simp only [step, calls_enter_self, db_enter, hvisible']
        exact replace_enter hs hlocked Database.committed_lock _ _
      rw [hread]
      exact replace_advances hs hlocked Database.committed_lock hvisible' hunique
        (by rw [findForUpdate, hfind, Option.bind_some, Row.match?])
    | ofParticipant row =>
      have hstep : (s.step rt i).1 = s.replace i
          (s.db.lock i (.ofMatch (s.calls i).document.id)) (.newMatch (s.calls i).document.id) := by
        simp only [step, hphase, hselect, Option.bind_some, Row.match?]
      rw [hstep]
      exact replace_advances hs hlocked Database.committed_lock hvisible' hunique
        (by rw [findForUpdate, hfind, Option.bind_some, Row.match?])

/-- A call that makes all its steps while the others have not begun returns what `upsert` does, and
leaves its rows. -/
def AloneUpserts (rt : Runtime) (rows : List Row) (documents : ι → Match) (i : ι) : Prop :=
  ∃ s, Advances rt i (.start rows documents) s ∧
    (s.calls i).phase = .returned ((upsert rt rows (documents i)).map (·.2)) ∧
    s.db = { committed := ((upsert rt rows (documents i)).map (·.1)).toOption.getD rows }

theorem aloneUpserts (rt : Runtime) {rows : List Row} (hunique : Statement.Unique rows)
    (documents : ι → Match) (i : ι) : AloneUpserts rt rows documents i := by
  have hfirst : Advances rt i (.start rows documents)
      ((start rows documents).settled i (upsertOnce rt rows (documents i))) :=
    upsertOnce_advances rt rfl hunique rfl
  have hdb (failure : UpsertFailure) :
      ((start rows documents : UpsertRace ι).throw i failure).db = { committed := rows } := rfl
  cases honce : upsertOnce rt rows (documents i) with
  | ok result =>
    obtain ⟨rows', stored⟩ := result
    rw [honce] at hfirst
    refine ⟨_, hfirst, ?_, ?_⟩
    · simp [settled, upsert, honce, Except.map]
    · simp [settled, upsert, honce, Except.map, Except.toOption]
  | error failure =>
    rw [honce] at hfirst
    cases failure with
    | java e =>
      refine ⟨_, hfirst, ?_, ?_⟩
      · simp [settled, throw, upsert, honce, Except.map]
      · simp [settled, hdb, upsert, honce, Except.map, Except.toOption]
    | dataIntegrityViolation =>
      -- The second transaction meets the same rows.
      have hsecond : Advances rt i ((start rows documents).throw i .dataIntegrityViolation)
          (((start rows documents).throw i .dataIntegrityViolation).settled i
            (upsertOnce rt rows (documents i))) := by
        have hcall : (((start rows documents).throw i .dataIntegrityViolation).calls i) =
            { document := documents i, attempt := 2, phase := .find } := Function.update_self ..
        have hclaims :
            ((start rows documents).throw i .dataIntegrityViolation).db.claims = [] := rfl
        have hphase : (((start rows documents).throw i .dataIntegrityViolation).calls i).phase =
            .find := by rw [hcall]
        have hadvances := upsertOnce_advances rt hclaims hunique hphase
        rwa [hcall] at hadvances
      rw [honce] at hsecond
      refine ⟨_, hfirst.trans hsecond, ?_, ?_⟩
      · simp [settled, throw, start, upsert, honce, Except.map]
      · simp [settled, throw, start, Database.rollback, upsert, honce,
          Except.map, Except.toOption]

end UpsertRace

end UsersService

end DanceSync
