import Mathlib

/-!
# A database at read committed

Rows with primary keys, changed by transactions. A transaction *claims* the key of each row that it
locks, removes or writes, and keeps the claim until it ends: a statement that needs a key claimed
by another transaction waits. What a transaction wrote is seen by nobody else before it commits,
and a statement sees what is committed when it runs, below the transaction's own changes.

A transaction that alone holds claims runs its statements as if they were run one after the other
on a list of rows.

## Main definitions

* `Keyed`: rows with a primary key.
* `Claim`, `Database`, `Database.visible`: the state, and the rows that a transaction sees.
* `Database.selectForUpdate`, `Statement.perform`, `Database.commit`, `Database.rollback`: the steps
  of a transaction.
* `Statement.run`, `Statement.runAll`: the effect of statements on a list of rows.

## Main results

* `Database.visible_claim`, `Database.visible_lock`: what a claim changes for its transaction.
* `Statement.perform_of_ownedBy`: a transaction that alone holds claims meets no other.
* `Database.Inserts`: transactions that insert one row each, under keys of their own, do not
  disturb each other.
-/

namespace DanceSync.ReadCommitted

/-- Rows with a primary key. -/
class Keyed (ρ : Type) (κ : outParam Type) where
  key : ρ → κ

export Keyed (key)

variable {κ ρ τ α : Type}

/-- What an open transaction did to the row of a key. -/
inductive Claim (κ ρ τ : Type) where
  | lock (owner : τ) (key : κ)
  | remove (owner : τ) (key : κ)
  | write (owner : τ) (row : ρ)

namespace Claim

def owner : Claim κ ρ τ → τ
  | lock t _ | remove t _ | write t _ => t

def key [Keyed ρ κ] : Claim κ ρ τ → κ
  | lock _ k | remove _ k => k
  | write _ r => Keyed.key r

/-- A lock leaves the committed row visible. -/
def isLock : Claim κ ρ τ → Bool
  | lock .. => true
  | _ => false

/-- The new version of the row. -/
def row? : Claim κ ρ τ → Option ρ
  | write _ r => some r
  | _ => none

theorem filter_row? [Keyed ρ κ] [DecidableEq κ] (c : Claim κ ρ τ) (k : κ) :
    (c.row?.filter fun r => !decide (Keyed.key r = k)) = if c.key = k then none else c.row? := by
  cases c with
  | lock | remove => simp [row?]
  | write t r => by_cases h : Keyed.key r = k <;> simp [row?, Claim.key, h]

end Claim

/-- The committed rows, and the claims of the open transactions. -/
structure Database (κ ρ τ : Type) where
  committed : List ρ
  claims : List (Claim κ ρ τ) := []

/-- How a statement ends: it has to wait, it breaks a constraint, or it is done. -/
inductive Answer (α δ : Type) where
  | waits
  | violated
  | done (value : α) (db : δ)

namespace Database

variable [Keyed ρ κ] [DecidableEq κ] [DecidableEq τ] (db : Database κ ρ τ) (t : τ)

/-- The committed version of a row is hidden by a change of the transaction. -/
def Hides (r : ρ) : Prop := ∃ c ∈ db.claims, c.owner = t ∧ c.key = key r ∧ c.isLock = false

instance (r : ρ) : Decidable (db.Hides t r) :=
  inferInstanceAs (Decidable (∃ c ∈ db.claims, _))

/-- The rows that the transaction wrote. -/
def written : List ρ := (db.claims.filter fun c => c.owner = t).filterMap Claim.row?

/-- The rows that a statement of the transaction sees. -/
def visible : List ρ := (db.committed.filter fun r => ¬db.Hides t r) ++ db.written t

/-- Another transaction claims the key. -/
def Waits (k : κ) : Prop := ∃ c ∈ db.claims, c.key = k ∧ c.owner ≠ t

instance (k : κ) : Decidable (db.Waits t k) :=
  inferInstanceAs (Decidable (∃ c ∈ db.claims, _))

/-- A claim replaces the one that its transaction had on the key. -/
def claim (c : Claim κ ρ τ) : Database κ ρ τ :=
  { db with claims := (db.claims.filter fun d => ¬(d.owner = c.owner ∧ d.key = c.key)) ++ [c] }

/-- A row lock; a row that the transaction changed is locked already. -/
def lock (k : κ) : Database κ ρ τ :=
  if ∃ c ∈ db.claims, c.owner = t ∧ c.key = k then db else db.claim (.lock t k)

/-- `SELECT … FOR UPDATE` by primary key: a row that is found is locked. -/
def selectForUpdate (k : κ) : Answer (Option ρ) (Database κ ρ τ) :=
  match (db.visible t).find? fun r => key r = k with
  | none => .done none db
  | some r => if db.Waits t k then .waits else .done (some r) (db.lock t k)

/-- `COMMIT`. -/
def commit : Database κ ρ τ where
  committed := db.visible t
  claims := db.claims.filter fun c => c.owner ≠ t

/-- `ROLLBACK`. -/
def rollback : Database κ ρ τ where
  committed := db.committed
  claims := db.claims.filter fun c => c.owner ≠ t

end Database

/-! ### Statements -/

/-- `INSERT`, `UPDATE` by primary key and `DELETE … WHERE`. -/
inductive Statement (ρ : Type) where
  | insert (row : ρ)
  | update (row : ρ)
  | delete (condition : ρ → Bool)

section Statements

/-- The constraints of a row among the rows that are visible, its primary key apart. -/
abbrev Constraints (ρ : Type) := List ρ → ρ → Bool

variable [Keyed ρ κ] [DecidableEq κ] [DecidableEq τ] (fits : Constraints ρ)

/-- A statement of a transaction. -/
def Statement.perform (t : τ) (db : Database κ ρ τ) :
    Statement ρ → Answer Unit (Database κ ρ τ)
  | .insert r =>
    if !fits (db.visible t) r then .violated
    else if db.Waits t (key r) then .waits
    else if key r ∈ (db.visible t).map key then .violated
    else .done () (db.claim (.write t r))
  | .update r =>
    if !fits (db.visible t) r then .violated
    else if db.Waits t (key r) then .waits
    else if key r ∈ (db.visible t).map key then .done () (db.claim (.write t r))
    else .done () db
  | .delete p =>
    let rows := (db.visible t).filter p
    if ∃ r ∈ rows, db.Waits t (key r) then .waits
    else .done () (rows.foldl (fun db r => db.claim (.remove t (key r))) db)

/-- The effect of a statement on a list of rows; `none` when it breaks a constraint. -/
def Statement.run (rows : List ρ) : Statement ρ → Option (List ρ)
  | .insert r =>
    if fits rows r ∧ key r ∉ rows.map key then some (rows ++ [r]) else none
  | .update r =>
    if !fits rows r then none
    else if key r ∈ rows.map key then some ((rows.filter fun q => key q ≠ key r) ++ [r])
    else some rows
  | .delete p => some (rows.filter fun r => !p r)

/-- The effect of several statements. -/
def Statement.runAll (rows : List ρ) : List (Statement ρ) → Option (List ρ)
  | [] => some rows
  | st :: statements => (st.run fits rows).bind fun rows => runAll rows statements

end Statements

/-! ### What a transaction sees -/

namespace Database

variable [Keyed ρ κ] [DecidableEq κ] [DecidableEq τ] {db : Database κ ρ τ} {t : τ} {k : κ}

@[simp] theorem committed_claim (c : Claim κ ρ τ) : (db.claim c).committed = db.committed := rfl

@[simp] theorem committed_lock : (db.lock t k).committed = db.committed := by
  unfold lock
  split <;> rfl

/-- A transaction without claims sees what is committed. -/
theorem visible_of_no_claim (h : ∀ c ∈ db.claims, c.owner ≠ t) : db.visible t = db.committed := by
  have hwritten : db.claims.filter (fun c => c.owner = t) = [] := by
    simpa [List.filter_eq_nil_iff] using h
  have hhides : ∀ r ∈ db.committed, decide (¬db.Hides t r) = true := fun r _ =>
    decide_eq_true fun ⟨c, hc, howner, _⟩ => h c hc howner
  rw [visible, written, hwritten, List.filter_eq_self.mpr hhides]
  exact List.append_nil _

omit [Keyed ρ κ] [DecidableEq κ] in
/-- Without claims there is nothing to roll back. -/
theorem rollback_of_no_claim (h : ∀ c ∈ db.claims, c.owner ≠ t) : db.rollback t = db := by
  have hclaims : (db.claims.filter fun c => c.owner ≠ t) = db.claims :=
    List.filter_eq_self.mpr fun c hc => decide_eq_true (h c hc)
  rw [rollback, hclaims]

theorem hides_claim {c : Claim κ ρ τ} (hlock : c.isLock = false) {r : ρ} :
    (db.claim c).Hides c.owner r ↔ db.Hides c.owner r ∨ key r = c.key := by
  constructor
  · rintro ⟨d, hd, howner, hkey, hd'⟩
    rcases List.mem_append.mp hd with hd | hd
    · exact Or.inl ⟨d, (List.mem_filter.mp hd).1, howner, hkey, hd'⟩
    · obtain rfl := List.mem_singleton.mp hd
      exact Or.inr hkey.symm
  · intro h
    by_cases hkey : key r = c.key
    · exact ⟨c, List.mem_append_right _ (List.mem_singleton_self c), rfl, hkey.symm, hlock⟩
    · obtain ⟨d, hd, howner, hdkey, hd'⟩ := h.resolve_right hkey
      refine ⟨d, List.mem_append_left _ (List.mem_filter.mpr ⟨hd, ?_⟩), howner, hdkey, hd'⟩
      exact decide_eq_true fun hsame => hkey (hdkey.symm.trans hsame.2)

/-- The rows that were written before a claim, those of its key apart. -/
theorem written_claim (c : Claim κ ρ τ) : (db.claim c).written c.owner =
    ((db.written c.owner).filter fun r => key r ≠ c.key) ++ c.row?.toList := by
  have hlast : ([c].filter fun d => d.owner = c.owner).filterMap Claim.row? = c.row?.toList := by
    cases h : c.row? <;> simp [h]
  rw [written, claim, List.filter_append, List.filterMap_append, hlast, written,
    List.filter_filterMap, List.filterMap_filter, List.filterMap_filter, List.filterMap_filter]
  congr 1
  refine List.filterMap_congr fun d _ => ?_
  by_cases howner : d.owner = c.owner
  · by_cases hkey : d.key = c.key
    · simp [howner, hkey, Claim.filter_row?]
    · simp [howner, hkey, Claim.filter_row?]
  · simp [howner]

/-- A change of the row of a key leaves the other rows as the transaction saw them. -/
theorem visible_claim {c : Claim κ ρ τ} (hlock : c.isLock = false) :
    (db.claim c).visible c.owner =
      ((db.visible c.owner).filter fun r => key r ≠ c.key) ++ c.row?.toList := by
  have hkept : ((db.claim c).committed.filter fun r => ¬(db.claim c).Hides c.owner r) =
      (db.committed.filter fun r => ¬db.Hides c.owner r).filter fun r => key r ≠ c.key := by
    rw [committed_claim, List.filter_filter]
    refine List.filter_congr fun r _ => ?_
    simp only [hides_claim hlock, ← Bool.decide_and]
    exact decide_eq_decide.mpr (by tauto)
  rw [visible, hkept, written_claim, ← List.append_assoc, ← List.filter_append]
  rfl

/-- A lock changes nothing that its transaction sees. -/
theorem visible_lock : (db.lock t k).visible t = db.visible t := by
  unfold lock
  split
  next => rfl
  next hnone =>
    have hfilter : (db.claims.filter fun d => ¬(d.owner = t ∧ d.key = k)) = db.claims :=
      List.filter_eq_self.mpr fun d hd => decide_eq_true fun h => hnone ⟨d, hd, h⟩
    have hclaims : (db.claim (.lock t k)).claims = db.claims ++ [.lock t k] := by
      show (db.claims.filter fun d => ¬(d.owner = t ∧ d.key = k)) ++ _ = _
      rw [hfilter]
    have hhides : ∀ r, (db.claim (.lock t k)).Hides t r ↔ db.Hides t r := by
      intro r
      simp [Hides, hclaims, or_and_right, exists_or, Claim.isLock]
    have hwritten : (db.claim (.lock t k)).written t = db.written t := by
      simp [written, hclaims, Claim.owner, Claim.row?]
    simp only [visible, hwritten, committed_claim, hhides]

/-- A row that is not visible is not locked. -/
theorem selectForUpdate_of_not_mem (h : k ∉ (db.visible t).map key) :
    db.selectForUpdate t k = .done none db := by
  have hnone : ((db.visible t).find? fun r => key r = k) = none :=
    List.find?_eq_none.mpr fun r hr hkey =>
      h (List.mem_map.mpr ⟨r, hr, of_decide_eq_true hkey⟩)
  rw [selectForUpdate, hnone]

/-- A visible row is locked, unless another transaction claims it. -/
theorem selectForUpdate_of_mem (h : k ∈ (db.visible t).map key) :
    ∃ r ∈ db.visible t, key r = k ∧ db.selectForUpdate t k =
      if db.Waits t k then .waits else .done (some r) (db.lock t k) := by
  obtain ⟨q, hq, hkey⟩ := List.mem_map.mp h
  obtain ⟨r, hr⟩ := Option.isSome_iff_exists.mp
    ((List.find?_isSome (p := fun r => key r = k)).mpr ⟨q, hq, decide_eq_true hkey⟩)
  have hrkey := List.find?_some (p := fun r => key r = k) hr
  exact ⟨r, List.mem_of_find?_eq_some hr, of_decide_eq_true hrkey, by rw [selectForUpdate, hr]⟩

/-! ### A single writer -/

/-- Only this transaction holds claims. -/
def OwnedBy (db : Database κ ρ τ) (t : τ) : Prop := ∀ c ∈ db.claims, c.owner = t

omit [Keyed ρ κ] [DecidableEq κ] [DecidableEq τ] in
theorem ownedBy_of_claims_eq_nil (h : db.claims = []) : db.OwnedBy t := by
  simp [OwnedBy, h]

namespace OwnedBy

omit [DecidableEq κ] [DecidableEq τ] in
theorem not_waits (h : db.OwnedBy t) : ¬db.Waits t k := by
  rintro ⟨c, hc, -, howner⟩
  exact howner (h c hc)

theorem claim (h : db.OwnedBy t) {c : Claim κ ρ τ} (hc : c.owner = t) :
    (db.claim c).OwnedBy t := by
  intro d hd
  rcases List.mem_append.mp hd with hd | hd
  · exact h d (List.mem_filter.mp hd).1
  · rwa [List.mem_singleton.mp hd]

theorem lock (h : db.OwnedBy t) : (db.lock t k).OwnedBy t := by
  unfold Database.lock
  split
  · exact h
  · exact h.claim rfl

omit [Keyed ρ κ] [DecidableEq κ] in
theorem claims_eq_nil_of_filter (h : db.OwnedBy t) :
    (db.claims.filter fun c => c.owner ≠ t) = [] :=
  List.filter_eq_nil_iff.mpr fun c hc => by simpa using h c hc

end OwnedBy

/-- Some claim is held on the key. -/
def Claimed (db : Database κ ρ τ) (k : κ) : Prop := ∃ c ∈ db.claims, c.key = k

theorem claimed_claim (c : Claim κ ρ τ) : (db.claim c).Claimed c.key :=
  ⟨c, List.mem_append_right _ (List.mem_singleton_self c), rfl⟩

theorem Claimed.claim (h : db.Claimed k) (c : Claim κ ρ τ) : (db.claim c).Claimed k := by
  obtain ⟨d, hd, rfl⟩ := h
  by_cases hsame : d.owner = c.owner ∧ d.key = c.key
  · rw [hsame.2]
    exact claimed_claim c
  · exact ⟨d, List.mem_append_left _ (List.mem_filter.mpr ⟨hd, decide_eq_true hsame⟩), rfl⟩

theorem claimed_lock : (db.lock t k).Claimed k := by
  unfold lock
  split
  next h =>
    obtain ⟨c, hc, -, hkey⟩ := h
    exact ⟨c, hc, hkey⟩
  next => exact claimed_claim (.lock t k)

omit [DecidableEq κ] [DecidableEq τ] in
/-- A key claimed by the single writer makes every other transaction wait. -/
theorem Claimed.waits (h : db.Claimed k) (howned : db.OwnedBy t) {u : τ} (hne : u ≠ t) :
    db.Waits u k := by
  obtain ⟨c, hc, hkey⟩ := h
  exact ⟨c, hc, hkey, fun heq => hne (heq.symm.trans (howned c hc))⟩

end Database

/-! ### Statements of a single writer -/

namespace Statement

variable [Keyed ρ κ] [DecidableEq κ] [DecidableEq τ] {fits : Constraints ρ} {db : Database κ ρ τ}
  {t : τ} {rows rows' : List ρ} {st : Statement ρ}

/-- Rows of different keys. -/
def Unique (rows : List ρ) : Prop := (rows.map key).Nodup

omit [DecidableEq κ] in
theorem Unique.filter (h : Unique rows) (p : ρ → Bool) : Unique (rows.filter p) :=
  h.sublist (List.filter_sublist.map _)

omit [DecidableEq κ] in
theorem Unique.append (h : Unique rows) {r : ρ} (hr : key r ∉ rows.map key) :
    Unique (rows ++ [r]) := by
  rw [Unique, List.map_append, List.nodup_append]
  refine ⟨h, List.nodup_singleton _, ?_⟩
  rintro a ha b hb rfl
  obtain rfl := List.mem_singleton.mp hb
  exact hr ha

/-- A row is the only one of its key. -/
theorem Unique.filter_key (h : Unique rows) {r : ρ} (hr : r ∈ rows) :
    (rows.filter fun q => key q = key r) = [r] := by
  induction rows with
  | nil => simp at hr
  | cons q rows ih =>
    obtain ⟨hq, hrows⟩ := List.nodup_cons.mp h
    rcases List.mem_cons.mp hr with rfl | hr
    · have hnone : (rows.filter fun q => key q = key r) = [] :=
        List.filter_eq_nil_iff.mpr fun q hmem hkey =>
          hq (List.mem_map.mpr ⟨q, hmem, of_decide_eq_true hkey⟩)
      rw [List.filter_cons, if_pos (decide_eq_true rfl), hnone]
    · have hne : key q ≠ key r := fun heq => hq (List.mem_map.mpr ⟨r, hr, heq.symm⟩)
      rw [List.filter_cons_of_neg (by simpa using hne), ih hrows hr]

theorem runAll_append (statements statements' : List (Statement ρ)) :
    runAll fits rows (statements ++ statements') =
      (runAll fits rows statements).bind fun rows => runAll fits rows statements' := by
  induction statements generalizing rows with
  | nil => rfl
  | cons st statements ih =>
    rw [List.cons_append, runAll, runAll, Option.bind_assoc]
    exact congrArg _ (funext fun rows => ih)

/-- Statements keep the keys different. -/
theorem unique_of_run (h : st.run fits rows = some rows') (hrows : Unique rows) :
    Unique rows' := by
  cases st with
  | insert r =>
    obtain ⟨⟨-, hkey⟩, rfl⟩ := Option.ite_none_right_eq_some.mp h |>.imp_right Option.some.inj
    exact hrows.append hkey
  | update r =>
    simp only [run] at h
    split_ifs at h
    · obtain rfl := Option.some.inj h
      exact (hrows.filter _).append (by simp)
    · exact Option.some.inj h ▸ hrows
  | delete p =>
    obtain rfl := Option.some.inj h
    exact hrows.filter _

/-- Removing rows one after the other. -/
theorem foldl_remove (howned : db.OwnedBy t) (rows : List ρ) :
    (rows.foldl (fun db r => db.claim (.remove t (key r))) db).OwnedBy t ∧
    (rows.foldl (fun db r => db.claim (.remove t (key r))) db).committed = db.committed ∧
    (∀ k, db.Claimed k →
      (rows.foldl (fun db r => db.claim (.remove t (key r))) db).Claimed k) ∧
    (rows.foldl (fun db r => db.claim (.remove t (key r))) db).visible t =
      (db.visible t).filter fun q => key q ∉ rows.map key := by
  induction rows generalizing db with
  | nil => exact ⟨howned, rfl, fun k h => h, by simp⟩
  | cons r rows ih =>
    have hstep : (db.claim (.remove t (key r))).visible t =
        (db.visible t).filter fun q => key q ≠ key r :=
      (Database.visible_claim (c := .remove t (key r)) rfl).trans (List.append_nil _)
    obtain ⟨hown, hcommitted, hclaimed, hvisible⟩ := ih (howned.claim (c := .remove t (key r)) rfl)
    refine ⟨hown, hcommitted, fun k hk => hclaimed k (hk.claim _), ?_⟩
    rw [List.foldl_cons, hvisible, hstep, List.filter_filter]
    refine List.filter_congr fun q _ => ?_
    simp [Bool.and_comm]

/-- Removing the rows that meet a condition. -/
theorem filter_removed (hrows : Unique rows) (p : ρ → Bool) :
    (rows.filter fun q => key q ∉ (rows.filter p).map key) = rows.filter fun q => !p q := by
  refine List.filter_congr fun q hq => ?_
  have hkey : key q ∈ (rows.filter p).map key ↔ p q = true := by
    constructor
    · intro h
      obtain ⟨r, hr, heq⟩ := List.mem_map.mp h
      obtain ⟨hmem, hp⟩ := List.mem_filter.mp hr
      rwa [← List.inj_on_of_nodup_map hrows hmem hq heq]
    · exact fun hp => List.mem_map.mpr ⟨q, List.mem_filter.mpr ⟨hq, hp⟩, rfl⟩
  simp only [decide_not, hkey, Bool.decide_eq_true]

/-- A row that meets the constraints is inserted, unless its key is claimed or taken. -/
theorem perform_insert {r : ρ} (hfits : fits (db.visible t) r = true) :
    (insert r).perform fits t db = if db.Waits t (key r) then .waits
      else if key r ∈ (db.visible t).map key then .violated
      else .done () (db.claim (.write t r)) := by
  rw [perform, hfits, Bool.not_true, if_neg Bool.false_ne_true]

/-- A transaction that alone holds claims performs a statement as it runs on the rows it sees. -/
theorem perform_of_ownedBy (howned : db.OwnedBy t) (hunique : Unique (db.visible t))
    (h : st.run fits (db.visible t) = some rows) : ∃ db', st.perform fits t db = .done () db' ∧
      db'.visible t = rows ∧ db'.OwnedBy t ∧ db'.committed = db.committed ∧
      ∀ k, db.Claimed k → db'.Claimed k := by
  have hwrite : ∀ r, (db.claim (.write t r)).visible t =
      ((db.visible t).filter fun q => key q ≠ key r) ++ [r] := fun r =>
    Database.visible_claim (c := .write t r) rfl
  cases st with
  | insert r =>
    obtain ⟨⟨hfits, hkey⟩, rfl⟩ := Option.ite_none_right_eq_some.mp h |>.imp_right Option.some.inj
    have hkept : ((db.visible t).filter fun q => key q ≠ key r) = db.visible t :=
      List.filter_eq_self.mpr fun q hq =>
        decide_eq_true fun heq => hkey (heq ▸ List.mem_map_of_mem hq)
    refine ⟨db.claim (.write t r), ?_, by rw [hwrite, hkept], howned.claim rfl, rfl,
      fun k hk => hk.claim _⟩
    rw [perform_insert hfits, if_neg howned.not_waits, if_neg hkey]
  | update r =>
    simp only [run] at h
    split_ifs at h with hfits hkey
    · obtain rfl := Option.some.inj h
      refine ⟨db.claim (.write t r), ?_, hwrite r, howned.claim rfl, rfl, fun k hk => hk.claim _⟩
      rw [perform, if_neg hfits, if_neg howned.not_waits, if_pos hkey]
    · obtain rfl := Option.some.inj h
      refine ⟨db, ?_, rfl, howned, rfl, fun k hk => hk⟩
      rw [perform, if_neg hfits, if_neg howned.not_waits, if_neg hkey]
  | delete p =>
    obtain rfl := Option.some.inj h
    obtain ⟨hown, hcommitted, hclaimed, hvisible⟩ :=
      foldl_remove howned ((db.visible t).filter p)
    refine ⟨_, ?_, hvisible.trans (filter_removed hunique p), hown, hcommitted, hclaimed⟩
    rw [perform, if_neg]
    rintro ⟨r, -, hwaits⟩
    exact howned.not_waits hwaits

/-- The key of a row that was inserted is claimed. -/
theorem claimed_of_insert {r : ρ} {db' : Database κ ρ τ}
    (h : (insert r).perform fits t db = .done () db') : db'.Claimed (key r) := by
  simp only [perform] at h
  split_ifs at h
  obtain ⟨-, rfl⟩ := Answer.done.inj h
  exact Database.claimed_claim (.write t r)

/-- The first of several statements that break no constraint. -/
theorem runAll_cons_eq_some {statements : List (Statement ρ)}
    (h : runAll fits rows (st :: statements) = some rows') :
    ∃ rows₁, st.run fits rows = some rows₁ ∧ runAll fits rows₁ statements = some rows' :=
  Option.bind_eq_some_iff.mp h

end Statement

/-! ### Transactions that insert one row each -/

namespace Database

variable [Keyed ρ κ] {db : Database κ ρ τ} {t : τ} {r : ρ} {c d : Claim κ ρ τ}

/-- Each transaction with a claim inserted one row, and all these rows have new keys. -/
structure Inserts (db : Database κ ρ τ) : Prop where
  writes : ∀ c ∈ db.claims, ∃ t r, c = .write t r
  owners : (db.claims.map Claim.owner).Nodup
  keys : (db.claims.map Claim.key).Nodup
  fresh : ∀ c ∈ db.claims, c.key ∉ db.committed.map key

theorem inserts_of_claims_eq_nil (h : db.claims = []) : db.Inserts where
  writes := by simp [h]
  owners := by simp [h]
  keys := by simp [h]
  fresh := by simp [h]

namespace Inserts

variable [DecidableEq κ] [DecidableEq τ]

/-- A transaction sees the row that it inserted after the committed rows. -/
theorem visible_eq (h : db.Inserts) (hr : .write t r ∈ db.claims) :
    db.visible t = db.committed ++ [r] := by
  have hkept : (db.committed.filter fun q => ¬db.Hides t q) = db.committed := by
    refine List.filter_eq_self.mpr fun q hq => decide_eq_true ?_
    rintro ⟨c, hc, -, hkey, -⟩
    exact h.fresh c hc (hkey ▸ List.mem_map_of_mem hq)
  have hown : (db.claims.filter fun c => c.owner = t) = [.write t r] :=
    @Statement.Unique.filter_key τ (Claim κ ρ τ) ⟨Claim.owner⟩ _ db.claims h.owners _ hr
  rw [visible, hkept, written, hown]
  rfl

/-- A row under a key that is neither stored nor claimed is inserted. -/
theorem insert (h : db.Inserts) (hno : ∀ c ∈ db.claims, c.owner ≠ t) (hwaits : ¬db.Waits t (key r))
    (hkey : key r ∉ db.committed.map key) :
    (db.claim (.write t r)).claims = db.claims ++ [.write t r] ∧
      (db.claim (.write t r)).Inserts := by
  have hclaims : (db.claim (.write t r)).claims = db.claims ++ [.write t r] := by
    have hkept : (db.claims.filter fun c => ¬(c.owner = t ∧ c.key = key r)) = db.claims :=
      List.filter_eq_self.mpr fun c hc => decide_eq_true fun hsame => hno c hc hsame.1
    exact congrArg (· ++ [.write t r]) hkept
  have hother : ∀ c ∈ db.claims, c.key ≠ key r := fun c hc hsame =>
    hwaits ⟨c, hc, hsame, hno c hc⟩
  refine ⟨hclaims, ⟨?_, ?_, ?_, ?_⟩⟩
  · rw [hclaims, List.forall_mem_append, List.forall_mem_singleton]
    exact ⟨h.writes, t, r, rfl⟩
  · rw [hclaims, List.map_append, List.nodup_append]
    refine ⟨h.owners, List.nodup_singleton _, ?_⟩
    simpa [Claim.owner] using hno
  · rw [hclaims, List.map_append, List.nodup_append]
    refine ⟨h.keys, List.nodup_singleton _, ?_⟩
    simpa [Claim.key] using hother
  · rw [hclaims, List.forall_mem_append, List.forall_mem_singleton]
    exact ⟨h.fresh, hkey⟩

/-- A transaction that commits stores its row. -/
theorem commit (h : db.Inserts) (hr : .write t r ∈ db.claims) :
    (db.commit t).committed = db.committed ++ [r] ∧ (db.commit t).Inserts := by
  have hsub : (db.commit t).claims.Sublist db.claims := List.filter_sublist
  refine ⟨h.visible_eq hr, ⟨fun c hc => h.writes c (hsub.subset hc),
    h.owners.sublist (hsub.map _), h.keys.sublist (hsub.map _), fun c hc hmem => ?_⟩⟩
  rw [show (db.commit t).committed = db.committed ++ [r] from h.visible_eq hr, List.map_append,
    List.mem_append, List.map_singleton, List.mem_singleton] at hmem
  obtain ⟨hc, howner⟩ := List.mem_filter.mp hc
  rcases hmem with hmem | hkey
  · exact h.fresh c hc hmem
  · obtain rfl := List.inj_on_of_nodup_map h.keys hc hr hkey
    simp [Claim.owner] at howner

end Inserts

end Database

end DanceSync.ReadCommitted
