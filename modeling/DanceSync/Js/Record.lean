import Mathlib

/-!
# Plain objects used as records

A value of type `Record<K, V>` is a plain object: a list of own properties with distinct keys,
in front of a prototype. Reading a key (`record[key]`, `key in record`) falls through to the
prototype, while `Object.keys`, `Object.entries` and a spread copy see own properties only. An
assignment `record[key] = value` creates an own property unless the prototype carries a setter
of that name; a computed key of an object literal and `Object.fromEntries` always create one.

Own properties are kept in insertion order.

## Main definitions

* `Prototype`: the names a plain object inherits, and those among them with a setter.
* `Record`: own properties with distinct keys.
* `Record.own?`, `Record.get`, `Record.has`: reading.
* `Record.define`, `Record.assign`, `Record.erase`, `Record.filter`, `Record.ofEntries`: writing.

## Main results

* `Record.own?_define`, `Record.own?_assign_self`, `Record.own?_assign_of_ne`, `Record.own?_erase`,
  `Record.own?_filter`: the own properties after each write.
-/

namespace DanceSync

/-! ### Prototypes -/

/-- What every plain object inherits. -/
structure Prototype (κ : Type) where
  /-- The inherited names. -/
  inherited : κ → Bool
  /-- The inherited names whose assignment runs a setter instead of creating a property. -/
  setter : κ → Bool
  inherited_of_setter : ∀ k, setter k → inherited k

/-- A name that is not inherited has no setter. -/
theorem Prototype.setter_eq_false {κ : Type} {proto : Prototype κ} {k : κ}
    (h : proto.inherited k = false) : proto.setter k = false := by
  by_contra hset
  have hinherited := proto.inherited_of_setter k (by simpa using hset)
  simp [h] at hinherited

/-- The result of `record[key]`. -/
inductive Lookup (α : Type) where
  | absent
  | own (value : α)
  | inherited
  deriving DecidableEq

/-! ### Records -/

/-- The own properties of a plain object. -/
@[ext] structure Record (κ α : Type) where
  entries : List (κ × α)
  nodup_keys : (entries.map Prod.fst).Nodup
  deriving DecidableEq

namespace Record

variable {κ α : Type}

/-- `Object.keys`. -/
def keys (r : Record κ α) : List κ := r.entries.map Prod.fst

/-- `Object.values`. -/
def values (r : Record κ α) : List α := r.entries.map Prod.snd

/-- The object literal without properties. -/
def empty : Record κ α := ⟨[], List.nodup_nil⟩

@[simp] theorem entries_empty : (empty : Record κ α).entries = [] := rfl

/-- `Object.fromEntries(Object.entries(record).filter(([key, value]) => keep(key, value)))`. -/
def filter (r : Record κ α) (keep : κ → α → Bool) : Record κ α where
  entries := r.entries.filter fun e => keep e.1 e.2
  nodup_keys := r.nodup_keys.sublist (List.filter_sublist.map _)

theorem mem_entries_filter {r : Record κ α} {keep : κ → α → Bool} {e : κ × α} :
    e ∈ (r.filter keep).entries ↔ e ∈ r.entries ∧ keep e.1 e.2 = true := by
  simp [filter]

variable [DecidableEq κ]

/-- The own property of a key. -/
def own? (r : Record κ α) (k : κ) : Option α := r.entries.lookup k

/-- `record[key]`. -/
def get (proto : Prototype κ) (r : Record κ α) (k : κ) : Lookup α :=
  match r.own? k with
  | some a => .own a
  | none => if proto.inherited k then .inherited else .absent

/-- `key in record`. -/
def has (proto : Prototype κ) (r : Record κ α) (k : κ) : Bool :=
  (r.own? k).isSome || proto.inherited k

/-- The entries with the value of `k` set: in place when `k` is a key, at the end otherwise. -/
def defineEntries (k : κ) (a : α) : List (κ × α) → List (κ × α)
  | [] => [(k, a)]
  | e :: es => if e.1 = k then (k, a) :: es else e :: defineEntries k a es

theorem keys_defineEntries (k : κ) (a : α) (es : List (κ × α)) :
    (defineEntries k a es).map Prod.fst =
      if k ∈ es.map Prod.fst then es.map Prod.fst else es.map Prod.fst ++ [k] := by
  induction es with
  | nil => rfl
  | cons e es ih =>
    by_cases h : e.1 = k
    · simp [defineEntries, h]
    · have h' : ¬k = e.1 := fun hk => h hk.symm
      simp only [defineEntries, if_neg h, List.map_cons, ih, List.mem_cons, h', false_or]
      split_ifs <;> rfl

/-- `{ ...record, [key]: value }`. -/
def define (r : Record κ α) (k : κ) (a : α) : Record κ α where
  entries := defineEntries k a r.entries
  nodup_keys := by
    rw [keys_defineEntries]
    split_ifs with h
    · exact r.nodup_keys
    · exact r.nodup_keys.append (List.nodup_singleton k) (by simpa using h)

/-- `record[key] = value`. -/
def assign (proto : Prototype κ) (r : Record κ α) (k : κ) (a : α) : Record κ α :=
  if proto.setter k && (r.own? k).isNone then r else r.define k a

/-- `delete record[key]`. -/
def erase (r : Record κ α) (k : κ) : Record κ α := r.filter fun key _ => key ≠ k

/-- `Object.fromEntries`. -/
def ofEntries (es : List (κ × α)) : Record κ α := es.foldl (fun r e => r.define e.1 e.2) empty

/-! ### Own properties -/

private theorem lookup_cons_of_ne {k k₀ : κ} {a : α} {es : List (κ × α)} (h : k ≠ k₀) :
    ((k₀, a) :: es).lookup k = es.lookup k := by
  rw [List.lookup_cons, beq_false_of_ne h]

theorem own?_eq_some_iff {r : Record κ α} {k : κ} {a : α} :
    r.own? k = some a ↔ (k, a) ∈ r.entries := by
  have hnodup := r.nodup_keys
  unfold own?
  generalize r.entries = es at hnodup
  induction es with
  | nil => simp
  | cons e es ih =>
    obtain ⟨k₀, a₀⟩ := e
    obtain ⟨hk, hes⟩ := List.nodup_cons.mp hnodup
    by_cases h : k = k₀
    · subst h
      have hnot : (k, a) ∉ es := fun hm => hk (List.mem_map.mpr ⟨_, hm, rfl⟩)
      simp [hnot, eq_comm]
    · simp [lookup_cons_of_ne h, h, ih hes]

theorem own?_eq_none_iff {r : Record κ α} {k : κ} : r.own? k = none ↔ k ∉ r.keys := by
  simp [own?, keys, List.lookup_eq_none_iff]
  grind

theorem own?_isSome_iff {r : Record κ α} {k : κ} : (r.own? k).isSome ↔ k ∈ r.keys := by
  rw [← Option.ne_none_iff_isSome, Ne, own?_eq_none_iff, not_not]

theorem mem_keys_iff {r : Record κ α} {k : κ} : k ∈ r.keys ↔ ∃ a, r.own? k = some a := by
  rw [← own?_isSome_iff, Option.isSome_iff_exists]

omit [DecidableEq κ] in
theorem mem_keys_of_mem_entries {r : Record κ α} {e : κ × α} (h : e ∈ r.entries) :
    e.1 ∈ r.keys := List.mem_map_of_mem h

@[simp] theorem own?_empty (k : κ) : (empty : Record κ α).own? k = none := rfl

theorem mem_defineEntries {k k' : κ} {a a' : α} {es : List (κ × α)}
    (hes : (es.map Prod.fst).Nodup) :
    (k', a') ∈ defineEntries k a es ↔ (k' = k ∧ a' = a) ∨ (k' ≠ k ∧ (k', a') ∈ es) := by
  induction es with
  | nil => simp [defineEntries]
  | cons e es ih =>
    obtain ⟨k₀, a₀⟩ := e
    obtain ⟨hk, hes'⟩ := List.nodup_cons.mp hes
    by_cases h : k₀ = k
    · subst h
      have hne : (k', a') ∈ es → k' ≠ k₀ := fun hm hk' =>
        hk (hk' ▸ List.mem_map.mpr ⟨_, hm, rfl⟩)
      simp only [defineEntries, ↓reduceIte, List.mem_cons, Prod.mk.injEq]
      grind
    · simp only [defineEntries, if_neg h, List.mem_cons, ih hes', Prod.mk.injEq]
      grind

theorem own?_define (r : Record κ α) (k k' : κ) (a : α) :
    (r.define k a).own? k' = if k' = k then some a else r.own? k' := by
  ext a'
  rw [own?_eq_some_iff]
  refine (mem_defineEntries r.nodup_keys).trans ?_
  split_ifs with h
  · simp [h, eq_comm]
  · simp [h, own?_eq_some_iff]

@[simp] theorem own?_define_self (r : Record κ α) (k : κ) (a : α) :
    (r.define k a).own? k = some a := by
  rw [own?_define, if_pos rfl]

theorem own?_filter (r : Record κ α) (keep : κ → α → Bool) (k : κ) :
    (r.filter keep).own? k = (r.own? k).filter (keep k) := by
  ext a
  rw [own?_eq_some_iff, mem_entries_filter, Option.filter_eq_some_iff, own?_eq_some_iff]

theorem own?_erase (r : Record κ α) (k k' : κ) :
    (r.erase k).own? k' = if k' = k then none else r.own? k' := by
  rw [erase, own?_filter]
  split_ifs with h
  · simp [h]
  · cases r.own? k' <;> simp [h]

theorem own?_assign_of_ne (proto : Prototype κ) (r : Record κ α) {k k' : κ} (a : α)
    (hk : k' ≠ k) : (r.assign proto k a).own? k' = r.own? k' := by
  unfold assign
  split_ifs
  · rfl
  · rw [own?_define, if_neg hk]

/-- An assignment creates or replaces the own property, unless it runs an inherited setter. -/
theorem own?_assign_self {proto : Prototype κ} {r : Record κ α} {k : κ} (a : α)
    (hk : proto.setter k = false ∨ k ∈ r.keys) : (r.assign proto k a).own? k = some a := by
  have hcond : (proto.setter k && (r.own? k).isNone) = false := by
    rcases hk with hk | hk
    · simp [hk]
    · obtain ⟨b, hb⟩ := Option.isSome_iff_exists.mp (own?_isSome_iff.mpr hk)
      simp [hb]
  rw [assign, hcond, if_neg Bool.false_ne_true, own?_define_self]

/-- The entries after an assignment are old ones or the assigned one. -/
theorem mem_entries_of_mem_assign {proto : Prototype κ} {r : Record κ α} {k : κ} {a : α}
    {e : κ × α} (h : e ∈ (r.assign proto k a).entries) : e ∈ r.entries ∨ e = (k, a) := by
  unfold assign at h
  split_ifs at h
  · exact Or.inl h
  · rcases (mem_defineEntries r.nodup_keys).mp h with ⟨hk, ha⟩ | ⟨-, he⟩
    · exact Or.inr (Prod.ext hk ha)
    · exact Or.inl he

theorem own?_foldl_define (es : List (κ × α)) (r : Record κ α) (k : κ) :
    (es.foldl (fun r e => r.define e.1 e.2) r).own? k =
      (es.reverse.lookup k).or (r.own? k) := by
  induction es generalizing r with
  | nil => simp
  | cons e es ih =>
    obtain ⟨k₀, a₀⟩ := e
    rw [List.foldl_cons, ih, own?_define, List.reverse_cons, List.lookup_append]
    cases es.reverse.lookup k with
    | some a => simp
    | none =>
      by_cases h : k = k₀
      · simp [h]
      · simp [lookup_cons_of_ne h, h]

/-- The own properties of `Object.fromEntries`: of two entries with one key the last counts. -/
theorem own?_ofEntries (es : List (κ × α)) (k : κ) :
    (ofEntries es).own? k = es.reverse.lookup k := by
  simp [ofEntries, own?_foldl_define]

/-- The own properties of `Object.fromEntries` are its entries, when their keys are distinct. -/
theorem own?_ofEntries_eq_some_iff {es : List (κ × α)} (h : (es.map Prod.fst).Nodup) {k : κ}
    {a : α} : (ofEntries es).own? k = some a ↔ (k, a) ∈ es := by
  have hnodup : (es.reverse.map Prod.fst).Nodup := by
    rw [List.map_reverse]
    exact List.nodup_reverse.mpr h
  rw [own?_ofEntries, ← List.mem_reverse]
  exact own?_eq_some_iff (r := ⟨es.reverse, hnodup⟩)

theorem lookup_map_const (ks : List κ) (a : α) (k : κ) :
    (ks.map fun k => (k, a)).lookup k = if k ∈ ks then some a else none := by
  induction ks with
  | nil => rfl
  | cons k₀ ks ih =>
    by_cases h : k = k₀
    · simp [h]
    · simp [lookup_cons_of_ne h, h, ih]

/-- The own properties of `Object.fromEntries(keys.map((key) => [key, value]))`. -/
theorem own?_ofEntries_const (ks : List κ) (a : α) (k : κ) :
    (ofEntries (ks.map fun k => (k, a))).own? k = if k ∈ ks then some a else none := by
  rw [own?_ofEntries, ← List.map_reverse, lookup_map_const]
  simp only [List.mem_reverse]

/-! ### Counting entries -/

/-- The keys with a value are as many as the times it occurs among the values. -/
theorem ncard_own?_eq [BEq α] [LawfulBEq α] (r : Record κ α) (a : α) :
    {k | r.own? k = some a}.ncard = r.values.count a := by
  have hnodup : ((r.entries.filter (·.2 == a)).map Prod.fst).Nodup :=
    r.nodup_keys.sublist (List.filter_sublist.map _)
  have hset : {k | r.own? k = some a} =
      (((r.entries.filter (·.2 == a)).map Prod.fst).toFinset : Set κ) := by
    ext k
    simp [own?_eq_some_iff]
  rw [hset, Set.ncard_coe_finset, List.toFinset_card_of_nodup hnodup, List.length_map, values,
    List.count_eq_countP, List.countP_map, List.countP_eq_length_filter]
  congr 1

/-- The keys are as many as the entries. -/
theorem ncard_own?_isSome (r : Record κ α) :
    {k | (r.own? k).isSome}.ncard = r.values.length := by
  have hset : {k | (r.own? k).isSome} = (r.keys.toFinset : Set κ) := by
    ext k
    simp [own?_isSome_iff]
  rw [hset, Set.ncard_coe_finset, keys, List.toFinset_card_of_nodup r.nodup_keys, values,
    List.length_map, List.length_map]

/-! ### Reading through the prototype -/

section Reading

variable {proto : Prototype κ} {r : Record κ α} {k : κ}

theorem get_eq_own_iff {a : α} : r.get proto k = .own a ↔ r.own? k = some a := by
  unfold get
  cases r.own? k with
  | some b => simp
  | none => by_cases h : proto.inherited k <;> simp [h]

theorem get_eq_absent_iff :
    r.get proto k = .absent ↔ r.own? k = none ∧ proto.inherited k = false := by
  unfold get
  cases r.own? k with
  | some b => simp
  | none => by_cases h : proto.inherited k <;> simp [h]

theorem get_of_own {a : α} (h : r.own? k = some a) : r.get proto k = .own a :=
  get_eq_own_iff.mpr h

theorem has_eq_true_iff : r.has proto k = true ↔ k ∈ r.keys ∨ proto.inherited k = true := by
  simp [has, own?_isSome_iff]

end Reading

end Record

end DanceSync
