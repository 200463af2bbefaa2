import Mathlib

/-!
# Code points and case mappings

A text of UTF-16 code units is read as a list of code points: a high surrogate followed by a low
one is one code point, and every other unit is a code point of its own. A full case mapping maps
each code point to one or more, whatever stands around it.

## Main definitions

* `CodePoint`, `codePoints`, `units`: the two readings of a text.
* `FullCaseMapping`: the mapping of code points to upper case, `FullCaseMapping.toUpperCase`.

## Main results

* `units_codePoints`, `codePoints_units`: the readings are inverse to each other.
* `FullCaseMapping.codePoints_toUpperCase`, `FullCaseMapping.length_codePoints_toUpperCase`.
* `FullCaseMapping.toUpperCase_toUpperCase`, `FullCaseMapping.trim_toUpperCase`.
-/

namespace DanceSync.Utf16

def isHighSurrogate (u : UInt16) : Bool := 0xD800 ≤ u ∧ u < 0xDC00

def isLowSurrogate (u : UInt16) : Bool := 0xDC00 ≤ u ∧ u < 0xE000

/-- A code point: a unit that stands for itself, or a surrogate pair. -/
inductive CodePoint where
  | unit (u : UInt16)
  | pair (high low : UInt16) (hhigh : isHighSurrogate high) (hlow : isLowSurrogate low)
  deriving DecidableEq

namespace CodePoint

def units : CodePoint → List UInt16
  | unit u => [u]
  | pair high low _ _ => [high, low]

/-- A surrogate without its other half. -/
def isHigh : CodePoint → Bool
  | unit u => isHighSurrogate u
  | pair .. => false

def isLow : CodePoint → Bool
  | unit u => isLowSurrogate u
  | pair .. => false

/-- The space and the control characters before it. -/
def isBlank : CodePoint → Bool
  | unit u => u ≤ 0x20
  | pair .. => false

/-- Two code points that are not read as one. -/
def Apart (a b : CodePoint) : Prop := ¬(a.isHigh ∧ b.isLow)

theorem units_ne_nil (c : CodePoint) : c.units ≠ [] := by
  cases c <;> simp [units]

theorem not_blank_of_isHighSurrogate {u : UInt16} (h : isHighSurrogate u) : ¬u ≤ 0x20 := by
  have hlower : (0xD800 : UInt16) ≤ u := (of_decide_eq_true h).1
  rw [UInt16.le_iff_toNat_le] at hlower ⊢
  exact fun hle => absurd (hlower.trans hle) (by decide)

theorem not_blank_of_isLowSurrogate {u : UInt16} (h : isLowSurrogate u) : ¬u ≤ 0x20 := by
  have hlower : (0xDC00 : UInt16) ≤ u := (of_decide_eq_true h).1
  rw [UInt16.le_iff_toNat_le] at hlower ⊢
  exact fun hle => absurd (hlower.trans hle) (by decide)

theorem not_isLowSurrogate_of_isHighSurrogate {u : UInt16} (h : isHighSurrogate u) :
    ¬isLowSurrogate u := by
  have hupper : u < (0xDC00 : UInt16) := (of_decide_eq_true h).2
  exact fun hlow => UInt16.not_le.mpr hupper (of_decide_eq_true hlow).1

/-- The units of a code point are blank with it. -/
theorem blank_of_mem_units {c : CodePoint} {u : UInt16} (hu : u ∈ c.units) :
    u ≤ 0x20 ↔ c.isBlank := by
  cases c with
  | unit v =>
    obtain rfl := List.mem_singleton.mp hu
    simp [isBlank]
  | pair high low hhigh hlow =>
    have hnot : ¬u ≤ 0x20 := by
      rcases List.mem_pair.mp hu with rfl | rfl
      · exact not_blank_of_isHighSurrogate hhigh
      · exact not_blank_of_isLowSurrogate hlow
    simpa [isBlank] using hnot

end CodePoint

open CodePoint

/-! ### The code points of a text -/

/-- The code points of a text. -/
def codePoints : List UInt16 → List CodePoint
  | [] => []
  | [u] => [.unit u]
  | u :: v :: s =>
    if h : isHighSurrogate u ∧ isLowSurrogate v then .pair u v h.1 h.2 :: codePoints s
    else .unit u :: codePoints (v :: s)

/-- The text of code points. -/
def units (l : List CodePoint) : List UInt16 := l.flatMap CodePoint.units

@[simp] theorem units_nil : units [] = [] := rfl

@[simp] theorem units_cons (c : CodePoint) (l : List CodePoint) :
    units (c :: l) = c.units ++ units l := rfl

theorem units_codePoints (s : List UInt16) : units (codePoints s) = s := by
  induction s using codePoints.induct with
  | case1 => rfl
  | case2 u => rfl
  | case3 u v s h ih => simp [codePoints, h, CodePoint.units, ih]
  | case4 u v s h ih => simp [codePoints, h, CodePoint.units, ih]

theorem isLowSurrogate_of_head {v : UInt16} {s : List UInt16} {c : CodePoint}
    (hc : c ∈ (codePoints (v :: s)).head?) (hlow : c.isLow) : isLowSurrogate v := by
  cases s with
  | nil =>
    obtain rfl := Option.some.inj hc
    exact hlow
  | cons w s =>
    rw [codePoints] at hc
    split_ifs at hc with h
    · obtain rfl := Option.some.inj hc
      cases hlow
    · obtain rfl := Option.some.inj hc
      exact hlow

/-- No two code points of a text are read as one. -/
theorem isChain_codePoints (s : List UInt16) : (codePoints s).IsChain Apart := by
  induction s using codePoints.induct with
  | case1 => exact .nil
  | case2 u => exact .singleton _
  | case3 u v s h ih =>
    rw [codePoints, dif_pos h, List.isChain_cons]
    exact ⟨fun c _ hapart => Bool.false_ne_true hapart.1, ih⟩
  | case4 u v s h ih =>
    rw [codePoints, dif_neg h, List.isChain_cons]
    exact ⟨fun c hc hapart => h ⟨hapart.1, isLowSurrogate_of_head hc hapart.2⟩, ih⟩

theorem codePoints_unit_cons {u : UInt16} {s : List UInt16}
    (h : ∀ v ∈ s.head?, ¬(isHighSurrogate u ∧ isLowSurrogate v)) :
    codePoints (u :: s) = .unit u :: codePoints s := by
  cases s with
  | nil => rfl
  | cons v s => rw [codePoints, dif_neg (h v rfl)]

theorem codePoints_units {l : List CodePoint} (h : l.IsChain Apart) : codePoints (units l) = l := by
  induction l with
  | nil => rfl
  | cons c l ih =>
    obtain ⟨hapart, hchain⟩ := List.isChain_cons.mp h
    cases c with
    | pair high low hhigh hlow =>
      have hpair : codePoints (high :: low :: units l) =
          .pair high low hhigh hlow :: codePoints (units l) := by
        rw [codePoints, dif_pos ⟨hhigh, hlow⟩]
      exact hpair.trans (congrArg _ (ih hchain))
    | unit u =>
      refine (codePoints_unit_cons fun v hv => ?_).trans (congrArg _ (ih hchain))
      cases l with
      | nil => cases hv
      | cons d l =>
        cases d with
        | unit w =>
          obtain rfl := Option.some.inj hv
          exact hapart _ rfl
        | pair high low hhigh hlow =>
          obtain rfl := Option.some.inj hv
          exact fun hsurrogates => not_isLowSurrogate_of_isHighSurrogate hhigh hsurrogates.2

/-! ### Trimming -/

section Trim

variable {α β : Type*} {f : α → List β} {p : α → Bool} {q : β → Bool}

/-- A list without the items at its ends that a test holds of. -/
def trimWith (p : α → Bool) (l : List α) : List α := (l.dropWhile p).rdropWhile p

theorem isInfix_trimWith (p : α → Bool) (l : List α) : trimWith p l <:+: l :=
  (List.rdropWhile_prefix p _).isInfix.trans (List.dropWhile_suffix p).isInfix

theorem trimWith_trimWith (p : α → Bool) (l : List α) :
    trimWith p (trimWith p l) = trimWith p l := by
  have hdrop : (trimWith p l).dropWhile p = trimWith p l := by
    refine List.dropWhile_eq_self_iff.mpr fun hpos => ?_
    have hstart : trimWith p l <+: l.dropWhile p := List.rdropWhile_prefix p _
    have hne : l.dropWhile p ≠ [] := fun hnil => by simp [trimWith, hnil] at hpos
    have hhead : (trimWith p l)[0] = (l.dropWhile p).head hne := by
      rw [← List.head_eq_getElem (List.ne_nil_of_length_pos hpos)]
      exact hstart.head _
    rw [hhead]
    exact Bool.eq_false_iff.mp (List.head_dropWhile_not p hne)
  rw [trimWith, hdrop, trimWith, List.rdropWhile_idempotent]

/-- Items that are mapped to items of the same kind are dropped before or after. -/
theorem dropWhile_flatMap (hf : ∀ a, f a ≠ []) (h : ∀ a, ∀ b ∈ f a, q b = p a) (l : List α) :
    (l.flatMap f).dropWhile q = (l.dropWhile p).flatMap f := by
  induction l with
  | nil => rfl
  | cons a l ih =>
    rw [List.flatMap_cons]
    cases hp : p a with
    | true =>
      rw [List.dropWhile_append_of_pos fun b hb => (h a b hb).trans hp, ih,
        List.dropWhile_cons_of_pos hp]
    | false =>
      obtain ⟨b, bs, hfa⟩ := List.exists_cons_of_ne_nil (hf a)
      have hq : ¬q b = true := by simp [h a b (hfa ▸ List.mem_cons_self), hp]
      rw [List.dropWhile_cons_of_neg (by simp [hp]), List.flatMap_cons, hfa, List.cons_append,
        List.dropWhile_cons_of_neg hq]

theorem trimWith_flatMap (hf : ∀ a, f a ≠ []) (h : ∀ a, ∀ b ∈ f a, q b = p a) (l : List α) :
    trimWith q (l.flatMap f) = (trimWith p l).flatMap f := by
  have hreverse := dropWhile_flatMap (f := List.reverse ∘ f) (p := p) (q := q)
    (fun a => by simpa using hf a) (fun a b hb => h a b (List.mem_reverse.mp hb))
  rw [trimWith, dropWhile_flatMap hf h, List.rdropWhile, List.reverse_flatMap, hreverse,
    List.reverse_flatMap, trimWith, List.rdropWhile]
  simp [Function.comp_def]

end Trim

/-! ### Upper case -/

/-- A full case mapping to upper case: every code point becomes one or more, in any text. -/
structure FullCaseMapping where
  upper : CodePoint → List CodePoint
  ne_nil : ∀ c, upper c ≠ []
  /-- A code point of the result has no other upper case. -/
  idempotent : ∀ c, ∀ d ∈ upper c, upper d = [d]
  /-- Only a surrogate becomes one. -/
  isHigh_eq : ∀ c, ∀ d ∈ upper c, d.isHigh = c.isHigh
  isLow_eq : ∀ c, ∀ d ∈ upper c, d.isLow = c.isLow
  /-- Only a blank becomes one. -/
  isBlank_eq : ∀ c, ∀ d ∈ upper c, d.isBlank = c.isBlank

namespace FullCaseMapping

variable (mapping : FullCaseMapping) {s : List UInt16} {l : List CodePoint}

def toUpperCase (s : List UInt16) : List UInt16 := units ((codePoints s).flatMap mapping.upper)

theorem not_isHigh_and_isLow (c : CodePoint) : ¬(c.isHigh ∧ c.isLow) := by
  cases c with
  | unit u => exact fun h => not_isLowSurrogate_of_isHighSurrogate h.1 h.2
  | pair high low hhigh hlow => exact fun h => Bool.false_ne_true h.1

/-- Code points stay apart. -/
theorem isChain_flatMap_upper (h : l.IsChain Apart) : (l.flatMap mapping.upper).IsChain Apart := by
  have hwithin : ∀ c ∈ l, (mapping.upper c).IsChain Apart := by
    refine fun c _ => (List.pairwise_of_forall_mem_list fun d hd e he => ?_).isChain
    exact fun hapart => not_isHigh_and_isLow c
      ⟨mapping.isHigh_eq c d hd ▸ hapart.1, mapping.isLow_eq c e he ▸ hapart.2⟩
  rw [List.flatMap, List.isChain_flatten (by simp [mapping.ne_nil])]
  refine ⟨List.forall_mem_map.mpr hwithin, List.isChain_map_of_isChain _ (fun a b hab => ?_) h⟩
  intro d hd e he hapart
  exact hab ⟨mapping.isHigh_eq a d (List.mem_of_mem_getLast? hd) ▸ hapart.1,
    mapping.isLow_eq b e (List.mem_of_mem_head? he) ▸ hapart.2⟩

theorem codePoints_toUpperCase (s : List UInt16) :
    codePoints (mapping.toUpperCase s) = (codePoints s).flatMap mapping.upper :=
  codePoints_units (mapping.isChain_flatMap_upper (isChain_codePoints s))

/-- Every code point of a text counts for those of its upper case. -/
theorem length_codePoints_toUpperCase (s : List UInt16) :
    (codePoints (mapping.toUpperCase s)).length =
      ((codePoints s).map fun c => (mapping.upper c).length).sum := by
  rw [codePoints_toUpperCase, List.length_flatMap]

theorem toUpperCase_toUpperCase (s : List UInt16) :
    mapping.toUpperCase (mapping.toUpperCase s) = mapping.toUpperCase s := by
  have hupper : ∀ c, (mapping.upper c).flatMap mapping.upper = mapping.upper c := fun c =>
    (List.flatMap_congr fun d hd => mapping.idempotent c d hd).trans (List.flatMap_singleton' _)
  rw [toUpperCase, codePoints_toUpperCase, List.flatMap_assoc]
  simp only [hupper, toUpperCase]

/-- A text is trimmed before or after. -/
theorem trim_toUpperCase (s : List UInt16) :
    trimWith (· ≤ 0x20) (mapping.toUpperCase s) = mapping.toUpperCase (trimWith (· ≤ 0x20) s) := by
  have hunits (l : List CodePoint) :
      trimWith (· ≤ 0x20) (units l) = units (trimWith CodePoint.isBlank l) :=
    trimWith_flatMap units_ne_nil (fun c u hu => Bool.eq_iff_iff.mpr <| by
      simpa using blank_of_mem_units hu) l
  have htrim : codePoints (trimWith (· ≤ 0x20) s) = trimWith CodePoint.isBlank (codePoints s) := by
    conv_lhs => rw [← units_codePoints s, hunits]
    exact codePoints_units ( List.IsChain.infix (isChain_codePoints s) (isInfix_trimWith _ _))
  rw [toUpperCase, hunits, trimWith_flatMap mapping.ne_nil mapping.isBlank_eq, toUpperCase, htrim]

end FullCaseMapping

end DanceSync.Utf16
