import Mathlib

/-!
# JavaScript values

The part of the JavaScript value domain that the battle service computes with: strings as
sequences of UTF-16 code units, the values a client may send over the wire, and what a call may
throw. A finite number is the rational that it stands for, so `Number.isFinite` holds of all of
them; how an operation rounds is in `DanceSync.Js.Date`.

## Main definitions

* `JsString`, `js`, `JsString.trim`, `JsString.decimal`.
* `JsValue`: a value received from a client.
* `throwIf`: the guard `if (condition) throw error`.

## Main results

* `JsString.decimal_injective`: different numbers are printed differently.
* `throwIf_eq_ok`, `bind_eq_ok`: when a guarded computation succeeds.
-/

namespace DanceSync

/-! ### Strings -/

/-- A JavaScript string: its UTF-16 code units. -/
abbrev JsString := List UInt16

instance : LawfulBEq JsString := List.instLawfulBEq

/-- The code units of one character. -/
def JsString.encode (c : Char) : JsString :=
  if c.toNat < 0x10000 then [c.toNat.toUInt16]
  else [(0xD800 + (c.toNat - 0x10000) / 0x400).toUInt16,
    (0xDC00 + (c.toNat - 0x10000) % 0x400).toUInt16]

/-- The JavaScript string of a literal of the source. -/
def js (text : String) : JsString := text.toList.flatMap JsString.encode

namespace JsString

/-- The code units that `String.prototype.trim` removes: white space and line terminators. -/
def isBlank (u : UInt16) : Bool :=
  (9 ≤ u && u ≤ 13) || u = 0x20 || u = 0xA0 || u = 0x1680 || (0x2000 ≤ u && u ≤ 0x200A) ||
    u = 0x2028 || u = 0x2029 || u = 0x202F || u = 0x205F || u = 0x3000 || u = 0xFEFF

/-- `String.prototype.trimEnd`. -/
def trimEnd (s : JsString) : JsString := s.rdropWhile isBlank

/-- `String.prototype.trim`. -/
def trim (s : JsString) : JsString := trimEnd (s.dropWhile isBlank)

/-- A natural number in decimal, as a template literal prints it. -/
def decimal (n : ℕ) : JsString := (Nat.toDigits 10 n).map fun c => c.toNat.toUInt16

/-- The number that a decimal text prints. -/
private def ofDecimal (s : JsString) : ℕ :=
  Nat.ofDigitChars 10 (s.map fun u => Char.ofNat u.toNat) 0

/-- A decimal digit is recovered from its code unit. -/
private theorem ofNat_toUInt16_of_isDigit {c : Char} (hc : c.isDigit) :
    Char.ofNat c.toNat.toUInt16.toNat = c := by
  have hlt : c.toNat < 2 ^ 16 := by
    simp only [Char.isDigit, Bool.and_eq_true, decide_eq_true_eq] at hc
    have : c.toNat ≤ 57 := hc.2
    omega
  have hmod : c.toNat.toUInt16.toNat = c.toNat := by
    simpa using Nat.mod_eq_of_lt hlt
  rw [hmod, Char.ofNat_toNat]

private theorem ofDecimal_decimal (n : ℕ) : ofDecimal (decimal n) = n := by
  have hmap : (Nat.toDigits 10 n).map (fun c => Char.ofNat c.toNat.toUInt16.toNat) =
      Nat.toDigits 10 n := by
    conv_rhs => rw [← List.map_id (Nat.toDigits 10 n)]
    refine List.map_congr_left fun c hc => ?_
    exact ofNat_toUInt16_of_isDigit (Nat.isDigit_of_mem_toDigits (by omega) (by omega) hc)
  simp only [ofDecimal, decimal, List.map_map, Function.comp_def, hmap,
    Nat.ofDigitChars_ten_toDigits]

/-- Different numbers are printed differently. -/
theorem decimal_injective : Function.Injective decimal :=
  Function.LeftInverse.injective (g := ofDecimal) ofDecimal_decimal

/-- A decimal text consists of digits. -/
theorem digit_of_mem_decimal {n : ℕ} {u : UInt16} (hu : u ∈ decimal n) :
    48 ≤ u.toNat ∧ u.toNat ≤ 57 := by
  obtain ⟨c, hc, rfl⟩ := List.mem_map.mp hu
  have hdigit : c.isDigit := Nat.isDigit_of_mem_toDigits (by omega) (by omega) hc
  simp only [Char.isDigit, Bool.and_eq_true, decide_eq_true_eq] at hdigit
  have hlower : 48 ≤ c.toNat := hdigit.1
  have hupper : c.toNat ≤ 57 := hdigit.2
  have hunit : c.toNat.toUInt16.toNat = c.toNat := by
    simpa using Nat.mod_eq_of_lt (show c.toNat < 2 ^ 16 by omega)
  omega

/-- A decimal text has no colon. -/
theorem ne_colon_of_mem_decimal {n : ℕ} {u : UInt16} (hu : u ∈ decimal n) : u ≠ 58 := by
  rintro rfl
  exact absurd (digit_of_mem_decimal hu).2 (by decide)

theorem isBlank_of_mem_decimal {n : ℕ} {u : UInt16} (hu : u ∈ decimal n) : isBlank u = false := by
  obtain ⟨hlower, hupper⟩ := digit_of_mem_decimal hu
  simp only [isBlank, Bool.or_eq_false_iff, Bool.and_eq_false_iff, decide_eq_false_iff_not,
    UInt16.le_iff_toNat_le, ← UInt16.toNat_inj, UInt16.reduceToNat]
  omega

theorem decimal_ne_nil (n : ℕ) : decimal n ≠ [] := by
  simp [decimal, Nat.toDigits_ne_nil]

/-! ### Trimming -/

/-- A text that neither begins nor ends with a blank is not trimmed. -/
theorem trim_eq_self {s : JsString} (hhead : ∀ hs : s ≠ [], isBlank (s.head hs) = false)
    (hlast : ∀ hs : s ≠ [], isBlank (s.getLast hs) = false) : s.trim = s := by
  have hdrop : s.dropWhile isBlank = s := by
    refine List.dropWhile_eq_self_iff.mpr fun hs => ?_
    rw [← List.head_eq_getElem (List.length_pos_iff.mp hs), hhead]
    exact Bool.false_ne_true
  rw [trim, trimEnd, hdrop, List.rdropWhile_eq_self_iff]
  intro hs
  rw [hlast hs]
  exact Bool.false_ne_true

theorem head_trim {s : JsString} (hs : s.trim ≠ []) : isBlank (s.trim.head hs) = false := by
  have hstart : s.trim <+: s.dropWhile isBlank := List.rdropWhile_prefix isBlank _
  rw [hstart.head hs]
  exact List.head_dropWhile_not isBlank _

theorem getLast_trim {s : JsString} (hs : s.trim ≠ []) : isBlank (s.trim.getLast hs) = false :=
  Bool.eq_false_of_not_eq_true (List.rdropWhile_last_not isBlank (s.dropWhile isBlank) hs)

theorem trim_trim (s : JsString) : s.trim.trim = s.trim :=
  trim_eq_self head_trim getLast_trim

end JsString

/-! ### Values sent by a client -/

/-- A value of an `unknown` field of a message. -/
inductive JsValue where
  | undefined
  | null
  | boolean (value : Bool)
  | number (value : ℚ)
  | string (value : JsString)
  | array (items : List JsValue)
  | object (fields : List (JsString × JsValue))

namespace JsValue

/-- The text of a value whose `typeof` is `"string"`. -/
def string? : JsValue → Option JsString
  | .string s => some s
  | _ => none

/-- The flag of a value whose `typeof` is `"boolean"`. -/
def boolean? : JsValue → Option Bool
  | .boolean b => some b
  | _ => none

/-- Whether `value == null`: it is `null` or `undefined`. -/
def isNullish : JsValue → Bool
  | .undefined | .null => true
  | _ => false

/-- The texts of an array all of whose items are strings. -/
def strings? : JsValue → Option (List JsString)
  | .array items => items.mapM string?
  | _ => none

end JsValue

/-! ### Guards -/

/-- `if (condition) throw error;` -/
def throwIf {ε : Type} (condition : Prop) [Decidable condition] (error : ε) : Except ε Unit :=
  if condition then .error error else .ok ()

section Guards

variable {ε α β : Type}

/-- A guard passes when its condition does not hold. -/
theorem throwIf_bind {ε α : Type} {condition : Prop} [Decidable condition] (error : ε)
    (f : Unit → Except ε α) :
    (throwIf condition error >>= f) = if condition then .error error else f () := by
  unfold throwIf
  split_ifs <;> rfl

theorem throwIf_eq_ok {condition : Prop} [Decidable condition] {error : ε} {u : Unit} :
    throwIf condition error = .ok u ↔ ¬condition := by
  by_cases h : condition <;> simp [throwIf, h]

/-- A sequence of two computations succeeds when both do. -/
theorem bind_eq_ok {x : Except ε α} {f : α → Except ε β} {b : β} :
    (x >>= f) = .ok b ↔ ∃ a, x = .ok a ∧ f a = .ok b := by
  cases x <;> simp [bind, Except.bind]

/-- A computation wrapped in `some` succeeds when it does. -/
theorem map_some_eq_ok {x : Except ε α} {a : α} (h : some <$> x = .ok (some a)) : x = .ok a := by
  cases x with
  | error e => simp [Functor.map, Except.map] at h
  | ok b => simpa [Functor.map, Except.map] using h

theorem exists_ok_of_isOk {x : Except ε α} (h : x.isOk) : ∃ a, x = .ok a := by
  cases x with
  | error e => simp [Except.isOk, Except.toBool] at h
  | ok a => exact ⟨a, rfl⟩

theorem pure_eq_ok {a b : α} : (pure a : Except ε α) = .ok b ↔ a = b := by
  simp [pure, Except.pure]

end Guards

end DanceSync
