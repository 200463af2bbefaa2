import DanceSync.Js.Value
import DanceSync.Numbers.Binary64

/-!
# Numbers from text

`Number(text)`: a numeric literal between white space, rounded to the nearest double. It is infinite
from where a literal is rounded to infinity.

## Main definitions

* `JsString.toNumber`.
-/

namespace DanceSync.JsString

def isDigit (u : UInt16) : Bool := 48 ≤ u && u ≤ 57

/-- The number that decimal digits write. -/
def ofDigits (s : JsString) : ℕ := s.foldl (fun n u => 10 * n + (u.toNat - 48)) 0

/-- One or more decimal digits. -/
def digits? (s : JsString) : Option ℕ := if s ≠ [] ∧ s.all isDigit then some (ofDigits s) else none

/-- A sign and what follows it. -/
def splitSign : JsString → Bool × JsString
  | [] => (false, [])
  | u :: s => if u = 45 then (true, s) else if u = 43 then (false, s) else (false, u :: s)

/-- The exponent after the digits of a literal; there may be none. -/
def exponent? : JsString → Option ℤ
  | [] => some 0
  | u :: s =>
    if u = 101 ∨ u = 69 then
      let (negative, digits) := splitSign s
      (digits? digits).map fun n => if negative then -n else n
    else none

/-- `n` times a power of 10. -/
def scaled (n : ℕ) (exponent : ℤ) : ℚ :=
  if 0 ≤ exponent then n * 10 ^ exponent.toNat else n / 10 ^ (-exponent).toNat

/-- A decimal literal without a sign. -/
def decimalLiteral? (s : JsString) : Option ℚ :=
  let whole := s.takeWhile isDigit
  match s.dropWhile isDigit with
  | 46 :: rest =>
    let fraction := rest.takeWhile isDigit
    if whole = [] ∧ fraction = [] then none
    else (exponent? (rest.dropWhile isDigit)).map fun e =>
      scaled (ofDigits (whole ++ fraction)) (e - fraction.length)
  | rest => if whole = [] then none else (exponent? rest).map (scaled (ofDigits whole))

/-- A digit up to base 16. -/
def digitValue (u : UInt16) : ℕ :=
  if isDigit u then u.toNat - 48
  else if 97 ≤ u ∧ u ≤ 102 then u.toNat - 87
  else if 65 ≤ u ∧ u ≤ 70 then u.toNat - 55
  else 16

/-- The digits of a literal in another base. -/
def radixLiteral? (base : ℕ) (s : JsString) : Option ℚ :=
  if s ≠ [] ∧ s.all (digitValue · < base) then
    some (s.foldl (fun n u => base * n + digitValue u) 0 : ℕ)
  else none

/-- The least number that is rounded to infinity. -/
def INFINITE : ℚ := 2 ^ 1024 - 2 ^ 970

/-- `Number(text)` where it is finite; `none` for `NaN`, `Infinity` and `-Infinity`. -/
def toNumber (s : JsString) : Option ℚ :=
  let t := s.trim
  let value :=
    if t = [] then some 0
    else if t.take 2 ∈ [js "0x", js "0X"] then radixLiteral? 16 (t.drop 2)
    else if t.take 2 ∈ [js "0o", js "0O"] then radixLiteral? 8 (t.drop 2)
    else if t.take 2 ∈ [js "0b", js "0B"] then radixLiteral? 2 (t.drop 2)
    else
      let (negative, literal) := splitSign t
      (decimalLiteral? literal).map fun v => if negative then -v else v
  (value.filter fun v => |v| < INFINITE).map Binary64.round

example : toNumber (js " 2500 ") = some 2500 ∧ toNumber (js "-1.5e1") = some (-15) ∧
    toNumber (js "0x10") = some 16 ∧ toNumber (js "abc") = none ∧
    toNumber (js "1e-400") = some 0 ∧ toNumber (js "2.99999999999999999999") = some 3 := by
  decide +kernel

end DanceSync.JsString
