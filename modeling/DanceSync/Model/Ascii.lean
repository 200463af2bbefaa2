import DanceSync.Model.Room

/-!
# An engine for ASCII text

The real prototype of plain objects, with Unicode tables that know the ASCII letters only.

## Main definitions

* `objectPrototype`: `Object.prototype`.
* `Runtime.ascii`.
-/

namespace DanceSync

/-- The names of the properties of `Object.prototype`. -/
def inheritedNames : List JsString :=
  ["constructor", "__defineGetter__", "__defineSetter__", "hasOwnProperty", "__lookupGetter__",
    "__lookupSetter__", "isPrototypeOf", "propertyIsEnumerable", "toString", "valueOf",
    "__proto__", "toLocaleString"].map js

/-- `Object.prototype`; only `__proto__` has a setter. -/
def objectPrototype : Prototype JsString where
  inherited name := name ∈ inheritedNames
  setter name := name = js "__proto__"
  inherited_of_setter name h := by
    have hname : name = js "__proto__" := by simpa using h
    subst hname
    decide

namespace Runtime

def asciiLower (u : UInt16) : UInt16 := if 65 ≤ u ∧ u ≤ 90 then u + 32 else u

def asciiUpper (u : UInt16) : UInt16 := if 97 ≤ u ∧ u ≤ 122 then u - 32 else u

/-- Whole numbers in decimal, other numbers as a quotient. -/
def quotientText (q : ℚ) : JsString :=
  (if q.num < 0 then js "-" else []) ++ JsString.decimal q.num.natAbs ++
    (if q.den = 1 then [] else js "/" ++ JsString.decimal q.den)

def ascii : Runtime where
  proto := objectPrototype
  nfc := id
  toLowerCase text := text.map asciiLower
  toLocaleLowerCase text := text.map asciiLower
  toUpperCase text := text.map asciiUpper
  numberText := quotientText
  maxArrayLength := 1000000

end Runtime

end DanceSync
