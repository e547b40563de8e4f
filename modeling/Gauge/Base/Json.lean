import Mathlib.Tactic

/-!
The values of `jsoncpp` and the few operations on them that a handler of parsed messages uses.

A failed assertion of the library and an exception are the result `none`.  Objects keep their
members in a list without double names, which stands for the map of the library; the text of a
message and its parser are not part of this module.
-/

namespace Json

/-- `Json::Value`, with a constructor for each `ValueType`. -/
inductive Value
  | nullValue
  | intValue (n : ℤ)
  | uintValue (n : ℕ)
  | longValue (n : ℤ)
  | ulongValue (n : ℕ)
  | realValue (x : ℚ)
  | stringValue (s : String)
  | booleanValue (b : Bool)
  | arrayValue (xs : List Value)
  | objectValue (members : List (String × Value))

namespace Value

instance : Inhabited Value := ⟨nullValue⟩

/-- `isNull()`. -/
def isNull : Value → Bool
  | nullValue => true
  | _ => false

/-- `isDouble()`. -/
def isDouble : Value → Bool
  | realValue _ => true
  | _ => false

/-- `isInt()`. -/
def isInt : Value → Bool
  | intValue _ => true
  | _ => false

/-- `isBool()`. -/
def isBool : Value → Bool
  | booleanValue _ => true
  | _ => false

/-- `isString()`. -/
def isString : Value → Bool
  | stringValue _ => true
  | _ => false

/-- `isArray()`. -/
def isArray : Value → Bool
  | arrayValue _ => true
  | _ => false

/-- `isObject()`. -/
def isObject : Value → Bool
  | objectValue _ => true
  | _ => false

/-- The value is a JSON number. -/
def isNumber : Value → Bool
  | intValue _ => true
  | uintValue _ => true
  | longValue _ => true
  | ulongValue _ => true
  | realValue _ => true
  | _ => false

/-- `asDouble()`: null is `0.0`, a boolean is `0.0` or `1.0`, and what is left, strings, arrays and
objects, throws. -/
def asDouble : Value → Option ℚ
  | nullValue => some 0
  | intValue n => some n
  | uintValue n => some n
  | longValue n => some n
  | ulongValue n => some n
  | realValue x => some x
  | booleanValue b => some (if b then 1 else 0)
  | stringValue _ => none
  | arrayValue _ => none
  | objectValue _ => none

/-- `asInt()` of a value with `isInt()`; its conversions of other values are left out. -/
def asInt : Value → Option ℤ
  | intValue n => some n
  | _ => none

/-- `asBool()` of a value with `isBool()`, likewise. -/
def asBool : Value → Option Bool
  | booleanValue b => some b
  | _ => none

/-- `asString()` of a value with `isString()`, likewise. -/
def asString : Value → Option String
  | stringValue s => some s
  | _ => none

/-- `empty()`: null, or an array or object without elements. -/
def empty : Value → Bool
  | nullValue => true
  | arrayValue xs => xs.isEmpty
  | objectValue members => members.isEmpty
  | _ => false

/-- `operator[]` with a name: null for a missing member, and a failed assertion on a value that
is neither an object nor null.  That the variant for a value that is not `const` adds the missing
member is left out. -/
def member (name : String) : Value → Option Value
  | nullValue => some nullValue
  | objectValue members => some ((members.lookup name).getD nullValue)
  | _ => none

/-- `get` with a name and the default null. -/
def get (name : String) (v : Value) : Option Value := v.member name

/-- The conversion of a member to a double. -/
def memberAsDouble (name : String) (v : Value) : Option ℚ := (v.member name).bind asDouble

lemma isSome_asDouble_of_isNumber {v : Value} (h : v.isNumber = true) :
    (v.asDouble).isSome = true := by
  cases v with
  | intValue n => rfl
  | uintValue n => rfl
  | longValue n => rfl
  | ulongValue n => rfl
  | realValue x => rfl
  | _ => exact absurd h (by simp [isNumber])

lemma isSome_asInt (v : Value) : (v.asInt).isSome = v.isInt := by cases v <;> rfl

lemma isSome_asBool (v : Value) : (v.asBool).isSome = v.isBool := by cases v <;> rfl

lemma isSome_asString (v : Value) : (v.asString).isSome = v.isString := by cases v <;> rfl

lemma isNumber_of_isDouble {v : Value} (h : v.isDouble = true) : v.isNumber = true := by
  cases v with
  | realValue x => rfl
  | _ => exact absurd h (by simp [isDouble])

end Value

end Json
