import Gauge.Base.Json

/-!
The class `JsonHandler`: the parser of a request and the validators of its parameters.

The validators have one body, `validateJson`, with a type test and a conversion each.  The
variable `isParamValid` of this body is first whether the value is empty and then whether the
parameter is valid, so that an empty value leaves with `true`.

* `validators_iff`: when each validator succeeds exactly on a parameter of its type.
-/

namespace Gauge

open Json

namespace Payload

/-- `JsonHandler::ParseJsonString`. -/
def parseJsonString (parse : String → Option Value) (inParam : String) : Option Value :=
  if inParam = "" then none else parse inParam

/-- The body of the validators, with the type test and the conversion of each: what it returns, and
the last argument afterwards. -/
def validateJson {α : Type*} (isType : Value → Bool) (asType : Value → Option α)
    (inParam : String) (inJsonValue : Value) (out : α) : Option (Bool × α) :=
  let isParamValid := inJsonValue.empty
  if isParamValid = false then
    (inJsonValue.get inParam).bind fun jsonValue =>
      if jsonValue.isNull = false then
        let isParamValid := isType jsonValue
        if isParamValid = true then (asType jsonValue).map fun x => (isParamValid, x)
        else some (isParamValid, out)
      else some (isParamValid, out)
  else some (isParamValid, out)

/-- `JsonHandler::ValidateJsonInt`. -/
def validateJsonInt : String → Value → ℤ → Option (Bool × ℤ) :=
  validateJson Value.isInt Value.asInt

/-- `JsonHandler::ValidateJsonDouble`. -/
def validateJsonDouble : String → Value → ℚ → Option (Bool × ℚ) :=
  validateJson Value.isDouble Value.asDouble

/-- `JsonHandler::ValidateJsonBool`. -/
def validateJsonBool : String → Value → Bool → Option (Bool × Bool) :=
  validateJson Value.isBool Value.asBool

/-- `JsonHandler::ValidateJsonString`. -/
def validateJsonString : String → Value → String → Option (Bool × String) :=
  validateJson Value.isString Value.asString

/-- `JsonHandler::ValidateJsonObject`, whose output is the member itself. -/
def validateJsonObject : String → Value → Value → Option (Bool × Value) :=
  validateJson Value.isObject some

/-- `JsonHandler::ValidateJsonArray`, which has no output. -/
def validateJsonArray (inParam : String) (inJsonValue : Value) : Option Bool :=
  (validateJson Value.isArray (fun _ => some ()) inParam inJsonValue ()).map (·.1)

end Payload

/-! ### What the validators promise -/

section Validators

variable {α : Type*} {isType : Value → Bool} {asType : Value → Option α}

/-- The parameter of a name: the member of an object, if it is not null. -/
def param (name : String) : Value → Option Value
  | .objectValue members => (members.lookup name).filter fun m => !m.isNull
  | _ => none

/-- A validator returns true exactly if the parameter is there and has the type; then its output
is the value of the parameter, and otherwise it is as before. -/
def Validates (isType : Value → Bool) (asType : Value → Option α)
    (validate : String → Value → α → Option (Bool × α)) (name : String) (v : Value) : Prop :=
  ∀ out, ∃ valid out', validate name v out = some (valid, out') ∧
    (valid = true ↔ ∃ m, param name v = some m ∧ isType m = true) ∧
    (valid = true → ∃ m, param name v = some m ∧ asType m = some out') ∧
    (valid = false → out' = out)

/-- The same for `validateJsonArray`. -/
def ValidatesArray (name : String) (v : Value) : Prop :=
  ∃ valid, Payload.validateJsonArray name v = some valid ∧
    (valid = true ↔ ∃ m, param name v = some m ∧ m.isArray = true)

/-- What the body does with an object that is not empty. -/
lemma validateJson_object (name : String) {members : List (String × Value)}
    (hne : members.isEmpty = false) (out : α) :
    Payload.validateJson isType asType name (.objectValue members) out =
      match param name (.objectValue members) with
      | none => some (false, out)
      | some m =>
          if isType m = true then (asType m).map fun x => (true, x) else some (false, out) := by
  rw [Payload.validateJson, Value.empty, hne, if_pos rfl, Value.get, Value.member, Option.bind_some,
    param]
  cases members.lookup name with
  | none => rfl
  | some m =>
      cases hnull : m.isNull with
      | true => simp [Option.filter, hnull]
      | false => cases htype : isType m <;> simp [Option.filter, hnull, htype]

/-- An empty value is reported as a valid parameter. -/
lemma validateJson_empty (name : String) {v : Value} (hempty : v.empty = true) (out : α) :
    Payload.validateJson isType asType name v out = some (true, out) := by
  rw [Payload.validateJson, hempty, if_neg Bool.true_eq_false_eq_False]

/-- An empty value has no parameters. -/
lemma param_of_empty (name : String) {v : Value} (hempty : v.empty = true) :
    param name v = none := by
  cases v with
  | objectValue members =>
      obtain rfl := List.isEmpty_iff.mp hempty
      rfl
  | _ => rfl

/-- **One validator** keeps its promise exactly on the values that are not empty. -/
lemma validates_iff (hconv : ∀ m, isType m = true → (asType m).isSome = true) (name : String)
    {v : Value} (hv : v = .nullValue ∨ ∃ members, v = .objectValue members) [Inhabited α] :
    Validates isType asType (Payload.validateJson isType asType) name v ↔ v.empty = false := by
  refine ⟨fun h => ?_, fun hne => ?_⟩
  · by_contra hempty
    rw [Bool.not_eq_false] at hempty
    obtain ⟨valid, out', hrun, htrue, -⟩ := h default
    rw [validateJson_empty name hempty] at hrun
    obtain ⟨rfl, -⟩ := Prod.mk.inj (Option.some_inj.mp hrun)
    obtain ⟨m, hm, -⟩ := htrue.mp rfl
    rw [param_of_empty name hempty] at hm
    exact absurd hm (by simp)
  · intro out
    obtain rfl | ⟨members, rfl⟩ := hv
    · exact absurd hne (by simp [Value.empty])
    rw [validateJson_object name hne]
    cases hparam : param name (.objectValue members) with
    | none => exact ⟨false, out, rfl, by simp, by simp, fun _ => rfl⟩
    | some m =>
        cases htype : isType m with
        | false => exact ⟨false, out, by simp [htype], by simp [htype], by simp, fun _ => rfl⟩
        | true =>
            obtain ⟨x, hx⟩ := Option.isSome_iff_exists.mp (hconv m htype)
            refine ⟨true, x, by simp [htype, hx], by simp [htype], fun _ => ⟨m, rfl, hx⟩, by simp⟩

/-- The validator without an output. -/
lemma validatesArray_iff (name : String) {v : Value}
    (hv : v = .nullValue ∨ ∃ members, v = .objectValue members) :
    ValidatesArray name v ↔ v.empty = false := by
  have hbody : Validates Value.isArray (fun _ => some ())
      (Payload.validateJson Value.isArray fun _ => some ()) name v ↔ v.empty = false :=
    validates_iff (fun _ _ => rfl) name hv
  rw [← hbody]
  refine ⟨fun ⟨valid, hrun, htrue⟩ => ?_, fun h => ?_⟩
  · rintro ⟨⟩
    obtain ⟨⟨valid', ⟨⟩⟩, hrun', rfl⟩ := Option.map_eq_some_iff.mp hrun
    refine ⟨valid', (), hrun', htrue, fun h => ?_, fun _ => rfl⟩
    obtain ⟨m, hm, -⟩ := htrue.mp h
    exact ⟨m, hm, rfl⟩
  · obtain ⟨valid, ⟨⟩, hrun, htrue, -⟩ := h ()
    exact ⟨valid, by rw [Payload.validateJsonArray, hrun, Option.map_some], htrue⟩

end Validators

/-- The validators. -/
inductive Validator
  | int
  | double
  | bool
  | string
  | object
  | array

/-- What each of them promises for a name and a value. -/
def Validator.Promise : Validator → String → Value → Prop
  | int => Validates Value.isInt Value.asInt Payload.validateJsonInt
  | double => Validates Value.isDouble Value.asDouble Payload.validateJsonDouble
  | bool => Validates Value.isBool Value.asBool Payload.validateJsonBool
  | string => Validates Value.isString Value.asString Payload.validateJsonString
  | object => Validates Value.isObject some Payload.validateJsonObject
  | array => ValidatesArray

/-- **The validators succeed exactly on well-typed parameters**, of every value but the empty
ones. -/
theorem validators_iff (k : Validator) (name : String) {v : Value}
    (hv : v = .nullValue ∨ ∃ members, v = .objectValue members) :
    k.Promise name v ↔ v.empty = false := by
  cases k with
  | int => exact validates_iff (fun m hm => (Value.isSome_asInt m).trans hm) name hv
  | double =>
      exact validates_iff (fun m hm => Value.isSome_asDouble_of_isNumber
        (Value.isNumber_of_isDouble hm)) name hv
  | bool => exact validates_iff (fun m hm => (Value.isSome_asBool m).trans hm) name hv
  | string => exact validates_iff (fun m hm => (Value.isSome_asString m).trans hm) name hv
  | object => exact validates_iff (fun _ _ => rfl) name hv
  | array => exact validatesArray_iff name hv

theorem validators_iff_int :
    Validator.int.Promise "speed" (.objectValue [("speed", .intValue 50)]) :=
  (validators_iff .int "speed" (Or.inr ⟨_, rfl⟩)).mpr rfl

/-- The empty object is said to have a valid latitude. -/
theorem not_forall_validators :
    ¬ ∀ (k : Validator) (name : String) (v : Value),
      (v = .nullValue ∨ ∃ members, v = .objectValue members) → k.Promise name v := by
  intro h
  obtain ⟨valid, out', hrun, htrue, -⟩ := h .double "latitude" (.objectValue [])
    (Or.inr ⟨[], rfl⟩) 0
  rw [Payload.validateJsonDouble, validateJson_empty "latitude" rfl] at hrun
  obtain ⟨rfl, -⟩ := Prod.mk.inj (Option.some_inj.mp hrun)
  obtain ⟨m, hm, -⟩ := htrue.mp rfl
  exact absurd hm (by simp [param])

end Gauge
