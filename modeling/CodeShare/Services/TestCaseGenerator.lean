import CodeShare.Text.ParsedJson

/-! # Checking generated test cases

`structuralValidation` of `TestCaseGeneratorService.ts`, on the JSON array that the model has returned.
-/

namespace CodeShare
set_option autoImplicit false

namespace ParsedJson

/-- `typeof`. -/
def typeOf : ParsedJson → JsString
  | .null | .arr _ | .obj _ => js "object"
  | .bool _ => js "boolean"
  | .finite _ | .infinite _ => js "number"
  | .str _ => js "string"

def truthy : ParsedJson → Bool
  | .null | .bool false | .str [] => false
  | .finite value => value.significand ≠ 0
  | _ => true

/-- `Object.keys` of an object. -/
def ownKeys : ParsedJson → List JsString
  | .obj members => members.map Prod.fst
  | .arr items => (List.range items.length).map decimalUnits
  | _ => []

end ParsedJson

def inferValueType : ParsedJson → JsString
  | .arr _ => js "array"
  | value => value.typeOf

/-- The type that all outputs share. -/
def inferOutputType (visibleOutputs : List ParsedJson) : Option JsString :=
  match (visibleOutputs.map inferValueType).dedup with
  | [only] => some only
  | _ => none

/-- The check of one case that is not `null`. -/
def structurallyValid (parameterNames : List JsString) (sampleOutputType : Option JsString)
    (c : ParsedJson) : Bool :=
  match c.get (js "input"), c.get (js "expectedOutput") with
  | some input, some expectedOutput =>
    let inputKeys := input.ownKeys.dedup
    let paramSet := parameterNames.dedup
    if !input.truthy || input.typeOf ≠ js "object" then false
    else if expectedOutput matches .null then false
    else if inputKeys.length ≠ paramSet.length then false
    else if paramSet.any (· ∉ inputKeys) then false
    else !sampleOutputType.any (· ≠ inferValueType expectedOutput)
  | _, _ => false

/-- Reading a property of `null` throws. -/
def structuralValidation (maxCases : ℕ) (parameterNames : List JsString)
    (visibleOutputs : List ParsedJson) (cases : List ParsedJson) : Option (List ParsedJson) :=
  if cases.any (· matches .null) then none
  else some ((cases.filter (structurallyValid parameterNames (inferOutputType visibleOutputs))).take
    maxCases)

end CodeShare
