import TaskTags.Template.Args
import TaskTags.Text.Case

/-!
Tests on values.
-/

namespace TaskTags.Template

def isUpperText (s : String) : Bool := s.toList.all fun c => Text.lowerChar c ≠ [c]
def isLowerText (s : String) : Bool := s.toList.all fun c => Text.upperChar c ≠ [c]

namespace Test

def names : List String :=
  ["undefined", "defined", "none", "safe", "escaped", "boolean", "odd", "even", "divisibleby",
    "number", "integer", "int", "float", "string", "sequence", "iterable", "mapping",
    "startingwith", "endingwith", "lower", "upper", "sameas", "eq", "equalto", "==", "ne", "!=",
    "lt", "lessthan", "<", "le", "<=", "gt", "greaterthan", ">", "ge", ">=", "in", "true", "false",
    "filter", "test"]

def isDivisible (v w : Value) : Bool :=
  match Value.pair? false v w with
  | some (.ints a b) => b ≠ 0 && a % b == 0
  | some (.floats x y) => (Value.remainder x y).magnitude == 0
  | _ => false

def isObject : Value → Bool
  | .list .. | .map _ | .named _ | .nameSpace _ | .loop .. | .function _ | .callable .. => true
  | _ => false

def ordered (accepts : Ordering → Bool) : Args Bool := do
  let v ← Args.value
  let w ← Args.value
  return accepts (Value.order v w)

def simple (p : Value → Bool) : Args Bool := p <$> Args.value

def onTexts (p : String → String → Bool) : Args Bool := do
  let s ← Args.text
  let t ← Args.text
  return p s t

/-- A test by its name, with the names of the filters that there are. -/
def ofName? (filterNames : List String) : String → Option (Args Bool)
  | "undefined" => some (simple (·.isUndefined))
  | "defined" => some (simple (!·.isUndefined))
  | "none" => some (simple (·.kind == .none))
  | "safe" | "escaped" => some (simple fun v =>
      match v with
      | .str _ isSafe => isSafe
      | _ => false)
  | "boolean" => some (simple (·.kind == .bool))
  | "odd" => some (simple fun v => v.asInt?.any (· % 2 ≠ 0))
  | "even" => some (simple fun v => v.asInt?.any (· % 2 = 0))
  | "divisibleby" => some do
      let v ← Args.value
      let w ← Args.value
      return isDivisible v w
  | "number" => some (simple (·.kind == .number))
  | "integer" | "int" => some (simple fun v =>
      match v with
      | .int _ => true
      | _ => false)
  | "float" => some (simple fun v =>
      match v with
      | .float _ => true
      | _ => false)
  | "string" => some (simple (·.kind == .string))
  | "sequence" => some (simple (·.kind == .seq))
  | "iterable" => some (simple (·.items?.isSome))
  | "mapping" => some (simple (·.kind == .map))
  | "startingwith" => some (onTexts fun s t => t.toList.isPrefixOf s.toList)
  | "endingwith" => some (onTexts fun s t => t.toList.isSuffixOf s.toList)
  | "lower" => some (isLowerText <$> Args.string)
  | "upper" => some (isUpperText <$> Args.string)
  | "sameas" => some do
      let v ← Args.value
      let w ← Args.value
      return isObject v == isObject w && Value.same v w
  | "eq" | "equalto" | "==" => some do
      let v ← Args.value
      let w ← Args.value
      return Value.same v w
  | "ne" | "!=" => some do
      let v ← Args.value
      let w ← Args.value
      return !Value.same v w
  | "lt" | "lessthan" | "<" => some (ordered (· == .lt))
  | "le" | "<=" => some (ordered (· != .gt))
  | "gt" | "greaterthan" | ">" => some (ordered (· == .gt))
  | "ge" | ">=" => some (ordered (· != .lt))
  | "in" => some do
      let v ← Args.value
      let w ← Args.value
      if w.isMissing then throw .undefinedValue
      match w.contains v with
      | .ok b => return b
      | .error _ => return false
  | "true" => some (simple fun v =>
      match v with
      | .bool b => b
      | _ => false)
  | "false" => some (simple fun v =>
      match v with
      | .bool b => !b
      | _ => false)
  | "filter" => some (filterNames.contains <$> Args.string)
  | "test" => some (names.contains <$> Args.string)
  | _ => none

def apply (filterNames : List String) (name : String) (args : List Value) : Except Fault Bool :=
  match ofName? filterNames name with
  | some test => Args.run test args
  | none => .error .unknownTest

end Test
end TaskTags.Template
