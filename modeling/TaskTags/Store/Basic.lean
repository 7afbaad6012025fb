import TaskTags.Store.Variable

/-!
A store of variables in the order of their first assignment, and its projections: the values to
report, the values that changed, the facts.
-/

namespace TaskTags

/-- Names with values, in order. -/
abbrev Bindings := List (String × Json)

namespace Bindings

/-- A binding in the place of one of the same name, or at the end. -/
def bind (vars : Bindings) (name : String) (value : Json) : Bindings :=
  if vars.any (·.1 == name) then
    vars.map fun (n, v) => if n == name then (n, value) else (n, v)
  else vars ++ [(name, value)]

/-- Bindings with others over them. -/
def merge (vars added : Bindings) : Bindings :=
  added.foldl (fun vars (n, v) => bind vars n v) vars

end Bindings

/-- Values before and after a change, under the same names. -/
structure ValueDiff where
  before : Bindings
  after : Bindings
deriving Inhabited

structure VariableStore where
  entries : List (String × Variable)
deriving Inhabited

namespace VariableStore

/-- Names that no variable can have. -/
def reservedNames : List String :=
  ["__vars__", "_var", "var", "set_meta", "get_meta", "set", "output", "diff", "facts",
    "has_changed", "as_dict"]

def isReserved (name : String) : Bool :=
  reservedNames.contains name

def empty : VariableStore := ⟨[]⟩

def names (s : VariableStore) : List String :=
  s.entries.map (·.1)

def size (s : VariableStore) : Nat :=
  s.entries.length

def find? (s : VariableStore) (name : String) : Option Variable :=
  (s.entries.find? (·.1 == name)).map (·.2)

def lookup (s : VariableStore) (name : String) : Except Error Variable :=
  match s.find? name with
  | some v => .ok v
  | none => .error (.variableNotFound name)

/-- Puts a variable under its name, a new name behind all others. -/
def put (s : VariableStore) (name : String) (v : Variable) : VariableStore :=
  if name ∈ s.names then
    ⟨s.entries.map fun entry => if entry.1 = name then (name, v) else entry⟩
  else
    ⟨s.entries ++ [(name, v)]⟩

def setWith (s : VariableStore) (name : String) (value : Json) (options : VariableOptions) :
    Except Error VariableStore := do
  if isReserved name then
    throw (.reservedName name)
  let v ← ((s.find? name).getD Variable.blank).configure options
  return s.put name (v.assign value)

def set (s : VariableStore) (name : String) (value : Json) : Except Error VariableStore :=
  s.setWith name value .none

def configure (s : VariableStore) (name : String) (options : VariableOptions) :
    Except Error VariableStore := do
  let v ← s.lookup name
  let v ← v.configure options
  return s.put name v

def get (s : VariableStore) (name : String) : Except Error Json :=
  (s.lookup name).map (·.value)

def hasChanged (s : VariableStore) : Bool :=
  s.entries.any (·.2.hasChanged)

def valuesWhere (s : VariableStore) (shown : Variable → Bool) : Bindings :=
  (s.entries.filter (shown ·.2)).map fun (name, v) => (name, v.value)

def initialsWhere (s : VariableStore) (shown : Variable → Bool) : Bindings :=
  (s.entries.filter (shown ·.2)).map fun (name, v) => (name, v.initial)

def values (s : VariableStore) : Bindings :=
  s.valuesWhere fun _ => true

def output (s : VariableStore) (verbosity : Nat) : Bindings :=
  s.valuesWhere (·.showsOutput verbosity)

/-- Nothing if no variable shows a difference. -/
def diff (s : VariableStore) (verbosity : Nat) : Option ValueDiff :=
  let before := s.initialsWhere (·.showsDiff verbosity)
  if before.isEmpty then none
  else some ⟨before, s.valuesWhere (·.showsDiff verbosity)⟩

/-- Nothing if no variable is a fact. -/
def facts (s : VariableStore) : Option Bindings :=
  let facts := s.valuesWhere (·.fact)
  if facts.isEmpty then none else some facts

end VariableStore
end TaskTags
