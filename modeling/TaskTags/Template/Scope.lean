import TaskTags.Template.Filter

/-!
The names that a template knows at a place, and what can be done with them.
-/

namespace TaskTags.Template

/-- A loop that can start again on other items. -/
structure Again where
  target : Target
  body : List Stmt
  other : List Stmt

structure LoopScope where
  /-- The state of the loop as a value. -/
  value : Value
  /-- The arguments with which the loop was last asked for a change. -/
  seen : Option (List Value)
  again : Option Again

structure Scope where
  vars : List (String × Value)
  loop : Option LoopScope

namespace Scope

def empty : Scope := ⟨[], none⟩

def set (s : Scope) (name : String) (v : Value) : Scope :=
  { s with vars := (name, v) :: s.vars.filter (·.1 ≠ name) }

def find? (s : Scope) (name : String) : Option Value :=
  match s.vars.lookup name with
  | some v => some v
  | none => if name == "loop" then s.loop.map (·.value) else none

end Scope

/-- Scopes from the innermost one on, the bodies of blocks, and the format of the output. -/
structure State where
  scopes : List Scope
  blocks : List (String × List Stmt)
  escape : Escape

abbrev Eval := StateT State (Except Fault)

/-- What can be called with its body. -/
inductive Callee where
  | definition (params : List String) (defaults : List Expr) (body : List Stmt) (scopes : Nat)
  | loop (again : Again)
  | block (body : List Stmt)

/-- Calls of bodies, which the evaluation of expressions leaves to its caller. -/
abbrev Caller := Callee → List Value → Eval Value

def functionNames : List String := ["range", "dict", "debug", "namespace"]

namespace Eval

def find? (name : String) : Eval (Option Value) := do
  match (← get).scopes.findSome? (·.find? name) with
  | some v => return some v
  | none => return if functionNames.contains name then some (.function name) else none

def push (s : Scope) : Eval Unit := modify fun st => { st with scopes := s :: st.scopes }

def pop : Eval Unit := modify fun st => { st with scopes := st.scopes.tail }

def setVar (name : String) (v : Value) : Eval Unit :=
  modify fun st =>
    match st.scopes with
    | s :: rest => { st with scopes := s.set name v :: rest }
    | [] => { st with scopes := [Scope.empty.set name v] }

def within {α : Type} (s : Scope) (run : Eval α) : Eval α := do
  push s
  let result ← run
  pop
  return result

def loop? : Eval (Option LoopScope) := return (← get).scopes.findSome? (·.loop)

def setLoop (loop : LoopScope) : Eval Unit :=
  modify fun st => { st with scopes := go st.scopes }
where
  go : List Scope → List Scope
    | [] => []
    | s :: rest => if s.loop.isSome then { s with loop := some loop } :: rest else s :: go rest

/-- The text of a value, if it may be printed. -/
def print (v : Value) : Eval String := do
  if v.isMissing then throw .undefinedValue
  (← get).escape.write v

def captured (s : String) : Eval Value := return .str s ((← get).escape ≠ .none)

end Eval

/-- A field at the end of a path of namespaces gets another value. -/
def setField (v : Value) : List String → Value → Option Value
  | [], new => some new
  | name :: path, new =>
    match v with
    | .nameSpace es => do
      let inner := (Value.lookup? es (.text name)).getD (.undefined false)
      let inner ← setField inner path new
      return .nameSpace (Value.insertEntry (.text name) inner es)
    | _ => none

def setScopeField (name : String) (path : List String) (new : Value) : List Scope → Option (List Scope)
  | [] => none
  | s :: rest =>
    match s.vars.lookup name with
    | some v => (setField v path new).map fun v => s.set name v :: rest
    | none => (setScopeField name path new rest).map (s :: ·)

mutual
def assign : Target → Value → Eval Unit
  | .var name, v => Eval.setVar name v
  | .field name path, v => do
    let st ← get
    match setScopeField name path v st.scopes with
    | some scopes => set { st with scopes }
    | none => throw .invalidOperation
  | .list targets, v =>
    match v with
    | .list _ items => assignAll targets items
    | .map es | .named es | .nameSpace es => assignAll targets (es.map (·.1))
    | _ => throw .cannotUnpack

def assignAll : List Target → List Value → Eval Unit
  | [], [] => return
  | t :: ts, v :: vs => do
    assign t v
    assignAll ts vs
  | _, _ => throw .cannotUnpack
end

/-- The arguments of a call: values in order, then those with names, if there are any. -/
def passArgs (passing : List Passing) (values : List Value) (extra : List (Value × Value)) :
    Except Fault (List Value) := do
  let (args, named, hasNamed) ← (passing.zip values).foldlM (fun (args, named, hasNamed) (p, v) =>
    match p with
    | .one => .ok (args ++ [v], named, hasNamed)
    | .all => do return (args ++ (← v.itemsOf), named, hasNamed)
    | .named name => .ok (args, Value.insertEntry (.text name) v named, true)
    | .allNamed =>
      match Value.entriesOf? v with
      | some es => .ok (args, es.foldl (fun d e => Value.insertEntry e.1 e.2 d) named, true)
      | none => .error .invalidOperation)
    (([], [], false) : List Value × List (Value × Value) × Bool)
  let named := extra.foldl (fun d e => Value.insertEntry e.1 e.2 d) named
  return if hasNamed || !extra.isEmpty then args ++ [.named named] else args

def range (lower : Nat) (upper step : Option Nat) : Except Fault Value :=
  let (first, count) :=
    match upper with
    | some u => (lower, u - lower)
    | none => (0, lower)
  let step := step.getD 1
  if step = 0 then .error .invalidOperation
  else
    let n := (count + step - 1) / step
    if 100000 < n then .error .invalidOperation
    else .ok (.list true ((List.range n).map fun (i : Nat) => .int (first + i * step : Nat)))

def callFunction : String → Args Value
  | "range" => do
    let lower ← Args.required Args.nat32
    let upper ← Args.optional Args.nat32
    let step ← Args.optional Args.nat32
    Args.done
    range lower upper step
  | "dict" => do
    let named ← Args.named
    let v ← Args.any?
    let es ←
      match v with
      | none => pure []
      | some v =>
        match Value.entriesOf? v with
        | some es => pure es
        | none => throw .invalidOperation
    return .map (named.foldl (fun d e => Value.insertEntry e.1 e.2 d) es)
  | "debug" => do
    let vs ← Args.rest
    match vs with
    | [v] => return .text (Filter.pretty 100 0 v)
    | vs => return .text (Filter.pretty 100 0 (.list false vs))
  | "namespace" => do
    match ← Args.any? with
    | none => return .nameSpace []
    | some v =>
      match Value.entriesOf? v with
      | some es => return .nameSpace es
      | none => throw .invalidOperation
  | _ => throw .unknownFunction

end TaskTags.Template
