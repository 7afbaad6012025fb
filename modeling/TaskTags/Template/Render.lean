import TaskTags.Template.Eval
import TaskTags.Template.Grammar
import TaskTags.Store.Basic

/-!
The text of a template. Statements are rendered by recursion on them; a macro, a loop that starts
again and a block are called, and calls are nested at most `maxCalls` deep.
-/

namespace TaskTags.Template

def applyFilters (call : Caller) : List FilterCall → Value → Eval Value
  | [], v => return v
  | f :: rest, v => do
    let args ← passArgs f.passing (← Expr.evalAll call f.args) []
    applyFilters call rest (← Filter.apply (args.length + 2) (← get).escape f.name (v :: args))

def escapeOf : Value → Except Fault Escape
  | .str "html" _ => .ok .html
  | .str "json" _ => .ok .json
  | .str "none" _ => .ok .none
  | .str _ _ => .error .invalidOperation
  | v => .ok (if v.same (.bool true) then .html else .none)

/-- No other template is known, so that every name of one fails. -/
def includeNothing (v : Value) (mayMiss : Bool) : Except Fault Unit :=
  let names : List Value :=
    match v with
    | .list _ items => items
    | .map es | .named es | .nameSpace es => es.map (·.1)
    | v => [v]
  if names.any fun v => v.asStr?.isNone then .error .invalidOperation
  else if names.isEmpty || mayMiss then .ok ()
  else .error .templateNotFound

def filterItems (call : Caller) (target : Target) (filter : Option Expr) (items : List Value) :
    Eval (List Value) :=
  match filter with
  | none => return items
  | some test =>
    Eval.within Scope.empty do
      items.filterM fun item => do
        assign target item
        (← test.eval call).truth

def renderLoop (target : Target) (again : Option Again) (body other : Eval String)
    (items : List Value) : Eval String := do
  if items.isEmpty then other
  else
    let outer := ((← get).scopes.head?).bind (·.loop)
    let depth :=
      match outer with
      | some ⟨.loop _ _ depth _ _, _, some _⟩ => depth + 1
      | _ => 0
    let item? (i : Nat) : Value := items[i]?.getD (.undefined false)
    Eval.within Scope.empty do
      let mut output := ""
      for (item, i) in items.zipIdx do
        let before : Value := if i = 0 then .undefined false else item? (i - 1)
        let seen := ((← get).scopes.head?.bind (·.loop)).bind (·.seen)
        let value : Value := .loop i items.length depth before (item? (i + 1))
        modify fun st =>
          match st.scopes with
          | s :: rest => { st with scopes := { s with loop := some ⟨value, seen, again⟩ } :: rest }
          | [] => st
        assign target item
        output := output ++ (← body)
      return output

def bindParams (params : List String) (args : List Value) : Except Fault (List (String × Value)) := do
  let (args, named) : List Value × List (Value × Value) :=
    match args.getLast? with
    | some (.named es) => (args.dropLast, es)
    | _ => (args, [])
  if params.length < args.length then throw .tooManyArguments
  let isKnown (k : Value) : Bool := k.asStr?.any fun s => s == "caller" || params.contains s
  let values ← params.zipIdx.mapM fun (name, i) =>
    match args[i]?, Value.lookup? named (.text name) with
    | some _, some _ => .error .tooManyArguments
    | some v, none | none, some v => .ok (name, v)
    | none, none => .ok (name, .undefined false)
  if named.any fun (k, _) => !isKnown k then throw .tooManyArguments
  match Value.lookup? named (.text "caller") with
  | some v => return if params.contains "caller" then values else values ++ [("caller", v)]
  | none => return values

/-- Gives parameters without a value their default values, the last parameter first. -/
def bindDefaults (call : Caller) : List (String × Expr) → Eval Unit
  | [] => return
  | (name, e) :: rest => do
    let v := (← Eval.find? name).getD (.undefined false)
    if v.isUndefined then Eval.setVar name (← e.eval call)
    bindDefaults call rest

/-- Runs in a scope on top of the outermost `count` ones. -/
def inOuterScopes {α : Type} (count : Nat) (scope : Scope) (run : Eval α) : Eval α := do
  let scopes := (← get).scopes
  let inner := scopes.take (scopes.length - count)
  modify fun st => { st with scopes := scope :: scopes.drop (scopes.length - count) }
  let result ← run
  modify fun st => { st with scopes := inner ++ st.scopes.tail }
  return result

mutual
def Stmt.render (call : Caller) : Stmt → Eval String
  | .text s => return s
  | .emit e => do Eval.print (← e.eval call)
  | .ifElse test body other => do
    if ← (← test.eval call).truth then Stmt.renderAll call body else Stmt.renderAll call other
  | .forLoop target source filter isRecursive body other => do
    let items ← (← source.eval call).itemsOf
    let items ← filterItems call target filter items
    let again := if isRecursive then some ⟨target, body, other⟩ else none
    renderLoop target again (Stmt.renderAll call body) (Stmt.renderAll call other) items
  | .withBlock assignments body =>
    Eval.within Scope.empty do
      for (target, e) in assignments do
        assign target (← e.eval call)
      Stmt.renderAll call body
  | .set target e => do
    assign target (← e.eval call)
    return ""
  | .setBlock target filters body => do
    let v ← Eval.captured (← Stmt.renderAll call body)
    assign target (← applyFilters call filters v)
    return ""
  | .autoEscape e body => do
    let escape ← escapeOf (← e.eval call)
    let before := (← get).escape
    modify fun st => { st with escape }
    let output ← Stmt.renderAll call body
    modify fun st => { st with escape := before }
    return output
  | .filterBlock filters body => do
    let v ← Eval.captured (← Stmt.renderAll call body)
    Eval.print (← applyFilters call filters v)
  | .block _ body => Eval.within Scope.empty (Stmt.renderAll call body)
  | .macroDef name params defaults body => do
    Eval.setVar name (.callable name params defaults body (← get).scopes.length)
    return ""
  | .callBody e params defaults body => do
    let caller : Value := .callable "caller" params defaults body (← get).scopes.length
    let extra : List (Value × Value) := [(.text "caller", caller)]
    let v ←
      match e with
      | .callName name passing args =>
        invokeName call name (← passArgs passing (← Expr.evalAll call args) extra)
      | .callMethod base name passing args =>
        let v ← base.eval call
        invokeMethod call v name (← passArgs passing (← Expr.evalAll call args) extra)
      | .callValue callee passing args =>
        let v ← callee.eval call
        invoke call v (← passArgs passing (← Expr.evalAll call args) extra)
      | e => e.eval call
    Eval.print v
  | .run e => do
    let _ ← e.eval call
    return ""
  | .include e mayMiss => do
    includeNothing (← e.eval call) mayMiss
    return ""
  | .extend e => do
    match (← e.eval call).asStr? with
    | some _ => throw .templateNotFound
    | none => throw .invalidOperation

def Stmt.renderAll (call : Caller) : List Stmt → Eval String
  | [] => return ""
  | s :: rest => do
    let first ← s.render call
    return first ++ (← Stmt.renderAll call rest)
end

/-- Calls nested at most so deep. -/
def callNested : Nat → Caller
  | 0, _, _ => throw .invalidOperation
  | depth + 1, callee, args =>
    let call := callNested depth
    match callee with
    | .definition params defaults body scopes => do
      let values ← bindParams params args
      let optional := (params.reverse.zip defaults.reverse)
      inOuterScopes scopes ⟨values, none⟩ do
        bindDefaults call optional
        Eval.captured (← Stmt.renderAll call body)
    | .loop again => do
      match args with
      | [v] =>
        let items ← v.itemsOf
        Eval.captured (← renderLoop again.target (some again) (Stmt.renderAll call again.body)
          (Stmt.renderAll call again.other) items)
      | _ => throw .invalidOperation
    | .block body => do
      Eval.captured (← Eval.within Scope.empty (Stmt.renderAll call body))

def maxCalls : Nat := 100

mutual
def Stmt.blocks : Stmt → List (String × List Stmt)
  | .block name body => (name, body) :: Stmt.blocksOf body
  | .ifElse _ body other => Stmt.blocksOf body ++ Stmt.blocksOf other
  | .forLoop _ _ _ _ body other => Stmt.blocksOf body ++ Stmt.blocksOf other
  | .withBlock _ body | .setBlock _ _ body | .autoEscape _ body | .filterBlock _ body =>
    Stmt.blocksOf body
  | _ => []

def Stmt.blocksOf : List Stmt → List (String × List Stmt)
  | [] => []
  | s :: rest => s.blocks ++ Stmt.blocksOf rest
end

def stateOf (vars : Bindings) (blocks : List (String × List Stmt)) : State :=
  ⟨[Scope.empty, ⟨vars.map fun (name, v) => (name, Value.ofJson v), none⟩], blocks, .none⟩

def evaluate (source : String) (vars : Bindings) : Except Fault Value := do
  let e ← Expr.parse source
  (e.eval (callNested maxCalls)).run' (stateOf vars [])

def render (source : String) (vars : Bindings) : Except Fault String := do
  let body ← parse source
  (Stmt.renderAll (callNested maxCalls) body).run' (stateOf vars (Stmt.blocksOf body))

end TaskTags.Template
