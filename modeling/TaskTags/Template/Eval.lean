import TaskTags.Template.Scope

/-!
The values of expressions.
-/

namespace TaskTags.Template

def invoke (call : Caller) (callee : Value) (args : List Value) : Eval Value :=
  match callee with
  | .function name => Args.run (callFunction name) args
  | .callable _ params defaults body scopes => call (.definition params defaults body scopes) args
  | _ => throw .invalidOperation

def invokeName (call : Caller) (name : String) (args : List Value) : Eval Value := do
  if name == "super" then throw .invalidOperation
  if name == "loop" then
    match (← Eval.loop?).bind (·.again), args with
    | some again, [_] => call (.loop again) args
    | _, _ => throw .invalidOperation
  else
    match ← Eval.find? name with
    | some v => if v.isUndefined then throw .unknownFunction else invoke call v args
    | none => throw .unknownFunction

/-- Asks the innermost loop whether it was last asked with other values. -/
def loopChanged (args : List Value) : Eval Value := do
  match ← Eval.loop? with
  | some loop =>
    let isChanged := !loop.seen.any fun seen => Value.sameItems seen args
    Eval.setLoop { loop with seen := some args }
    return .bool isChanged
  | none => throw .unknownMethod

def invokeMethod (call : Caller) (v : Value) (name : String) (args : List Value) : Eval Value := do
  match v, name with
  | .loop index .., "cycle" =>
    match args[index % args.length]? with
    | some v => return v
    | none => throw .invalidOperation
  | .loop .., "changed" => loopChanged args
  | .map es, _ | .named es, _ | .nameSpace es, _ =>
    match Value.lookup? es (.text name) with
    | some callee => invoke call callee args
    | none => throw .unknownMethod
  | _, _ => throw .unknownMethod

def BinaryOp.apply (op : BinaryOp) (v w : Value) : Except Fault Value :=
  match op with
  | .eq => .ok (.bool (v.same w))
  | .ne => .ok (.bool (!v.same w))
  | .lt => .ok (.bool (v.order w == .lt))
  | .le => .ok (.bool (v.order w != .gt))
  | .gt => .ok (.bool (v.order w == .gt))
  | .ge => .ok (.bool (v.order w != .lt))
  | .isIn => if w.isMissing then .error .undefinedValue else .bool <$> w.contains v
  | .add => v.add w
  | .sub => v.sub w
  | .mul => v.mul w
  | .div => v.div w
  | .floorDiv => v.floorDiv w
  | .rem => v.rem w
  | .pow => v.pow w
  | .concat => .ok (.text (v.display ++ w.display))
  | .and | .or => .ok w

/-- Values with the ones behind them as pairs. -/
def pairUp : List Value → List (Value × Value)
  | k :: v :: rest => (k, v) :: pairUp rest
  | _ => []

mutual
def Expr.eval (call : Caller) : Expr → Eval Value
  | .lit l => return .ofLiteral l
  | .var name => return (← Eval.find? name).getD (.undefined false)
  | .list items => return .list false (← Expr.evalAll call items)
  | .map parts => return .map (Value.mapOf (pairUp (← Expr.evalAll call parts)))
  | .unary .not e => do return .bool !(← (← e.eval call).truth)
  | .unary .neg e => do (← e.eval call).neg
  | .binary .and l r => do
    let v ← l.eval call
    if ← v.truth then r.eval call else return v
  | .binary .or l r => do
    let v ← l.eval call
    if ← v.truth then return v else r.eval call
  | .binary op l r => do
    let v ← l.eval call
    let w ← r.eval call
    op.apply v w
  | .ifThen cond body => do
    if ← (← cond.eval call).truth then body.eval call else return .undefined true
  | .ifElse cond body other => do
    if ← (← cond.eval call).truth then body.eval call else other.eval call
  | .attr base name => do (← base.eval call).part (.text name)
  | .item base key => do
    let v ← base.eval call
    v.part (← key.eval call)
  | .slice base start stop step => do
    let v ← base.eval call
    let start ← start.eval call
    let stop ← stop.eval call
    let step ← step.eval call
    v.slice start stop step
  | .callName name passing args => do
    invokeName call name (← passArgs passing (← Expr.evalAll call args) [])
  | .callMethod base name passing args => do
    let v ← base.eval call
    invokeMethod call v name (← passArgs passing (← Expr.evalAll call args) [])
  | .callValue callee passing args => do
    let v ← callee.eval call
    invoke call v (← passArgs passing (← Expr.evalAll call args) [])
  | .callBlock name => do
    match (← get).blocks.lookup name with
    | some body => call (.block body) []
    | none => throw .unknownBlock
  | .filter name operand passing args => do
    let v ← operand.eval call
    let args ← passArgs passing (← Expr.evalAll call args) []
    Filter.apply (args.length + 2) (← get).escape name (v :: args)
  | .test name operand passing args => do
    let v ← operand.eval call
    let args ← passArgs passing (← Expr.evalAll call args) []
    return .bool (← Test.apply Filter.names name (v :: args))

def Expr.evalAll (call : Caller) : List Expr → Eval (List Value)
  | [] => return []
  | e :: rest => do
    let v ← e.eval call
    return v :: (← Expr.evalAll call rest)
end

end TaskTags.Template
