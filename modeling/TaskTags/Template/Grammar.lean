import TaskTags.Template.Token
import TaskTags.Template.Tree

/-!
Templates and expressions from tokens. Operators bind in this order, the weakest first: `or`, `and`,
`not`, comparisons, sums, `~`, products, powers, signs, then subscripts and calls, then filters and
tests.

Any depth of nesting is read: templates are taken to stay below the bound of an engine, which is at
150 expressions and statements in each other.
-/

namespace TaskTags.Template

/-- Reading of the tokens ahead. -/
abbrev Read := StateT (List Token) (Except Fault)

namespace Read

def fail {α : Type} : Read α := throw .syntaxError

def peek? : Read (Option Token) := do
  match ← get with
  | .bad fault :: _ => throw fault
  | t :: _ => return some t
  | [] => return none

def next : Read Token := do
  match ← peek? with
  | some t =>
    modify List.tail
    return t
  | none => fail

def looksAt (t : Token) : Read Bool := return (← peek?) == some t

def take (t : Token) : Read Bool := do
  if ← looksAt t then
    modify List.tail
    return true
  return false

def expect (t : Token) : Read Unit := do
  if !(← take t) then fail

def takeMark (m : String) : Read Bool := take (.mark m)
def takeWord (w : String) : Read Bool := take (.name w)
def expectMark (m : String) : Read Unit := expect (.mark m)
def expectWord (w : String) : Read Unit := expect (.name w)

def name : Read String := do
  match ← next with
  | .name s => return s
  | _ => fail

end Read

open Read

/-- The binary operators of a level, from the weakest one on. -/
def BinaryOp.ofToken? : Nat → Token → Option BinaryOp
  | 0, .name "or" => some .or
  | 1, .name "and" => some .and
  | 3, .name "in" => some .isIn
  | 3, .mark "==" => some .eq
  | 3, .mark "!=" => some .ne
  | 3, .mark "<" => some .lt
  | 3, .mark "<=" => some .le
  | 3, .mark ">" => some .gt
  | 3, .mark ">=" => some .ge
  | 4, .mark "+" => some .add
  | 4, .mark "-" => some .sub
  | 5, .mark "~" => some .concat
  | 6, .mark "*" => some .mul
  | 6, .mark "/" => some .div
  | 6, .mark "//" => some .floorDiv
  | 6, .mark "%" => some .rem
  | 7, .mark "**" => some .pow
  | _, _ => none

def signLevel : Nat := 8

/-- Whether a token can start the argument of a test that stands without brackets. -/
def Token.startsTestArg : Token → Bool
  | .name s => !(["and", "or", "else", "is"].contains s)
  | .str _ | .int _ | .float _ => true
  | .mark m => m == "+" || m == "-" || m == "[" || m == "\x7b"
  | _ => false

mutual
def readExpr : Nat → Read Expr
  | 0 => fail
  | fuel + 1 => do
    let e ← readBinary fuel 0
    readConditions fuel e

def readConditions : Nat → Expr → Read Expr
  | 0, _ => fail
  | fuel + 1, e => do
    if ← takeWord "if" then
      let test ← readBinary fuel 0
      if ← takeWord "else" then
        let other ← readExpr fuel
        readConditions fuel (.ifElse test e other)
      else
        readConditions fuel (.ifThen test e)
    else return e

def readBinary : Nat → Nat → Read Expr
  | 0, _ => fail
  | fuel + 1, level => do
    if level == 2 then
      if ← takeWord "not" then return .unary .not (← readBinary fuel 2)
      readBinary fuel 3
    else if level == signLevel then readSigned fuel
    else
      let left ← readBinary fuel (level + 1)
      readOperators fuel level left

def readOperators : Nat → Nat → Expr → Read Expr
  | 0, _, _ => fail
  | fuel + 1, level, left => do
    match ← peek? with
    | none => return left
    | some t =>
      if level == 3 && t == .name "not" then
        let _ ← next
        expectWord "in"
        let right ← readBinary fuel (level + 1)
        readOperators fuel level (.unary .not (.binary .isIn left right))
      else
        match BinaryOp.ofToken? level t with
        | none => return left
        | some op =>
          let _ ← next
          let right ← readBinary fuel (level + 1)
          readOperators fuel level (.binary op left right)

def readSigned : Nat → Read Expr
  | 0 => fail
  | fuel + 1 => do
    let e ← readSign fuel
    let e ← readSubscripts fuel e
    readFilters fuel e

def readSign : Nat → Read Expr
  | 0 => fail
  | fuel + 1 => do
    if ← takeMark "-" then return .unary .neg (← readSign fuel)
    readPrimary fuel

def readPrimary : Nat → Read Expr
  | 0 => fail
  | fuel + 1 => do
    match ← next with
    | .name "true" | .name "True" => return .lit (.bool true)
    | .name "false" | .name "False" => return .lit (.bool false)
    | .name "none" | .name "None" => return .lit .none
    | .name s => return .var s
    | .str s => return .lit (.str s)
    | .int n => return .lit (.int n)
    | .float x => return .lit (.float x)
    | .mark "(" => readTuple fuel
    | .mark "[" => return .list (← readItems fuel "]" true)
    | .mark "\x7b" => return .map (← readEntries fuel true)
    | _ => fail

/-- An expression in brackets, or a list of expressions with a comma. -/
def readTuple : Nat → Read Expr
  | 0 => fail
  | fuel + 1 => do
    if ← takeMark ")" then return .list []
    let e ← readExpr fuel
    if ← looksAt (.mark ",") then
      return .list (e :: (← readItems fuel ")" false))
    expectMark ")"
    return e

def readItems : Nat → String → Bool → Read (List Expr)
  | 0, _, _ => fail
  | fuel + 1, close, isFirst => do
    if ← takeMark close then return []
    if !isFirst then
      expectMark ","
      if ← takeMark close then return []
    let e ← readExpr fuel
    return e :: (← readItems fuel close false)

def readEntries : Nat → Bool → Read (List Expr)
  | 0, _ => fail
  | fuel + 1, isFirst => do
    if ← takeMark "\x7d" then return []
    if !isFirst then
      expectMark ","
      if ← takeMark "\x7d" then return []
    let k ← readExpr fuel
    expectMark ":"
    let v ← readExpr fuel
    return k :: v :: (← readEntries fuel false)

def readSubscripts : Nat → Expr → Read Expr
  | 0, _ => fail
  | fuel + 1, e => do
    match ← peek? with
    | some (.mark ".") =>
      let _ ← next
      match ← next with
      | .name s => readSubscripts fuel (.attr e s)
      | .int n => readSubscripts fuel (.item e (.lit (.int n)))
      | _ => fail
    | some (.mark "[") =>
      let _ ← next
      readSubscripts fuel (← readSubscript fuel e)
    | some (.mark "(") =>
      let (passing, args) ← readArgs fuel
      let call : Expr :=
        match e with
        | .var name => .callName name passing args
        | .attr (.var "self") name => .callBlock name
        | .attr base name => .callMethod base name passing args
        | e => .callValue e passing args
      readSubscripts fuel call
    | _ => return e

def readSubscript : Nat → Expr → Read Expr
  | 0, _ => fail
  | fuel + 1, e => do
    let start ← readBound fuel [":"]
    if ← takeMark ":" then
      let stop ← readBound fuel ["]", ":"]
      let step ← if ← takeMark ":" then readBound fuel ["]"] else pure (.lit .none)
      expectMark "]"
      return .slice e start stop step
    expectMark "]"
    return .item e start

def readBound : Nat → List String → Read Expr
  | 0, _ => fail
  | fuel + 1, ends => do
    match ← peek? with
    | some (.mark m) => if ends.contains m then return .lit .none else readExpr fuel
    | _ => readExpr fuel

def readArgs : Nat → Read (List Passing × List Expr)
  | 0 => fail
  | fuel + 1 => do
    expectMark "("
    readArgList fuel true false

/-- Arguments up to the closing bracket. Behind one with a name all have one or stand for several. -/
def readArgList : Nat → Bool → Bool → Read (List Passing × List Expr)
  | 0, _, _ => fail
  | fuel + 1, isFirst, hasNamed => do
    if ← takeMark ")" then return ([], [])
    if !isFirst then
      expectMark ","
      if ← takeMark ")" then return ([], [])
    let (p, e) ← readArg fuel
    if hasNamed && p == .one then fail
    let (ps, es) ← readArgList fuel false (hasNamed || p.isNamed)
    return (p :: ps, e :: es)

def readArg : Nat → Read (Passing × Expr)
  | 0 => fail
  | fuel + 1 => do
    if ← takeMark "**" then return (.allNamed, ← readExpr fuel)
    if ← takeMark "*" then return (.all, ← readExpr fuel)
    match ← readExpr fuel with
    | .var name =>
      if ← takeMark "=" then return (.named name, ← readBinary fuel 0)
      return (.one, .var name)
    | e => return (.one, e)

def readFilters : Nat → Expr → Read Expr
  | 0, _ => fail
  | fuel + 1, e => do
    if ← takeMark "|" then
      let f ← readFilterCall fuel
      readFilters fuel (.filter f.name e f.passing f.args)
    else if ← takeWord "is" then
      let isNegated ← takeWord "not"
      let name ← name
      let (passing, args) ← readTestArgs fuel
      let test : Expr := .test name e passing args
      readFilters fuel (if isNegated then .unary .not test else test)
    else return e

def readTestArgs : Nat → Read (List Passing × List Expr)
  | 0 => fail
  | fuel + 1 => do
    match ← peek? with
    | some t =>
      if t == .mark "(" then readArgs fuel
      else if t.startsTestArg then
        let arg ← readSign fuel
        return ([.one], [← readSubscripts fuel arg])
      else return ([], [])
    | none => return ([], [])

def readFilterCall : Nat → Read FilterCall
  | 0 => fail
  | fuel + 1 => do
    let name ← name
    let (passing, args) ← if ← looksAt (.mark "(") then readArgs fuel else pure ([], [])
    return ⟨name, passing, args⟩
end

/-- Names that no value can be assigned to. -/
def reservedNames : List String :=
  ["true", "True", "false", "False", "none", "None", "loop", "self"]

def readTargetName : Read String := do
  let s ← name
  if reservedNames.contains s then fail
  return s

def readPath : Nat → Read (List String)
  | 0 => fail
  | fuel + 1 => do
    if ← takeMark "." then
      let s ← name
      return s :: (← readPath fuel)
    return []

mutual
/-- Names, or lists of them in brackets, separated by commas. -/
def readTarget : Nat → Read Target
  | 0 => fail
  | fuel + 1 => do
    let (targets, isList) ← readTargets fuel true
    match targets, isList with
    | [t], false => return t
    | ts, _ => return .list ts

def readTargets : Nat → Bool → Read (List Target × Bool)
  | 0, _ => fail
  | fuel + 1, isFirst => do
    if !isFirst then expectMark ","
    let ends ← peek?
    if ends == some (.mark ")") || ends == some .exprEnd || ends == some .blockEnd ||
        ends == some (.name "in") then
      return ([], !isFirst)
    let t ← readOneTarget fuel
    if ← looksAt (.mark ",") then
      let (ts, _) ← readTargets fuel false
      return (t :: ts, true)
    return ([t], !isFirst)

def readOneTarget : Nat → Read Target
  | 0 => fail
  | fuel + 1 => do
    if ← takeMark "(" then
      let t ← readTarget fuel
      expectMark ")"
      return t
    return .var (← readTargetName)
end

def readFilterChain : Nat → Bool → Read (List FilterCall)
  | 0, _ => fail
  | fuel + 1, isFirst => do
    if ← looksAt .blockEnd then
      if isFirst then fail
      return []
    if !isFirst then expectMark "|"
    let f ← readFilterCall fuel
    return f :: (← readFilterChain fuel false)

/-- The parameters of a macro with their default values, from behind the opening bracket. Behind a
parameter with a default value all have one. -/
def readParams : Nat → Bool → Bool → Read (List String × List Expr)
  | 0, _, _ => fail
  | fuel + 1, isFirst, hasDefault => do
    if ← takeMark ")" then return ([], [])
    if !isFirst then
      expectMark ","
      if ← takeMark ")" then return ([], [])
    let s ← readTargetName
    if ← takeMark "=" then
      let d ← readExpr fuel
      let (ss, ds) ← readParams fuel false true
      return (s :: ss, d :: ds)
    if hasDefault then fail
    let (ss, ds) ← readParams fuel false false
    return (s :: ss, ds)

def readAssignments : Nat → Bool → Read (List (Target × Expr))
  | 0, _ => fail
  | fuel + 1, isFirst => do
    if ← take .blockEnd then return []
    if !isFirst then expectMark ","
    let t ← readOneTarget fuel
    expectMark "="
    let e ← readExpr fuel
    return (t, e) :: (← readAssignments fuel false)

/-- Words that have no effect: `with context` and `without context`. -/
def skipContextWords : Read Unit := do
  let isFound ← if ← takeWord "without" then pure true else takeWord "with"
  if isFound then expectWord "context"

def skipImports : Nat → Bool → Read Unit
  | 0, _ => fail
  | fuel + 1, isFirst => do
    if (← looksAt .blockEnd) || (← looksAt (.name "without")) || (← looksAt (.name "with")) then
      skipContextWords
    else
      if !isFirst then expectMark ","
      if (← looksAt .blockEnd) || (← looksAt (.name "without")) || (← looksAt (.name "with")) then
        skipContextWords
      else
        let _ ← readTargetName
        if ← takeWord "as" then
          let _ ← readTargetName
        skipImports fuel false

mutual
/-- Statements up to a block that starts with one of some words, or up to the end. -/
def readBody : Nat → List String → Read (List Stmt)
  | 0, _ => fail
  | fuel + 1, ends => do
    match ← peek? with
    | none => return []
    | some _ =>
    match ← next with
    | .text s => return .text s :: (← readBody fuel ends)
    | .exprStart =>
      let e ← readExpr fuel
      expect .exprEnd
      return .emit e :: (← readBody fuel ends)
    | .blockStart =>
      match ← peek? with
      | none => fail
      | some t =>
        let isEnd :=
          match t with
          | .name s => ends.contains s
          | _ => false
        if isEnd then return []
        let s ← readStmt fuel
        expect .blockEnd
        return s :: (← readBody fuel ends)
    | _ => fail

/-- A body behind the end of its opening block, and the word of the block that ends it. -/
def readClosedBody : Nat → List String → Read (List Stmt × String)
  | 0, _ => fail
  | fuel + 1, ends => do
    expect .blockEnd
    let body ← readBody fuel ends
    return (body, ← name)

def readStmt : Nat → Read Stmt
  | 0 => fail
  | fuel + 1 => do
    match ← name with
    | "if" => readIf fuel
    | "for" => readFor fuel
    | "with" =>
      let assignments ← readAssignments fuel true
      let body ← readBody fuel ["endwith"]
      let _ ← next
      return .withBlock assignments body
    | "set" => readSet fuel
    | "autoescape" =>
      let e ← readExpr fuel
      let (body, _) ← readClosedBody fuel ["endautoescape"]
      return .autoEscape e body
    | "filter" =>
      let filters ← readFilterChain fuel true
      let (body, _) ← readClosedBody fuel ["endfilter"]
      return .filterBlock filters body
    | "block" =>
      let s ← name
      let (body, _) ← readClosedBody fuel ["endblock"]
      match ← peek? with
      | some (.name t) =>
        if s ≠ t then fail
        let _ ← next
      | _ => pure ()
      return .block s body
    | "macro" =>
      let s ← name
      expectMark "("
      let (params, defaults) ← readParams fuel true false
      let (body, _) ← readClosedBody fuel ["endmacro"]
      return .macroDef s params defaults body
    | "call" =>
      let (params, defaults) ← if ← takeMark "(" then readParams fuel true false else pure ([], [])
      let call ← readCall fuel
      let (body, _) ← readClosedBody fuel ["endcall"]
      return .callBody call params defaults body
    | "do" => return .run (← readCall fuel)
    | "extends" => return .extend (← readExpr fuel)
    | "include" =>
      let e ← readExpr fuel
      skipContextWords
      let mayMiss ← takeWord "ignore"
      if mayMiss then
        expectWord "missing"
        skipContextWords
      return .include e mayMiss
    | "import" =>
      let e ← readExpr fuel
      expectWord "as"
      let _ ← readTargetName
      skipContextWords
      return .include e false
    | "from" =>
      let e ← readExpr fuel
      expectWord "import"
      skipImports fuel true
      return .include e false
    | _ => fail

def readCall : Nat → Read Expr
  | 0 => fail
  | fuel + 1 => do
    let e ← readExpr fuel
    match e with
    | .callName .. | .callMethod .. | .callValue .. | .callBlock _ => return e
    | _ => fail

def readIf : Nat → Read Stmt
  | 0 => fail
  | fuel + 1 => do
    let test ← readBinary fuel 0
    let (body, word) ← readClosedBody fuel ["endif", "else", "elif"]
    match word with
    | "else" =>
      let (other, _) ← readClosedBody fuel ["endif"]
      return .ifElse test body other
    | "elif" => return .ifElse test body [← readIf fuel]
    | _ => return .ifElse test body []

def readFor : Nat → Read Stmt
  | 0 => fail
  | fuel + 1 => do
    let target ← readTarget fuel
    expectWord "in"
    let items ← readBinary fuel 0
    let filter ← if ← takeWord "if" then some <$> readExpr fuel else pure none
    let isRecursive ← takeWord "recursive"
    let (body, word) ← readClosedBody fuel ["endfor", "else"]
    let other ←
      if word == "else" then (·.1) <$> readClosedBody fuel ["endfor"] else pure []
    return .forLoop target items filter isRecursive body other

def readSet : Nat → Read Stmt
  | 0 => fail
  | fuel + 1 => do
    let isList ← takeMark "("
    let target : Target ←
      if isList then
        let t ← readTarget fuel
        expectMark ")"
        pure t
      else
        let s ← readTargetName
        let path ← readPath fuel
        pure (if path.isEmpty then .var s else .field s path)
    let isBlock := !isList && ((← looksAt .blockEnd) || (← looksAt (.mark "|")))
    if isBlock then
      let filters ← if ← takeMark "|" then readFilterChain fuel true else pure []
      let (body, _) ← readClosedBody fuel ["endset"]
      return .setBlock target filters body
    expectMark "="
    return .set target (← readExpr fuel)
end

def readAll {α : Type} (tokens : List Token) (read : Nat → Read α) : Except Fault α := do
  let (result, rest) ← (read (32 * tokens.length + 64)).run tokens
  match rest with
  | [] => return result
  | .bad fault :: _ => throw fault
  | _ => throw .syntaxError

/-- The statements of a template. -/
def parse (source : String) : Except Fault (List Stmt) :=
  readAll (Token.ofTemplate source) fun fuel => readBody fuel []

/-- The expression of a text that holds nothing else. -/
def Expr.parse (source : String) : Except Fault Expr :=
  readAll (Token.ofExpression source) readExpr

end TaskTags.Template
