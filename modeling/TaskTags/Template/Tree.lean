import TaskTags.Decimal.Binary64

/-!
Templates as trees: expressions, and the statements that expressions and text stand in.
-/

namespace TaskTags.Template

inductive Literal where
  | none
  | bool (value : Bool)
  | int (value : Int)
  | float (value : Binary64)
  | str (value : String)
deriving DecidableEq, Inhabited

inductive UnaryOp where
  | not
  | neg
deriving DecidableEq, Inhabited

inductive BinaryOp where
  | and | or
  | eq | ne | lt | le | gt | ge
  | isIn
  | add | sub | mul | div | floorDiv | rem | pow
  | concat
deriving DecidableEq, Inhabited

inductive Passing where
  | one
  /-- The items of a list. -/
  | all
  | named (name : String)
  /-- The entries of a mapping. -/
  | allNamed
deriving DecidableEq, Inhabited

def Passing.isNamed : Passing → Bool
  | .named _ | .allNamed => true
  | .one | .all => false

inductive Expr where
  | lit (value : Literal)
  | var (name : String)
  | list (items : List Expr)
  /-- Keys and values in turn. -/
  | map (parts : List Expr)
  | unary (op : UnaryOp) (operand : Expr)
  | binary (op : BinaryOp) (left right : Expr)
  | ifThen (test body : Expr)
  | ifElse (test body other : Expr)
  | attr (base : Expr) (name : String)
  | item (base key : Expr)
  | slice (base start stop step : Expr)
  | callName (name : String) (passing : List Passing) (args : List Expr)
  | callMethod (base : Expr) (name : String) (passing : List Passing) (args : List Expr)
  | callValue (callee : Expr) (passing : List Passing) (args : List Expr)
  /-- A block of the template by its name. -/
  | callBlock (name : String)
  | filter (name : String) (operand : Expr) (passing : List Passing) (args : List Expr)
  | test (name : String) (operand : Expr) (passing : List Passing) (args : List Expr)
deriving Inhabited

inductive Target where
  | var (name : String)
  /-- A field of a namespace, which a path leads to. -/
  | field (name : String) (path : List String)
  | list (targets : List Target)
deriving Inhabited

/-- A filter without the value that it applies to. -/
structure FilterCall where
  name : String
  passing : List Passing
  args : List Expr
deriving Inhabited

inductive Stmt where
  | text (value : String)
  | emit (e : Expr)
  | ifElse (test : Expr) (body other : List Stmt)
  | forLoop (target : Target) (items : Expr) (filter : Option Expr) (isRecursive : Bool)
      (body other : List Stmt)
  | withBlock (assignments : List (Target × Expr)) (body : List Stmt)
  | set (target : Target) (e : Expr)
  | setBlock (target : Target) (filters : List FilterCall) (body : List Stmt)
  | autoEscape (e : Expr) (body : List Stmt)
  | filterBlock (filters : List FilterCall) (body : List Stmt)
  | block (name : String) (body : List Stmt)
  | macroDef (name : String) (params : List String) (defaults : List Expr) (body : List Stmt)
  /-- A call with a body that the callee can call in turn. -/
  | callBody (call : Expr) (params : List String) (defaults : List Expr) (body : List Stmt)
  | run (call : Expr)
  /-- Another template by name, or several names of which the first known one counts. -/
  | include (name : Expr) (mayMiss : Bool)
  | extend (name : Expr)
deriving Inhabited

end TaskTags.Template
