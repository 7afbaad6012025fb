import TaskTags.Json.Printer
import TaskTags.Template.Fault
import TaskTags.Template.Tree
import TaskTags.Text.Quoted

/-!
The values of template expressions: their order and equality, their text, and what they contain.
-/

namespace TaskTags.Template

inductive Value where
  /-- A value that is not there. A silent one may be printed. -/
  | undefined (isSilent : Bool)
  | none
  | bool (value : Bool)
  | int (value : Int)
  | float (value : Binary64)
  /-- Text; a safe one is never escaped. -/
  | str (value : String) (isSafe : Bool)
  /-- A list, or a lazy sequence of items. -/
  | list (isLazy : Bool) (items : List Value)
  /-- Keys with values, in ascending order of the keys. -/
  | map (entries : List (Value × Value))
  /-- The arguments of a call that have names. -/
  | named (entries : List (Value × Value))
  /-- A mapping whose entries can be assigned to. -/
  | nameSpace (entries : List (Value × Value))
  /-- The state of a loop: its position, its length, its depth and the items next to the present
  one. -/
  | loop (index length depth : Nat) (before after : Value)
  | function (name : String)
  /-- A macro, with the number of scopes around its definition. -/
  | callable (name : String) (params : List String) (defaults : List Expr) (body : List Stmt)
      (scopes : Nat)
deriving Inhabited

namespace Value

inductive Kind where
  | undefined | none | bool | number | string | seq | map | iterable | plain
deriving DecidableEq, Inhabited

def kind : Value → Kind
  | undefined _ => .undefined
  | none => .none
  | bool _ => .bool
  | int _ | float _ => .number
  | str .. => .string
  | list isLazy _ => if isLazy then .iterable else .seq
  | map _ | named _ | nameSpace _ | loop .. => .map
  | function _ | callable .. => .plain

def Kind.rank : Kind → Nat
  | .undefined => 0
  | .none => 1
  | .bool => 2
  | .number => 3
  | .string => 4
  | .seq => 6
  | .map => 7
  | .iterable => 8
  | .plain => 9

def isUndefined (v : Value) : Bool := v.kind == .undefined

/-- An undefined value that nothing may be done with but ask whether it is defined. -/
def isMissing : Value → Bool
  | undefined isSilent => !isSilent
  | _ => false

def text (s : String) : Value := .str s false

def ofLiteral : Literal → Value
  | .none => .none
  | .bool b => .bool b
  | .int n => .int n
  | .float x => .float x
  | .str s => .text s

/-- The integers that calculation covers. -/
def isWide (n : Int) : Bool := Decimal.fitsSigned 128 n

/-- The integer of 64 bits that a floating point number equals. The bound `2 ^ 63`, which is none,
stands for the greatest one. -/
def integerOf? (x : Binary64) : Option Int :=
  if x.isNaN || x.isInfinite || !x.isIntegral then Option.none
  else
    let n := x.truncate
    if Decimal.fitsSigned 64 n then some n
    else if n = Decimal.pow2 63 then some (n - 1)
    else Option.none

def asInt? : Value → Option Int
  | bool b => some (if b then 1 else 0)
  | int n => if isWide n then some n else Option.none
  | float x => integerOf? x
  | _ => Option.none

/-- The floating point number next to a value; an exact one unless `isLossy`. -/
def asFloat? (isLossy : Bool) : Value → Option Binary64
  | bool b => some (Binary64.ofInt (if b then 1 else 0))
  | int n =>
    let x := Binary64.ofInt n
    if isLossy || x.truncate == n then some x else Option.none
  | float x => some x
  | _ => Option.none

def asStr? : Value → Option String
  | str s _ => some s
  | _ => Option.none

inductive Pair where
  | ints (a b : Int)
  | floats (x y : Binary64)
  | strs (s t : String)

def pair? (isLossy : Bool) : Value → Value → Option Pair
  | str s _, str t _ => some (.strs s t)
  | float x, v => (v.asFloat? isLossy).map (.floats x)
  | v, float y => (v.asFloat? isLossy).map (.floats · y)
  | v, w => do return .ints (← v.asInt?) (← w.asInt?)

mutual
/-- Equality of values: numbers by what they stand for, lists by their items, mappings by their
entries. -/
def same : Value → Value → Bool
  | none, none => true
  | undefined _, undefined _ => true
  | list _ xs, list _ ys => sameItems xs ys
  | map xs, w => sameMap xs w
  | named xs, w => sameMap xs w
  | nameSpace xs, w => sameMap xs w
  | function f, function g => f == g
  | callable f .., callable g .. => f == g
  | v, w =>
    match pair? false v w with
    | some (.ints a b) => a == b
    | some (.floats x y) => x.same y
    | some (.strs s t) => s == t
    | Option.none => false

def sameItems : List Value → List Value → Bool
  | [], [] => true
  | x :: xs, y :: ys => same x y && sameItems xs ys
  | _, _ => false

def sameMap (xs : List (Value × Value)) : Value → Bool
  | map ys | named ys | nameSpace ys => xs.length == ys.length && allIn xs ys
  | _ => false

def allIn : List (Value × Value) → List (Value × Value) → Bool
  | [], _ => true
  | (k, v) :: xs, ys => ys.any (fun (l, w) => same k l && same v w) && allIn xs ys
end

def floatRank (x : Binary64) : Int :=
  if x.isNegative then -(x.magnitude : Int) - 1 else x.magnitude

def entriesOf? : Value → Option (List (Value × Value))
  | map es | named es | nameSpace es => some es
  | _ => Option.none

mutual
/-- The order of values: by their kinds, then by what they stand for. -/
def order : Value → Value → Ordering
  | list a xs, w =>
    match w with
    | list _ ys => if (list a []).kind == w.kind then orderItems xs ys else byKind (list a []) w
    | _ => byKind (list a []) w
  | map xs, w => orderMap xs w
  | named xs, w => orderMap xs w
  | nameSpace xs, w => orderMap xs w
  | v, w =>
    match v.kind == w.kind, pair? false v w with
    | true, some (.ints a b) => compare a b
    | true, some (.floats x y) => compare (floatRank x) (floatRank y)
    | true, some (.strs s t) => Text.order s t
    | _, _ => byKind v w

def byKind (v w : Value) : Ordering := compare v.kind.rank w.kind.rank

def orderItems : List Value → List Value → Ordering
  | [], [] => .eq
  | [], _ => .lt
  | _, [] => .gt
  | x :: xs, y :: ys => (order x y).then (orderItems xs ys)

def orderMap (xs : List (Value × Value)) (w : Value) : Ordering :=
  match entriesOf? w with
  | some ys => orderEntries xs ys
  | Option.none => byKind (map []) w

def orderEntries : List (Value × Value) → List (Value × Value) → Ordering
  | [], [] => .eq
  | [], _ => .lt
  | _, [] => .gt
  | (k, v) :: xs, (l, w) :: ys => (order k l).then ((order v w).then (orderEntries xs ys))
end

def insertEntry (key value : Value) : List (Value × Value) → List (Value × Value)
  | [] => [(key, value)]
  | (k, v) :: rest =>
    match order key k with
    | .lt => (key, value) :: (k, v) :: rest
    | .eq => (k, value) :: rest
    | .gt => (k, v) :: insertEntry key value rest

def mapOf (entries : List (Value × Value)) : List (Value × Value) :=
  entries.foldl (fun done e => insertEntry e.1 e.2 done) []

def lookup? (entries : List (Value × Value)) (key : Value) : Option Value :=
  (entries.find? fun (k, _) => order k key == .eq).map (·.2)

/-- Floating point numbers in text: never with an exponent. -/
def floatStyle : Decimal.Style where
  positionalFrom := -400
  positionalTo := 400
  exponentSign := []
  infinity := "inf"
  negInfinity := "-inf"
  nan := "NaN"

mutual
def describe : Value → String
  | undefined _ => "undefined"
  | none => "None"
  | bool b => if b then "True" else "False"
  | int n => Decimal.intText n
  | float x => floatStyle.write x
  | str s _ => Text.quoted s
  | list _ items => "[" ++ String.intercalate ", " (describeItems items) ++ "]"
  | map es | named es | nameSpace es =>
    "\x7b" ++ String.intercalate ", " (describeEntries es) ++ "\x7d"
  | loop index length .. => "<loop " ++ toString index ++ "/" ++ toString length ++ ">"
  | function name => "<function " ++ name ++ ">"
  | callable name .. => "<macro " ++ name ++ ">"

def describeItems : List Value → List String
  | [] => []
  | v :: rest => describe v :: describeItems rest

def describeEntries : List (Value × Value) → List String
  | [] => []
  | (k, v) :: rest => (describe k ++ ": " ++ describe v) :: describeEntries rest
end

def display : Value → String
  | undefined _ => ""
  | str s _ => s
  | v => v.describe

def isTrue : Value → Bool
  | undefined _ | none => false
  | bool b => b
  | int n => n ≠ 0
  | float x => x.isNaN || x.magnitude ≠ 0
  | str s _ => !s.isEmpty
  | list _ items => !items.isEmpty
  | map es | named es | nameSpace es => !es.isEmpty
  | loop .. | function _ | callable .. => true

def length? : Value → Option Nat
  | str s _ => some s.length
  | list _ items => some items.length
  | map es | named es | nameSpace es => some es.length
  | _ => Option.none

/-- The items of a value: characters of a text, items of a list, keys of a mapping. Nothing has
none. -/
def items? : Value → Option (List Value)
  | undefined _ | none => some []
  | str s _ => some (s.toList.map fun c => text (String.ofList [c]))
  | list _ items => some items
  | map es | named es | nameSpace es => some (es.map (·.1))
  | _ => Option.none

def asNat? (v : Value) : Option Nat :=
  v.asInt?.bind fun n => if Decimal.fitsUnsigned 64 n then some n.toNat else Option.none

/-- The position that an index refers to; a negative one counts from the end. -/
def position? (length : Nat) (key : Value) : Option Nat := do
  let n ← key.asInt?
  if !Json.isInt64 n then Option.none
  else if 0 ≤ n then return n.toNat
  else if n.natAbs ≤ length then return length - n.natAbs
  else Option.none

def loopField? (index length depth : Nat) (before after : Value) : String → Option Value
  | "index0" => some (int index)
  | "index" => some (int (index + 1))
  | "length" => some (int length)
  | "revindex" => some (int (length - index : Nat))
  | "revindex0" => some (int (length - index - 1 : Nat))
  | "first" => some (bool (index == 0))
  | "last" => some (bool (index + 1 == length))
  | "depth" => some (int (depth + 1))
  | "depth0" => some (int depth)
  | "previtem" => some before
  | "nextitem" => some after
  | _ => Option.none

def get? (v key : Value) : Option Value :=
  match v with
  | list _ items => (position? items.length key).bind fun n => items[n]?
  | str s _ =>
    let cs := s.toList
    (position? cs.length key).bind fun n => (cs[n]?).map fun c => text (String.ofList [c])
  | map es | named es | nameSpace es => lookup? es key
  | loop index length depth before after =>
    key.asStr?.bind (loopField? index length depth before after)
  | callable name params .. =>
    match key.asStr? with
    | some "name" => some (text name)
    | some "arguments" => some (list false (params.map text))
    | _ => Option.none
  | _ => Option.none

mutual
def ofJson : Json → Value
  | .null => .none
  | .bool b => .bool b
  | .num (.int n) => .int n
  | .num (.float x) => .float x
  | .str s => .text s
  | .arr items => .list false (ofJsonItems items)
  | .obj fields => .map (mapOf (ofJsonFields fields))

def ofJsonItems : List Json → List Value
  | [] => []
  | v :: rest => ofJson v :: ofJsonItems rest

def ofJsonFields : List (String × Json) → List (Value × Value)
  | [] => []
  | (k, v) :: rest => (text k, ofJson v) :: ofJsonFields rest
end

def keyText? : Value → Option String
  | str s _ => some s
  | bool b => some (if b then "true" else "false")
  | int n => some (Decimal.intText n)
  | float x => if x.isFinite then some (Json.floatStyle.write x) else Option.none
  | _ => Option.none

mutual
def toJson? : Value → Option Json
  | undefined _ | none => some .null
  | bool b => some (.bool b)
  | int n => some (.num (.int n))
  | float x => some (if x.isFinite then .num (.float x) else .null)
  | str s _ => some (.str s)
  | list _ items => (toJsonItems? items).map .arr
  | map es | named es | nameSpace es => (toJsonFields? es).map .obj
  | v => some (.str v.describe)

def toJsonItems? : List Value → Option (List Json)
  | [] => some []
  | v :: rest => do
    let v ← toJson? v
    return v :: (← toJsonItems? rest)

def toJsonFields? : List (Value × Value) → Option (List (String × Json))
  | [] => some []
  | (k, v) :: rest => do
    let k ← keyText? k
    let v ← toJson? v
    return (k, v) :: (← toJsonFields? rest)
end

end Value
end TaskTags.Template
