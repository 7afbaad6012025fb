import TaskTags.Yaml.Aliases
import TaskTags.Yaml.Scalar
import TaskTags.Text.Quoted
import TaskTags.Json.Printer

/-!
YAML values: documents with their scalars resolved and their aliases followed. A value may carry a
tag of its own, through which look-ups see.
-/

namespace TaskTags.Yaml

inductive Value where
  | null
  | bool (value : Bool)
  | num (value : Json.Number)
  | str (value : String)
  | list (items : List Value)
  | map (entries : List (Value × Value))
  | tagged (tag : String) (value : Value)
deriving Inhabited

namespace Value

def ofScalar : Scalar → Value
  | .null => .null
  | .bool b => .bool b
  | .num n => .num n
  | .str s => .str s

mutual
/-- Equality of values, under which mappings have no order and all that is not a number is equal. -/
def same : Value → Value → Bool
  | .null, .null => true
  | .bool a, .bool b => a == b
  | .num (.float a), .num (.float b) => a.same b || (a.isNaN && b.isNaN)
  | .num a, .num b => a.same b
  | .str a, .str b => a == b
  | .list xs, .list ys => sameItems xs ys
  | .map xs, .map ys => xs.length == ys.length && allIn xs ys
  | .tagged t x, .tagged u y => t == u && x.same y
  | _, _ => false

def sameItems : List Value → List Value → Bool
  | [], [] => true
  | x :: xs, y :: ys => x.same y && sameItems xs ys
  | _, _ => false

def allIn : List (Value × Value) → List (Value × Value) → Bool
  | [], _ => true
  | (k, v) :: xs, ys => ys.any (fun (l, w) => k.same l && v.same w) && allIn xs ys
end

def untagged : Value → Value
  | .tagged _ v => v.untagged
  | v => v

def asStr? (v : Value) : Option String :=
  match v.untagged with
  | .str s => some s
  | _ => none

def asMap? (v : Value) : Option (List (Value × Value)) :=
  match v.untagged with
  | .map entries => some entries
  | _ => none

def field? (entries : List (Value × Value)) (key : String) : Option Value :=
  (entries.find? fun (k, _) =>
    match k with
    | .str s => s == key
    | _ => false).map (·.2)

def hasDuplicate : List (Value × Value) → Bool
  | [] => false
  | (k, _) :: rest => rest.any (fun (l, _) => k.same l) || hasDuplicate rest

/-- The local tag of a collection or scalar, without its mark. -/
def localTag? (tag : Option String) : Option String :=
  tag.bind fun t =>
    match t.toList with
    | ['!'] => some t
    | '!' :: rest => some (String.ofList rest)
    | _ => none

def withTag (tag : Option String) (v : Value) : Value :=
  match localTag? tag with
  | some t => .tagged t v
  | none => v

mutual
/-- The value of a node no deeper than `depth`. `fuel` bounds the steps, aliases included. -/
def ofNode? (anchors : List (Nat × Node)) : Nat → Nat → Node → Option Value
  | 0, _, _ => none
  | _ + 1, _, .scalar tag isPlain text =>
    match tag with
    | none => if isPlain then (Scalar.ofPlain? text).map ofScalar else some (.str text)
    | some t => (Scalar.ofTagged? t isPlain text).map fun s => withTag tag (ofScalar s)
  | fuel + 1, depth, .list tag items =>
    match depth with
    | 0 => none
    | depth + 1 => (ofItems? anchors fuel depth items).map fun vs => withTag tag (.list vs)
  | fuel + 1, depth, .map tag entries =>
    match depth with
    | 0 => none
    | depth + 1 => do
      let entries ← ofEntries? anchors fuel depth entries
      if hasDuplicate entries then none
      return withTag tag (.map entries)
  | fuel + 1, depth, .alias number => (anchors.lookup number).bind (ofNode? anchors fuel depth)

def ofItems? (anchors : List (Nat × Node)) : Nat → Nat → List Node → Option (List Value)
  | 0, _, _ => none
  | _ + 1, _, [] => some []
  | fuel + 1, depth, node :: rest => do
    let v ← ofNode? anchors fuel depth node
    return v :: (← ofItems? anchors fuel depth rest)

def ofEntries? (anchors : List (Nat × Node)) :
    Nat → Nat → List (Node × Node) → Option (List (Value × Value))
  | 0, _, _ => none
  | _ + 1, _, [] => some []
  | fuel + 1, depth, (k, v) :: rest => do
    let k ← ofNode? anchors fuel depth k
    let v ← ofNode? anchors fuel depth v
    return (k, v) :: (← ofEntries? anchors fuel depth rest)
end

def maxDepth : Nat := 128

/-- The value of a text of one document; an empty text is null. -/
def parse? (text : String) : Option Value := do
  let document ← Document.parse? text
  if !document.isBounded then none
  match document.root with
  | none => return .null
  | some root => ofNode? document.anchors ((maxDepth + 2) * (2 * text.length + 4)) maxDepth root

mutual
def ofJson : Json → Value
  | .null => .null
  | .bool b => .bool b
  | .num n => .num n
  | .str s => .str s
  | .arr items => .list (ofJsonItems items)
  | .obj fields => .map (ofJsonFields fields)

def ofJsonItems : List Json → List Value
  | [] => []
  | v :: rest => ofJson v :: ofJsonItems rest

def ofJsonFields : List (String × Json) → List (Value × Value)
  | [] => []
  | (k, v) :: rest => (.str k, ofJson v) :: ofJsonFields rest
end

/-- The text of a key of a JSON object: that of a string, a number or a truth value. -/
def keyText : Value → Except Json.KeyFault String
  | .str s => .ok s
  | .bool b => .ok (if b then "true" else "false")
  | .num (.int n) => .ok (Decimal.intText n)
  | .num (.float x) => if x.isFinite then .ok (Json.floatStyle.write x) else .error .notFinite
  | _ => .error .notText

mutual
/-- The JSON value; a tagged value becomes an object with the tag as its key. -/
def toJson : Value → Except Json.KeyFault Json
  | .null => .ok .null
  | .bool b => .ok (.bool b)
  | .num (.float x) => .ok (if x.isFinite then .num (.float x) else .null)
  | .num n => .ok (.num n)
  | .str s => .ok (.str s)
  | .list items => (toJsonItems items).map .arr
  | .map entries => (toJsonFields entries).map fun fields => .obj (Json.sortFields fields)
  | .tagged tag v => v.toJson.map fun v => .obj [("!" ++ tag, v)]

def toJsonItems : List Value → Except Json.KeyFault (List Json)
  | [] => .ok []
  | v :: rest => do
    let v ← v.toJson
    return v :: (← toJsonItems rest)

def toJsonFields : List (Value × Value) → Except Json.KeyFault (List (String × Json))
  | [] => .ok []
  | (k, v) :: rest => do
    let k ← keyText k
    let v ← v.toJson
    return (k, v) :: (← toJsonFields rest)
end

/-- Floating point numbers in messages: without exponent from 1e-5 up to 1e16. -/
def floatStyle : Decimal.Style where
  positionalFrom := -5
  positionalTo := 15
  exponentSign := []
  infinity := ".inf"
  negInfinity := "-.inf"
  nan := ".nan"

def numberText : Json.Number → String
  | .int n => Decimal.intText n
  | .float x => floatStyle.write x

def boolText (b : Bool) : String := if b then "true" else "false"

mutual
/-- The text of a value in messages, which shows its kind. -/
def describe : Value → String
  | .null => "Null"
  | .bool b => "Bool(" ++ boolText b ++ ")"
  | .num n => "Number(" ++ numberText n ++ ")"
  | .str s => "String(" ++ Text.quoted s ++ ")"
  | .list items => "Sequence [" ++ String.intercalate ", " (describeItems items) ++ "]"
  | .map entries =>
    "Mapping \x7b" ++ String.intercalate ", " (describeEntries entries) ++ "\x7d"
  | .tagged tag v => "TaggedValue \x7b tag: !" ++ tag ++ ", value: " ++ v.describe ++ " \x7d"

def describeItems : List Value → List String
  | [] => []
  | v :: rest => v.describe :: describeItems rest

def describeEntries : List (Value × Value) → List String
  | [] => []
  | (k, v) :: rest =>
    let key :=
      match k with
      | .bool b => boolText b
      | .num n => numberText n
      | .str s => Text.quoted s
      | k => k.describe
    (key ++ ": " ++ v.describe) :: describeEntries rest
end

end Value
end TaskTags.Yaml
