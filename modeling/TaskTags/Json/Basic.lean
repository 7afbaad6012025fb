import TaskTags.Decimal.Style
import TaskTags.Text.Order

/-!
JSON values. Objects are lists of fields in the order of their text; `sorted` is the normal form of
a value, in which every object lists each key once, in the order of the keys. Values are compared by
`same`, under which an integer never equals a floating point number.
-/

namespace TaskTags

inductive Json.Number where
  | int (value : Int)
  | float (value : Binary64)
deriving DecidableEq, Inhabited

inductive Json where
  | null
  | bool (value : Bool)
  | num (value : Json.Number)
  | str (value : String)
  | arr (items : List Json)
  | obj (fields : List (String × Json))
deriving Inhabited

namespace Json

def ofInt (n : Int) : Json := .num (.int n)
def ofNat (n : Nat) : Json := .num (.int n)
def ofStrings (xs : List String) : Json := .arr (xs.map .str)

/-- The field of a sorted list of fields is put in its place, in the place of one of the same key. -/
def insertField (key : String) (value : Json) : List (String × Json) → List (String × Json)
  | [] => [(key, value)]
  | (k, v) :: rest =>
    if key = k then (key, value) :: rest
    else if Text.precedes key k then (key, value) :: (k, v) :: rest
    else (k, v) :: insertField key value rest

/-- Sorts fields by key; of several fields with one key the last one stays. -/
def sortFields (fields : List (String × Json)) : List (String × Json) :=
  fields.foldl (fun done field => insertField field.1 field.2 done) []

mutual
def sorted : Json → Json
  | .null => .null
  | .bool b => .bool b
  | .num n => .num n
  | .str s => .str s
  | .arr items => .arr (sortedItems items)
  | .obj fields => .obj (sortFields (sortedFields fields))

def sortedItems : List Json → List Json
  | [] => []
  | v :: rest => v.sorted :: sortedItems rest

def sortedFields : List (String × Json) → List (String × Json)
  | [] => []
  | (k, v) :: rest => (k, v.sorted) :: sortedFields rest
end

def Number.same : Number → Number → Bool
  | .int a, .int b => a == b
  | .float a, .float b => a.same b
  | _, _ => false

mutual
/-- Equality of values; both floating point zeros are equal. -/
def same : Json → Json → Bool
  | .null, .null => true
  | .bool a, .bool b => a == b
  | .num a, .num b => a.same b
  | .str a, .str b => a == b
  | .arr xs, .arr ys => sameItems xs ys
  | .obj xs, .obj ys => sameFields xs ys
  | _, _ => false

def sameItems : List Json → List Json → Bool
  | [], [] => true
  | x :: xs, y :: ys => x.same y && sameItems xs ys
  | _, _ => false

def sameFields : List (String × Json) → List (String × Json) → Bool
  | [], [] => true
  | (k, x) :: xs, (l, y) :: ys => k == l && x.same y && sameFields xs ys
  | _, _ => false
end

instance : BEq Json := ⟨same⟩

/-- The last field of a key. -/
def field? (fields : List (String × Json)) (key : String) : Option Json :=
  (fields.reverse.find? (·.1 == key)).map (·.2)

def get? (v : Json) (key : String) : Option Json :=
  match v with
  | .obj fields => field? fields key
  | _ => none

/-- Why a value cannot be the key of an object. -/
inductive KeyFault where
  | notText
  | notFinite
deriving DecidableEq, Inhabited

def KeyFault.message : KeyFault → String
  | .notText => "key must be a string"
  | .notFinite => "float key must be finite (got NaN or +/-inf)"

/-- The integers that a JSON integer can be: those of 64 bits, with or without sign. -/
def inIntRange (n : Int) : Bool :=
  Decimal.fitsSigned 64 n || Decimal.fitsUnsigned 64 n

def isInt64 (n : Int) : Bool :=
  Decimal.fitsSigned 64 n

end Json
end TaskTags
