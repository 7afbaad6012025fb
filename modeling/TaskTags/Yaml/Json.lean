import TaskTags.Yaml.Value

/-!
YAML documents read as JSON. Every scalar can be a key, by its text; of several entries with one
key the last one counts; tags of a document's own have no place.
-/

namespace TaskTags.Yaml

namespace Node

def hasLocalTag (tag : Option String) : Bool :=
  (Value.localTag? tag).isSome

def text? (anchors : List (Nat × Node)) : Node → Option String
  | .scalar _ _ text => some text
  | .alias number =>
    match anchors.lookup number with
    | some (.scalar _ _ text) => some text
    | _ => none
  | _ => none

def jsonScalar : Scalar → Json
  | .null => .null
  | .bool b => .bool b
  | .num (.float x) => if x.isFinite then .num (.float x) else .null
  | .num n => .num n
  | .str s => .str s

mutual
/-- The JSON value of a node no deeper than `depth`. `fuel` bounds the steps, aliases included. -/
def json? (anchors : List (Nat × Node)) : Nat → Nat → Node → Option Json
  | 0, _, _ => none
  | _ + 1, _, .scalar tag isPlain text =>
    if hasLocalTag tag then none
    else
      match tag with
      | none => if isPlain then (Scalar.ofPlain? text).map jsonScalar else some (.str text)
      | some t => (Scalar.ofTagged? t isPlain text).map jsonScalar
  | fuel + 1, depth, .list tag items =>
    match depth with
    | 0 => none
    | depth + 1 =>
      if hasLocalTag tag then none else (jsonItems? anchors fuel depth items).map .arr
  | fuel + 1, depth, .map tag entries =>
    match depth with
    | 0 => none
    | depth + 1 =>
      if hasLocalTag tag then none
      else (jsonFields? anchors fuel depth entries).map fun fields => .obj (Json.sortFields fields)
  | fuel + 1, depth, .alias number => (anchors.lookup number).bind (json? anchors fuel depth)

def jsonItems? (anchors : List (Nat × Node)) : Nat → Nat → List Node → Option (List Json)
  | 0, _, _ => none
  | _ + 1, _, [] => some []
  | fuel + 1, depth, node :: rest => do
    let v ← json? anchors fuel depth node
    return v :: (← jsonItems? anchors fuel depth rest)

def jsonFields? (anchors : List (Nat × Node)) :
    Nat → Nat → List (Node × Node) → Option (List (String × Json))
  | 0, _, _ => none
  | _ + 1, _, [] => some []
  | fuel + 1, depth, (k, v) :: rest => do
    let k ← k.text? anchors
    let v ← json? anchors fuel depth v
    return (k, v) :: (← jsonFields? anchors fuel depth rest)
end

end Node

/-- The fields of a document that is a mapping, or empty, in the order of its text. -/
def Document.jsonFields? (text : String) : Option (List (String × Json)) := do
  let document ← Document.parse? text
  if !document.isBounded then none
  match document.root with
  | some (.map _ entries) =>
    Node.jsonFields? document.anchors ((Value.maxDepth + 2) * (2 * text.length + 4))
      (Value.maxDepth - 1) entries
  | some (.scalar _ true "") | none => some []
  | _ => none

end TaskTags.Yaml
