import TaskTags.Yaml.Token

/-!
The nodes of a YAML document, as they stand in its text. Aliases refer to anchors by number.
-/

namespace TaskTags.Yaml

inductive Node where
  | scalar (tag : Option String) (isPlain : Bool) (text : String)
  | list (tag : Option String) (items : List Node)
  | map (tag : Option String) (entries : List (Node × Node))
  | alias (number : Nat)
deriving Inhabited

/-- A document: its root, if it has one, and the nodes that aliases stand for. -/
structure Document where
  root : Option Node
  anchors : List (Nat × Node)
deriving Inhabited

namespace Node

/-- What stands where a node is left out. -/
def empty : Node := .scalar none true ""

/-- The state of reading: the tokens ahead, the texts of tag handles, the names of anchors with
their numbers, and what the numbers stand for so far, each with the count of tokens behind it. -/
structure Reading where
  tokens : List Token
  handles : List (String × String)
  names : List (String × Nat)
  anchors : List (Nat × Nat × Node)

abbrev Read := StateT Reading Option

def peek? : Read (Option Token) := return (← get).tokens.head?

def next : Read Unit := modify fun r => { r with tokens := r.tokens.tail }

def isNext (ts : List Token) : Read Bool := return (← peek?).all fun t => ts.contains t

def take (t : Token) : Read Bool := do
  if (← peek?) == some t then
    next
    return true
  return false

/-- The number of an anchor is the count of the names before it. -/
def newAnchor (name : String) : Read Nat := do
  let r ← get
  let number := r.names.length
  set { r with names := (name, number) :: r.names.filter (·.1 ≠ name) }
  return number

/-- Of two nodes with one number the one that starts later stays. -/
def setAnchor (number left : Nat) (node : Node) : Read Unit :=
  modify fun r =>
    match r.anchors.find? (·.1 == number) with
    | some (_, left', _) =>
      if left ≤ left' then
        { r with anchors := (number, left, node) :: r.anchors.filter (·.1 ≠ number) }
      else r
    | none => { r with anchors := (number, left, node) :: r.anchors }

def tagOf? (handle suffix : String) : Read String := do
  if handle.isEmpty then return suffix
  match (← get).handles.lookup handle with
  | some text => return text ++ suffix
  | none => failure

/-- The anchor and the tag in front of a node, in either order. -/
def properties : Read (Option String × Option String) := do
  let anchor? : Read (Option String) := do
    match ← peek? with
    | some (.anchor name) =>
      next
      return some name
    | _ => return none
  let tag? : Read (Option String) := do
    match ← peek? with
    | some (.tag handle suffix) =>
      next
      return some (← tagOf? handle suffix)
    | _ => return none
  match ← anchor? with
  | some name => return (some name, ← tag?)
  | none =>
    let tag ← tag?
    return (← if tag.isSome then anchor? else pure none, tag)

mutual
/-- A node. Block collections stand only `inBlock`; a list whose dashes are no further to the right
than the keys around it only where it `isValue`. -/
def node : Nat → Bool → Bool → Read Node
  | 0, _, _ => failure
  | fuel + 1, inBlock, isValue => do
    match ← peek? with
    | some (.alias name) =>
      next
      match (← get).names.lookup name with
      | some number => return .alias number
      | none => failure
    | _ =>
      let left := (← get).tokens.length
      let (anchor, tag) ← properties
      let number ← anchor.mapM newAnchor
      let result ← content fuel inBlock isValue (anchor.isSome || tag.isSome) tag
      match number with
      | some n => setAnchor n left result
      | none => pure ()
      return result

def content : Nat → Bool → Bool → Bool → Option String → Read Node
  | 0, _, _, _, _ => failure
  | fuel + 1, inBlock, isValue, mayBeEmpty, tag => do
    match ← peek? with
    | some (.scalar isPlain text) =>
      next
      return .scalar (tag.filter (· ≠ "!")) isPlain text
    | some .openList =>
      next
      return .list tag (← flowItems fuel true)
    | some .openMap =>
      next
      return .map tag (← flowEntries fuel true)
    | t =>
      if isValue && t == some .dash then
        return .list tag (← looseItems fuel)
      if inBlock && t == some .openBlockList then
        next
        return .list tag (← blockItems fuel)
      if inBlock && t == some .openBlockMap then
        next
        return .map tag (← blockEntries fuel)
      if mayBeEmpty then return .scalar tag true ""
      failure

def blockItems : Nat → Read (List Node)
  | 0 => failure
  | fuel + 1 => do
    if ← take .closeBlock then return []
    if ← take .dash then
      let item ← if ← isNext [.dash, .closeBlock] then pure empty else node fuel true false
      return item :: (← blockItems fuel)
    failure

/-- The items of a list in a mapping that has no block of its own. -/
def looseItems : Nat → Read (List Node)
  | 0 => failure
  | fuel + 1 => do
    if ← take .dash then
      let item ←
        if ← isNext [.dash, .key, .value, .closeBlock] then pure empty else node fuel true false
      return item :: (← looseItems fuel)
    return []

def blockEntries : Nat → Read (List (Node × Node))
  | 0 => failure
  | fuel + 1 => do
    if ← take .closeBlock then return []
    if ← take .key then
      let k ← blockPart fuel
      let v ← if ← take .value then blockPart fuel else pure empty
      return (k, v) :: (← blockEntries fuel)
    failure

def blockPart : Nat → Read Node
  | 0 => failure
  | fuel + 1 => do
    if ← isNext [.key, .value, .closeBlock] then return empty
    node fuel true true

def flowItems : Nat → Bool → Read (List Node)
  | 0, _ => failure
  | fuel + 1, isFirst => do
    if ← take .closeList then return []
    if !isFirst then
      if !(← take .comma) then failure
      if ← take .closeList then return []
    if ← take .key then
      let k ←
        if ← isNext [.value, .comma, .closeList] then
          next
          pure empty
        else node fuel false false
      let v ← if ← take .value then flowPart fuel .closeList else pure empty
      return .map none [(k, v)] :: (← flowItems fuel false)
    let item ← node fuel false false
    return item :: (← flowItems fuel false)

def flowEntries : Nat → Bool → Read (List (Node × Node))
  | 0, _ => failure
  | fuel + 1, isFirst => do
    if ← take .closeMap then return []
    if !isFirst then
      if !(← take .comma) then failure
      if ← take .closeMap then return []
    if ← take .key then
      let k ← if ← isNext [.value, .comma, .closeMap] then pure empty else node fuel false false
      let v ← if ← take .value then flowPart fuel .closeMap else pure empty
      return (k, v) :: (← flowEntries fuel false)
    let k ← node fuel false false
    return (k, empty) :: (← flowEntries fuel false)

def flowPart : Nat → Token → Read Node
  | 0, _ => failure
  | fuel + 1, close => do
    if ← isNext [.comma, close] then return empty
    node fuel false false
end

def directives : Nat → Bool → Read Bool
  | 0, _ => failure
  | fuel + 1, hasVersion => do
    match ← peek? with
    | some (.version major minor) =>
      if hasVersion || major ≠ 1 || (minor ≠ 1 && minor ≠ 2) then failure
      next
      directives fuel true
    | some (.handle name text) =>
      next
      let r ← get
      if r.handles.any (·.1 == name) then failure
      set { r with handles := r.handles ++ [(name, text)] }
      directives fuel hasVersion
    | _ => return hasVersion

def standardHandles : List (String × String) := [("!", "!"), ("!!", "tag:yaml.org,2002:")]

def root : Read Node := do
  let count := (← get).tokens.length
  let hasVersion ← directives (count + 1) false
  let isDirected := hasVersion || !(← get).handles.isEmpty
  modify fun r => { r with handles := r.handles ++ standardHandles }
  let isMarked ← take .documentStart
  if isDirected && !isMarked then failure
  let isEmpty := match ← peek? with
    | none | some (.version _ _) | some (.handle _ _) | some .documentStart
    | some .documentEnd => isMarked
    | _ => false
  let result ← if isEmpty then pure empty else node (8 * count + 8) true false
  if !(← get).tokens.all (· == .documentEnd) then failure
  return result

end Node

/-- The one document of a text. -/
def Document.parse? (text : String) : Option Document := do
  let tokens ← Token.all? text
  if tokens.isEmpty then return ⟨none, []⟩
  let (root, r) ← Node.root.run ⟨tokens, [], [], []⟩
  return ⟨some root, r.anchors.map fun (number, _, node) => (number, node)⟩

end TaskTags.Yaml
