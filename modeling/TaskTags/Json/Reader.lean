import TaskTags.Json.Token

/-!
Reading JSON text. A reader keeps the arrays and objects that are not closed yet and takes one
token at a time, so a text is read by a fold over its tokens.
-/

namespace TaskTags.Json

/-- An array or object that is not closed, its parts so far in reverse. -/
inductive Frame where
  | array (items : List Json)
  | object (fields : List (String × Json))
  /-- An object in which the value of the key comes next. -/
  | member (fields : List (String × Json)) (key : String)

inductive Phase where
  | value
  /-- A value or the end of the array. -/
  | item
  | key
  /-- A key or the end of the object. -/
  | member
  | colon
  /-- A comma or the end of the innermost array or object. -/
  | next
  | done (value : Json)

structure Reader where
  frames : List Frame
  phase : Phase

/-- One more than the greatest number of arrays and objects around a value. -/
def maxDepth : Nat := 128

namespace Reader

def start : Reader := ⟨[], .value⟩

def complete (v : Json) : List Frame → Option Reader
  | [] => some ⟨[], .done v⟩
  | .array items :: rest => some ⟨.array (v :: items) :: rest, .next⟩
  | .member fields key :: rest => some ⟨.object ((key, v) :: fields) :: rest, .next⟩
  | .object _ :: _ => none

def enter (r : Reader) (frame : Frame) (phase : Phase) : Option Reader :=
  if r.frames.length + 1 < maxDepth then some ⟨frame :: r.frames, phase⟩ else none

def close : List Frame → Option Reader
  | .array items :: rest => complete (.arr items.reverse) rest
  | .object fields :: rest => complete (.obj fields.reverse) rest
  | _ => none

def takeValue (r : Reader) : Token → Option Reader
  | .scalar v => complete v r.frames
  | .beginArray => r.enter (.array []) .item
  | .beginObject => r.enter (.object []) .member
  | _ => none

def takeKey (r : Reader) : Token → Option Reader
  | .scalar (.str key) =>
    match r.frames with
    | .object fields :: rest => some ⟨.member fields key :: rest, .colon⟩
    | _ => none
  | _ => none

/-- Takes one token; nothing if it does not fit. -/
def take (r : Reader) (token : Token) : Option Reader :=
  match r.phase, token with
  | .value, t => r.takeValue t
  | .item, .endArray => close r.frames
  | .item, t => r.takeValue t
  | .key, t => r.takeKey t
  | .member, .endObject => close r.frames
  | .member, t => r.takeKey t
  | .colon, .colon => some { r with phase := .value }
  | .next, .comma =>
    match r.frames with
    | .array _ :: _ => some { r with phase := .value }
    | .object _ :: _ => some { r with phase := .key }
    | _ => none
  | .next, .endArray =>
    match r.frames with
    | .array _ :: _ => close r.frames
    | _ => none
  | .next, .endObject =>
    match r.frames with
    | .object _ :: _ => close r.frames
    | _ => none
  | _, _ => none

def finish (r : Reader) : Option Json :=
  match r.phase with
  | .done v => some v
  | _ => none

end Reader

/-- The value of a text, its objects with their fields in the order of the text. -/
def parse? (s : String) : Option Json := do
  let tokens ← Token.all? s.toList
  let reader ← tokens.foldlM Reader.take Reader.start
  reader.finish

/-- The value of a text in its normal form. -/
def read? (s : String) : Option Json :=
  (parse? s).map sorted

end TaskTags.Json
