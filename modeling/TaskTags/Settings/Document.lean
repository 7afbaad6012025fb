import TaskTags.Json.Reader
import TaskTags.Settings.Basic
import TaskTags.Toml.Document
import TaskTags.Yaml.Json

/-!
Layers of settings from documents. The formats differ in what counts as a text, a number or a list,
and agree on the rest: unknown keys have no effect, a key that is null is not set, and anything of
a wrong type makes the whole document invalid.
-/

namespace TaskTags

/-- How the values of a format are read. -/
structure ValueReader (α : Type) where
  /-- The values of keys, each key at most once, or in some formats the values of a list in the
  order of the keys. -/
  members? : List String → α → Option (List (String × α))
  items? : α → Option (List α)
  text? : α → Option String
  bool? : α → Option Bool
  nat? : α → Option Nat
  /-- The name of a constant. -/
  constant? : α → Option String
  isNull : α → Bool

namespace ValueReader

variable {α β : Type}

/-- The members with known keys, if each key stands only once. -/
def known? (keys : List String) (members : List (String × α)) : Option (List (String × α)) :=
  let found := members.filter fun (key, _) => keys.contains key
  if (found.map (·.1)).Nodup then some found else none

/-- A section, empty without its key. -/
def section? (reader : ValueReader α) (keys : List String) : Option α → Option (List (String × α))
  | none => some []
  | some v => reader.members? keys v

/-- The value of a key that may be left out or null. -/
def setting? (reader : ValueReader α) (decode : α → Option β) (members : List (String × α))
    (key : String) : Option (Option β) :=
  match members.lookup key with
  | none => some none
  | some v => if reader.isNull v then some none else (decode v).map some

def texts? (reader : ValueReader α) (v : α) : Option (List String) := do
  (← reader.items? v).mapM reader.text?

/-- A verbosity is given as a number below 256. -/
def byte? (reader : ValueReader α) (v : α) : Option Nat :=
  (reader.nat? v).filter (· < 256)

def layer? (reader : ValueReader α) (v : α) : Option SettingsLayer := do
  let sections ← reader.members? ["tags", "output", "logging"] v
  let tags ← reader.section? ["run", "skip", "inherit"] (sections.lookup "tags")
  let output ← reader.section? ["verbosity", "diff", "color"] (sections.lookup "output")
  let logging ← reader.section? ["level", "format", "file"] (sections.lookup "logging")
  return {
    run := ← reader.setting? reader.texts? tags "run"
    skip := ← reader.setting? reader.texts? tags "skip"
    inherit := ← reader.setting? reader.bool? tags "inherit"
    verbosity := ← reader.setting? reader.byte? output "verbosity"
    diff := ← reader.setting? reader.bool? output "diff"
    color := ← reader.setting? reader.bool? output "color"
    logLevel := ← reader.setting? (reader.constant? · >>= LogLevel.ofName?) logging "level"
    logFormat := ← reader.setting? (reader.constant? · >>= LogFormat.ofName?) logging "format"
    logFile := ← reader.setting? reader.text? logging "file" }

end ValueReader

/-- JSON objects may be given as lists of their values. An object with a null names a constant by
its key. -/
def Json.settingsReader : ValueReader Json where
  members? keys
    | .obj fields => ValueReader.known? keys fields
    | .arr items => if items.length ≤ keys.length then some (keys.zip items) else none
    | _ => none
  items?
    | .arr items => some items
    | _ => none
  text?
    | .str s => some s
    | _ => none
  bool?
    | .bool b => some b
    | _ => none
  nat?
    | .num (.int n) => n.toNat?
    | _ => none
  constant?
    | .str s => some s
    | .obj [(key, .null)] => some key
    | _ => none
  isNull
    | .null => true
    | _ => false

namespace Toml

/-- The name of a constant may be the key of something empty. -/
def constantOf? : Entries → Option String
  | (key, .array []) :: _ | (key, .table _ []) :: _ => some key
  | _ => none

/-- TOML tables may be given as lists of their values, and a date is a table without known keys. -/
def settingsReader : ValueReader Value where
  members? keys
    | .table _ entries => ValueReader.known? keys entries
    | .array items => some (keys.zip items)
    | .tables all => some (keys.zip (all.map (Value.table .headed)))
    | .moment _ => some []
    | _ => none
  items?
    | .array items => some items
    | .tables all => some (all.map (Value.table .headed))
    | _ => none
  text?
    | .str s => some s
    | _ => none
  bool?
    | .bool b => some b
    | _ => none
  nat?
    | .int n => n.toNat?
    | _ => none
  constant?
    | .str s => some s
    | .table form entries =>
      if form = .braced && entries.length ≠ 1 then none else constantOf? entries
    | _ => none
  isNull _ := false

end Toml

namespace Yaml.Node

def target (anchors : List (Nat × Node)) : Node → Option Node
  | .alias number => anchors.lookup number
  | node => some node

/-- What is left out stands for an empty mapping or list as well. -/
def isEmpty : Node → Bool
  | .scalar _ isPlain text => isPlain && text.isEmpty
  | _ => false

def members? (anchors : List (Nat × Node)) (node : Node) : Option (List (String × Node)) := do
  match ← node.target anchors with
  | .map _ entries => entries.mapM fun (k, v) => (k.text? anchors).map (·, v)
  | node => if node.isEmpty then some [] else none

def items? (anchors : List (Nat × Node)) (node : Node) : Option (List Node) := do
  match ← node.target anchors with
  | .list _ items => some items
  | node => if node.isEmpty then some [] else none

/-- The text of a scalar without quotes. -/
def plain? (anchors : List (Nat × Node)) (node : Node) : Option String := do
  match ← node.target anchors with
  | .scalar _ true text => some text
  | _ => none

/-- Only a scalar without a tag of its own can be null. -/
def isNull (anchors : List (Nat × Node)) (node : Node) : Bool :=
  match node.target anchors with
  | some (.scalar none true text) => text.isEmpty || Scalar.isNull text
  | _ => false

/-- The name of a constant is a text, or the tag of its own that a null has. -/
def constant? (anchors : List (Nat × Node)) (node : Node) : Option String := do
  match ← node.target anchors with
  | .scalar tag isPlain text =>
    match Value.localTag? tag with
    | none => some text
    | some name => if isPlain && (text.isEmpty || Scalar.isNull text) then some name else none
  | _ => none

def nat? (text : String) : Option Nat :=
  if text.startsWith "-" then none else (Scalar.integer? text).bind Int.toNat?

def settingsReader (anchors : List (Nat × Node)) : ValueReader Node where
  members? keys node := do ValueReader.known? keys (← node.members? anchors)
  items? := items? anchors
  text? := text? anchors
  bool? node := do Scalar.bool? (← node.plain? anchors)
  nat? node := do nat? (← node.plain? anchors)
  constant? := constant? anchors
  isNull := isNull anchors

end Yaml.Node

namespace SettingsLayer

def ofYaml? (text : String) : Option SettingsLayer := do
  let document ← Yaml.Document.parse? text
  match document.root with
  | none => return {}
  | some root => (Yaml.Node.settingsReader document.anchors).layer? root

def ofJson? (text : String) : Option SettingsLayer := do
  Json.settingsReader.layer? (← Json.parse? text)

def ofToml? (text : String) : Option SettingsLayer := do
  Toml.settingsReader.layer? (.table .headed (← Toml.parse? text))

/-- The part of a file name behind its last dot, which does not start the name. -/
def extensionOf (path : String) : String :=
  let names := ((path.toList.splitOn '/').filter fun name => name ≠ [] && name ≠ ['.'])
  match (names.getLastD []).reverse.span (· ≠ '.') with
  | (ending, _ :: _ :: _) => String.ofList ending.reverse
  | _ => ""

/-- The layer of a text in the format that an extension names; without a known one the text may be
TOML or YAML. -/
def parse? (ending text : String) : Option SettingsLayer :=
  if ending = "yml" || ending = "yaml" then ofYaml? text
  else if ending = "json" then ofJson? text
  else if ending = "toml" then ofToml? text
  else (ofToml? text).or (ofYaml? text)

end SettingsLayer
end TaskTags
