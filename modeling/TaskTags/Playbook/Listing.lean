import TaskTags.Json.Basic
import TaskTags.Playbook.Select
import TaskTags.Text.Ansi

/-!
Selections as they are shown: as lines for readers, and as JSON.
-/

namespace TaskTags

def TagSet.toJson (tags : TagSet) : Json :=
  .arr (tags.toList.map fun
    | .int n => Json.ofInt n
    | .str s => .str s)

def TagSet.paint (color : Bool) (tags : TagSet) : String :=
  Text.paint color .yellow tags.display

namespace TaskSelection

/-- The fields by name; those without content are left out. -/
def toJson (t : TaskSelection) : Json :=
  .obj ((t.action.toList.map fun action => ("action", .str action)) ++
    (if t.blocks.isEmpty then [] else [("blocks", Json.ofStrings t.blocks)]) ++
    [("name", .str t.name), ("section", .str t.section.key), ("selected", .bool t.selected),
      ("tags", t.tags.toJson)])

/-- The status as a column of four characters; painted, it is as wide as its word. -/
def status (color : Bool) (t : TaskSelection) : String :=
  if color then
    if t.selected then Text.paint true .green "run" else Text.paint true .cyan "skip"
  else
    if t.selected then "run " else "skip"

/-- The line of a task, with its status and its module if they are to be shown. -/
def line (color showStatus showAction : Bool) (t : TaskSelection) : String :=
  "  " ++ (if showStatus then "[" ++ t.status color ++ "] " else "") ++
    String.join (t.blocks.map (· ++ " : ")) ++ t.name ++
    (if t.section = .handlers then " [handler]" else "") ++
    (match t.action with
      | some action => if showAction then " (" ++ action ++ ")" else ""
      | none => "") ++
    "\tTAGS: [" ++ t.tags.paint color ++ "]\n"

end TaskSelection

namespace PlaySelection

def toJson (p : PlaySelection) : Json :=
  .obj [("name", .str p.name), ("tags", p.tags.toJson), ("tasks", .arr (p.tasks.map (·.toJson)))]

/-- Stars fill the line of a play up to this many bytes. -/
def headerWidth : Nat := 80

def header (color : Bool) (p : PlaySelection) : String :=
  let title := "PLAY [" ++ p.name ++ "]"
  let stars := "".pushn '*' (headerWidth - (title.utf8ByteSize + 1))
  "\n" ++ Text.paint color .boldWhite title ++ " " ++ Text.paint color .gray stars ++ "\n"

def tagsLine (color : Bool) (p : PlaySelection) : String :=
  if p.tags.isEmpty then "" else "  PLAY TAGS: [" ++ p.tags.paint color ++ "]\n"

/-- The lines of a play: its header, its tags, and the tasks that are selected or, with all of
them, the status of each. -/
def lines (color showSkipped showAction : Bool) (p : PlaySelection) : String :=
  let shown := p.tasks.filter fun t => t.selected || showSkipped
  p.header color ++ p.tagsLine color ++
    String.join (shown.map (TaskSelection.line color showSkipped showAction))

end PlaySelection

/-- The requested tags that neither a play nor a task has. Special tags stand for others. -/
def unknownTags (only : TagSet) (plays : List PlaySelection) : List Tag :=
  only.toList.filter fun tag =>
    !tag.isSpecial && !plays.any fun p => tag ∈ p.tags || p.tasks.any fun t => tag ∈ t.tags

end TaskTags
