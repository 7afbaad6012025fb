import TaskTags.Tag.Set

/-!
Tags with the tasks that carry them. A tag can be known without any task.
-/

namespace TaskTags

structure TagCollector where
  tags : TagSet
  /-- Every tag with a task and the names of its tasks in order of addition, by increasing tag. -/
  tasks : List (Tag × List String)
deriving Inhabited

namespace TagCollector

def empty : TagCollector := ⟨∅, []⟩

def recordTask (tag : Tag) (name : String) : List (Tag × List String) → List (Tag × List String)
  | [] => [(tag, [name])]
  | (t, names) :: rest =>
    if tag < t then (tag, [name]) :: (t, names) :: rest
    else if tag = t then (t, names ++ [name]) :: rest
    else (t, names) :: recordTask tag name rest

def add (c : TagCollector) (tag : Tag) (task : Option String) : TagCollector where
  tags := c.tags.insert tag
  tasks :=
    match task with
    | none => c.tasks
    | some name => recordTask tag name c.tasks

def addAll (c : TagCollector) (tags : TagSet) (task : Option String) : TagCollector :=
  tags.toList.foldl (fun c tag => c.add tag task) c

def tasksOf? (c : TagCollector) (tag : Tag) : Option (List String) :=
  (c.tasks.find? (·.1 == tag)).map (·.2)

def count (c : TagCollector) : Nat :=
  c.tags.toList.length

/-- The line of one tag: its text, the number of its tasks and a mark on special tags. -/
def line (c : TagCollector) (tag : Tag) : String :=
  let tasks :=
    match c.tasksOf? tag with
    | none => ""
    | some names =>
      " (" ++ toString names.length ++ (if names.length = 1 then " task)" else " tasks)")
  let mark := if tag.isSpecial then " [special]" else ""
  "  " ++ tag.display ++ tasks ++ mark ++ "\n"

def display (c : TagCollector) : String :=
  if c.tags.isEmpty then
    "No tags found in playbook.\n"
  else
    "Found " ++ toString c.count ++ " unique tags:\n\n" ++ String.join (c.tags.toList.map c.line)

end TagCollector
end TaskTags
