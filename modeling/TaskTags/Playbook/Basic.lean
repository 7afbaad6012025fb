import TaskTags.Store.Basic
import TaskTags.Tag.Entry

/-!
Playbooks: plays with their tasks in sections, and tasks grouped in blocks.
-/

namespace TaskTags

/-- What plays, blocks and tasks declare alike. -/
structure Declared where
  name : String
  tags : List TagEntry
  vars : Bindings
deriving Inhabited

inductive TaskNode where
  /-- A task and the module that it invokes. -/
  | task (declared : Declared) (action : Option String)
  | block (declared : Declared) (body rescue always : List TaskNode)
deriving Inhabited

/-- The parts of a play, in the order in which they run. -/
inductive Section where
  | preTasks
  | tasks
  | postTasks
  | handlers
deriving DecidableEq, Inhabited

namespace Section

def all : List Section := [preTasks, tasks, postTasks, handlers]

def key : Section → String
  | preTasks => "pre_tasks"
  | tasks => "tasks"
  | postTasks => "post_tasks"
  | handlers => "handlers"

end Section

structure Play where
  declared : Declared
  hosts : Option String
  preTasks : List TaskNode
  tasks : List TaskNode
  postTasks : List TaskNode
  handlers : List TaskNode
deriving Inhabited

namespace Play

def nodes (play : Play) : Section → List TaskNode
  | .preTasks => play.preTasks
  | .tasks => play.tasks
  | .postTasks => play.postTasks
  | .handlers => play.handlers

/-- The nodes of all sections with the section of each, in the order in which they run. -/
def allNodes (play : Play) : List (Section × TaskNode) :=
  Section.all.flatMap fun s => (play.nodes s).map (s, ·)

end Play

abbrev Playbook := List Play

mutual
def TaskNode.taskCount : TaskNode → Nat
  | .task _ _ => 1
  | .block _ body rescue always =>
    TaskNode.taskCounts body + TaskNode.taskCounts rescue + TaskNode.taskCounts always

def TaskNode.taskCounts : List TaskNode → Nat
  | [] => 0
  | node :: rest => node.taskCount + TaskNode.taskCounts rest
end

namespace Playbook

/-- The number of tasks, with those in blocks. -/
def taskCount (playbook : Playbook) : Nat :=
  TaskNode.taskCounts (playbook.flatMap fun play => play.allNodes.map (·.2))

end Playbook
end TaskTags
