import TaskTags.Playbook.Select

/-!
# The tasks of a play

A task is known by its place: its section, the play and the blocks around it, and how many tasks of
the play lie in front of each of them. What a template sees at a task follows from its place alone.
-/

namespace TaskTags

/-- Induction on a list of nodes: a block brings a hypothesis for each of its parts. -/
@[elab_as_elim]
theorem TaskNode.listInduction {motive : List TaskNode → Prop} (nil : motive [])
    (task : ∀ d action rest, motive rest → motive (.task d action :: rest))
    (block : ∀ d body rescue always rest, motive body → motive rescue → motive always →
      motive rest → motive (.block d body rescue always :: rest)) :
    ∀ nodes, motive nodes
  | [] => nil
  | .task d action :: rest => task d action rest (listInduction nil task block rest)
  | .block d body rescue always :: rest =>
    block d body rescue always rest (listInduction nil task block body)
      (listInduction nil task block rescue) (listInduction nil task block always)
      (listInduction nil task block rest)

/-- A play or a block around a task. -/
structure Enclosure where
  declared : Declared
  /-- The number of tasks of the play in front of it. -/
  start : Nat

/-- A task in its place. -/
structure Leaf where
  «section» : Section
  play : Declared
  /-- The blocks around the task, the outermost one first. -/
  blocks : List Enclosure
  declared : Declared
  action : Option String

namespace Leaf

/-- The play and the blocks around a task, the outermost one first. -/
def around (leaf : Leaf) : List Enclosure :=
  ⟨leaf.play, 0⟩ :: leaf.blocks

/-- The variables that templates see at a task: those of the play, over them those of the blocks
from the outermost one on, then those of the task, then the extra ones. -/
def context (extraVars : Bindings) (leaf : Leaf) : Bindings :=
  let outer := leaf.blocks.foldl (fun vars block => vars.merge block.declared.vars)
    (Bindings.merge [] leaf.play.vars)
  ((outer.merge leaf.declared.vars).merge extraVars).filter fun (name, _) =>
    !SelectionRules.hiddenVars.contains name

/-- What is selected of a task with given tags. -/
def toSelection (filter : TagFilter) (leaf : Leaf) (tags : TagSet) : TaskSelection where
  name := leaf.declared.name
  action := leaf.action
  «section» := leaf.section
  blocks := leaf.blocks.map (·.declared.name)
  tags := tags
  selected := leaf.section = .handlers || filter.runs tags

end Leaf

mutual
/-- The tasks of a node that has `n` tasks of its play in front of it. -/
def TaskNode.leaves (s : Section) (play : Declared) (blocks : List Enclosure) (n : Nat) :
    TaskNode → List Leaf
  | .task d action => [⟨s, play, blocks, d, action⟩]
  | .block d body rescue always =>
    let inner := blocks ++ [⟨d, n⟩]
    let afterBody := n + taskCounts body
    leavesOf s play inner n body ++ leavesOf s play inner afterBody rescue ++
      leavesOf s play inner (afterBody + taskCounts rescue) always

def TaskNode.leavesOf (s : Section) (play : Declared) (blocks : List Enclosure) (n : Nat) :
    List TaskNode → List Leaf
  | [] => []
  | node :: rest =>
    node.leaves s play blocks n ++ leavesOf s play blocks (n + node.taskCount) rest
end

namespace Play

/-- The number of tasks in front of a section. -/
def tasksBefore (play : Play) : Section → Nat
  | .preTasks => 0
  | .tasks => TaskNode.taskCounts play.preTasks
  | .postTasks => TaskNode.taskCounts play.preTasks + TaskNode.taskCounts play.tasks
  | .handlers =>
    TaskNode.taskCounts play.preTasks + TaskNode.taskCounts play.tasks +
      TaskNode.taskCounts play.postTasks

/-- The tasks of a play in the order in which they run. -/
def leaves (play : Play) : List Leaf :=
  Section.all.flatMap fun s =>
    TaskNode.leavesOf s play.declared [] (play.tasksBefore s) (play.nodes s)

end Play

namespace TaskNode

variable {s : Section} {play : Declared} {blocks : List Enclosure} {n : Nat}

theorem taskCounts_append (xs ys : List TaskNode) :
    taskCounts (xs ++ ys) = taskCounts xs + taskCounts ys := by
  induction xs with
  | nil => exact (Nat.zero_add _).symm
  | cons node rest ih => rw [List.cons_append, taskCounts, taskCounts, ih, Nat.add_assoc]

@[simp]
theorem length_leavesOf {nodes : List TaskNode} :
    (leavesOf s play blocks n nodes).length = taskCounts nodes := by
  induction nodes using TaskNode.listInduction generalizing blocks n with
  | nil => rfl
  | task d action rest ih =>
      simp only [leavesOf, leaves, taskCounts, taskCount, List.length_append, List.length_singleton,
        ih]
  | block d body rescue always rest hbody hrescue halways hrest =>
      simp only [leavesOf, leaves, taskCounts, taskCount, List.length_append, hbody, hrescue,
        halways, hrest]

/-- A task is in the play that it is listed for. -/
theorem play_of_mem_leavesOf {nodes : List TaskNode} {leaf : Leaf}
    (h : leaf ∈ leavesOf s play blocks n nodes) : leaf.play = play := by
  induction nodes using TaskNode.listInduction generalizing blocks n with
  | nil => cases h
  | task d action rest ih =>
      rw [leavesOf, leaves, List.singleton_append, List.mem_cons] at h
      rcases h with rfl | h
      · rfl
      · exact ih h
  | block d body rescue always rest hbody hrescue halways hrest =>
      rw [leavesOf, leaves, List.mem_append, List.mem_append, List.mem_append] at h
      rcases h with ((h | h) | h) | h
      · exact hbody h
      · exact hrescue h
      · exact halways h
      · exact hrest h

end TaskNode

theorem Play.leaves_eq_append (play : Play) :
    play.leaves = TaskNode.leavesOf .preTasks play.declared [] (play.tasksBefore .preTasks)
        (play.nodes .preTasks) ++
      TaskNode.leavesOf .tasks play.declared [] (play.tasksBefore .tasks) (play.nodes .tasks) ++
      TaskNode.leavesOf .postTasks play.declared [] (play.tasksBefore .postTasks)
        (play.nodes .postTasks) ++
      TaskNode.leavesOf .handlers play.declared [] (play.tasksBefore .handlers)
        (play.nodes .handlers) := by
  simp [leaves, Section.all, tasksBefore]

theorem Play.play_of_mem_leaves {play : Play} {leaf : Leaf} (h : leaf ∈ play.leaves) :
    leaf.play = play.declared := by
  obtain ⟨s, -, hleaf⟩ := List.mem_flatMap.mp h
  exact TaskNode.play_of_mem_leavesOf hleaf

namespace Bindings

theorem merge_append (vars xs ys : Bindings) : vars.merge (xs ++ ys) = (vars.merge xs).merge ys :=
  List.foldl_append

/-- Scopes laid over each other one by one are laid over each other at once. -/
theorem merge_flatten (vars : Bindings) (scopes : List Bindings) :
    vars.merge scopes.flatten = scopes.foldl merge vars := by
  induction scopes generalizing vars with
  | nil => rfl
  | cons scope rest ih => rw [List.flatten_cons, merge_append, ih, List.foldl_cons]

end Bindings

theorem Leaf.context_eq_layer (extraVars : Bindings) (leaf : Leaf) :
    leaf.context extraVars = SelectionRules.layer
      (leaf.around.map (·.declared.vars) ++ [leaf.declared.vars, extraVars]) := by
  rw [SelectionRules.layer, Bindings.merge_flatten, List.foldl_append, around, List.map_cons]
  simp only [List.foldl_cons, List.foldl_nil, List.foldl_map]
  rfl

end TaskTags
