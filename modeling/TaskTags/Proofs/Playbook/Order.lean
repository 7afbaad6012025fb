import TaskTags.Proofs.Playbook.Walk

/-!
# The order of a selection

A selection lists every task of a play once, in the order in which the tasks run: section by
section, and in a block the body, then the rescue, then the always part.
-/

namespace TaskTags

/-- A selected task stands for a task in its place. -/
structure TaskSelection.StandsFor (t : TaskSelection) (leaf : Leaf) : Prop where
  name : t.name = leaf.declared.name
  action : t.action = leaf.action
  «section» : t.section = leaf.section
  blocks : t.blocks = leaf.blocks.map (·.declared.name)

/-- A selected play lists the tasks of a play one by one. -/
structure PlaySelection.Lists (p : PlaySelection) (play : Play) : Prop where
  name : p.name = play.declared.name
  tasks : List.Forall₂ TaskSelection.StandsFor p.tasks play.leaves

theorem PlaySelection.length_selected_add_length_skipped (p : PlaySelection) :
    p.selected.length + p.skipped.length = p.tasks.length :=
  (List.length_eq_length_filter_add _).symm

variable {rules : SelectionRules}

namespace Leaf

theorem standsFor_of_outcome {earlier : List Leaf} {leaf : Leaf} {t : TaskSelection}
    (h : leaf.outcome rules earlier = .ok t) : t.StandsFor leaf := by
  obtain ⟨own, -, h⟩ := Except.bind_eq_ok_iff.mp h
  obtain ⟨outer, -, h⟩ := Except.bind_eq_ok_iff.mp h
  cases h
  exact ⟨rfl, rfl, rfl, rfl⟩

theorem standsFor_of_outcomes {earlier leaves : List Leaf} {ts : List TaskSelection}
    (h : outcomes rules earlier leaves = .ok ts) :
    List.Forall₂ TaskSelection.StandsFor ts leaves := by
  induction leaves generalizing earlier ts with
  | nil =>
      cases h
      exact .nil
  | cons leaf rest ih =>
      rw [outcomes] at h
      obtain ⟨t, ht, h⟩ := Except.bind_eq_ok_iff.mp h
      obtain ⟨us, hus, h⟩ := Except.bind_eq_ok_iff.mp h
      cases h
      exact .cons (standsFor_of_outcome ht) (ih hus)

end Leaf

namespace Play

theorem lists_of_select {play : Play} {p : PlaySelection} (h : play.select rules = .ok p) :
    p.Lists play := by
  refine ⟨?_, Leaf.standsFor_of_outcomes (outcomes_of_select h)⟩
  rw [select_eq] at h
  obtain ⟨ts, -, h⟩ := Except.bind_eq_ok_iff.mp h
  obtain ⟨tags, -, h⟩ := Except.bind_eq_ok_iff.mp h
  cases h
  rfl

theorem length_leaves (play : Play) :
    play.leaves.length = TaskNode.taskCounts (play.allNodes.map (·.2)) := by
  have hnodes : play.allNodes.map (·.2)
      = play.preTasks ++ (play.tasks ++ (play.postTasks ++ play.handlers)) := by
    simp [allNodes, Section.all, nodes, Function.comp_def]
  rw [hnodes, leaves_eq_append]
  simp only [List.length_append, TaskNode.length_leavesOf, TaskNode.taskCounts_append, nodes]
  omega

end Play

namespace Playbook

theorem lists_of_select {playbook : Playbook} {plays : List PlaySelection}
    (h : playbook.select rules = .ok plays) :
    List.Forall₂ PlaySelection.Lists plays playbook :=
  ((Except.mapM_eq_ok_iff.mp h).imp fun _ _ => Play.lists_of_select).flip

/-- The recursion that counts tasks counts what the plays list. -/
theorem taskCount_of_lists {playbook : Playbook} {plays : List PlaySelection}
    (h : List.Forall₂ PlaySelection.Lists plays playbook) :
    (plays.flatMap (·.selected)).length + (plays.flatMap (·.skipped)).length
      = playbook.taskCount := by
  induction h with
  | nil => rfl
  | @cons p play plays playbook hp _ ih =>
      have hplay : p.selected.length + p.skipped.length
          = TaskNode.taskCounts (play.allNodes.map (·.2)) := by
        rw [p.length_selected_add_length_skipped, hp.tasks.length_eq, play.length_leaves]
      have hcount : taskCount (play :: playbook)
          = TaskNode.taskCounts (play.allNodes.map (·.2)) + taskCount playbook := by
        rw [taskCount, taskCount, List.flatMap_cons, TaskNode.taskCounts_append]
      rw [hcount, ← hplay, ← ih]
      simp only [List.flatMap_cons, List.length_append]
      omega

/-- A selection has one entry for every play, in order, and in it one for every task of the play, in
the order in which the tasks run, with the names of exactly the blocks around it. Together the
selected and the skipped tasks are as many as the playbook has. -/
theorem select_lists_every_task {playbook : Playbook} {plays : List PlaySelection}
    (h : playbook.select rules = .ok plays) :
    List.Forall₂ PlaySelection.Lists plays playbook ∧
      (plays.flatMap (·.selected)).length + (plays.flatMap (·.skipped)).length
        = playbook.taskCount := by
  have hlists := lists_of_select h
  exact ⟨hlists, taskCount_of_lists hlists⟩

/-- Every part of a block holds a task, and the rescue part a block of its own. -/
def nested : Playbook :=
  [{ declared := ⟨"site", [.single (.str "web")], []⟩
     hosts := none
     preTasks := [.task ⟨"check", [], []⟩ (some "ping")]
     tasks := [.block ⟨"outer", [.single (.str "db")], []⟩
       [.task ⟨"try", [], []⟩ none]
       [.block ⟨"inner", [], []⟩ [.task ⟨"repair", [], []⟩ none] [] [], .task ⟨"retry", [], []⟩ none]
       [.task ⟨"clean", [.single (.str "{{ zone }}")], [("zone", .str "a")]⟩ none]]
     postTasks := [.task ⟨"report", [], []⟩ none]
     handlers := [.task ⟨"restart", [], []⟩ none] }]

theorem select_lists_every_task_nested :
    ∃ plays, nested.select ⟨.empty, Templater.on, [], true⟩ = .ok plays ∧
      List.Forall₂ PlaySelection.Lists plays nested ∧
      (plays.flatMap (·.selected)).length + (plays.flatMap (·.skipped)).length = 7 ∧
      plays.map (fun p => p.tasks.map fun t => (t.name, t.blocks)) = [[("check", []),
        ("try", ["outer"]), ("repair", ["outer", "inner"]), ("retry", ["outer"]),
        ("clean", ["outer"]), ("report", []), ("restart", [])]] := by
  have hselect : (nested.select ⟨.empty, Templater.on, [], true⟩).toOption.map (List.map fun p =>
      p.tasks.map fun t => (t.name, t.blocks)) = some [[("check", []), ("try", ["outer"]),
        ("repair", ["outer", "inner"]), ("retry", ["outer"]), ("clean", ["outer"]),
        ("report", []), ("restart", [])]] := by decide +kernel
  obtain ⟨plays, hplays, hshown⟩ := Option.map_eq_some_iff.mp hselect
  have hok := Except.toOption_eq_some_iff.mp hplays
  obtain ⟨hlists, hcount⟩ := select_lists_every_task hok
  exact ⟨plays, hok, hlists, hcount, hshown⟩

end Playbook
end TaskTags
