import Mathlib.Data.Nat.Count
import TaskTags.Proofs.Playbook.Leaf

/-!
# Plays with tasks left out

Some tasks of a play are kept and the others left out, by their numbers in the play; blocks stay
with the tasks that are left in them. The tasks of what remains are the kept ones in their order,
with new numbers.
-/

namespace TaskTags

/-- The number that a place has when only the kept tasks in front of it count. -/
def renumber (keep : Nat → Bool) (n : Nat) : Nat :=
  Nat.count (fun i => keep i = true) n

/-- The kept elements of a list whose first element has the number `n`. -/
def kept {α : Type} (keep : Nat → Bool) : Nat → List α → List α
  | _, [] => []
  | n, x :: xs => if keep n then x :: kept keep (n + 1) xs else kept keep (n + 1) xs

def Enclosure.renumber (keep : Nat → Bool) (e : Enclosure) : Enclosure :=
  { e with start := TaskTags.renumber keep e.start }

def Leaf.renumber (keep : Nat → Bool) (leaf : Leaf) : Leaf :=
  { leaf with blocks := leaf.blocks.map (Enclosure.renumber keep) }

mutual
/-- What is left of a node that has `n` tasks of its play in front of it. -/
def TaskNode.thin (keep : Nat → Bool) (n : Nat) : TaskNode → List TaskNode
  | .task d action => if keep n then [.task d action] else []
  | .block d body rescue always =>
    let afterBody := n + taskCounts body
    [.block d (thinAll keep n body) (thinAll keep afterBody rescue)
      (thinAll keep (afterBody + taskCounts rescue) always)]

def TaskNode.thinAll (keep : Nat → Bool) (n : Nat) : List TaskNode → List TaskNode
  | [] => []
  | node :: rest => node.thin keep n ++ thinAll keep (n + node.taskCount) rest
end

def Play.thin (keep : Nat → Bool) (play : Play) : Play where
  declared := play.declared
  hosts := play.hosts
  preTasks := TaskNode.thinAll keep (play.tasksBefore .preTasks) play.preTasks
  tasks := TaskNode.thinAll keep (play.tasksBefore .tasks) play.tasks
  postTasks := TaskNode.thinAll keep (play.tasksBefore .postTasks) play.postTasks
  handlers := TaskNode.thinAll keep (play.tasksBefore .handlers) play.handlers

section Kept

variable {α : Type} {keep : Nat → Bool} {n : Nat}

@[simp]
theorem renumber_zero : renumber keep 0 = 0 := rfl

theorem renumber_succ : renumber keep (n + 1) = renumber keep n + if keep n then 1 else 0 :=
  Nat.count_succ _ n

theorem renumber_succ_of_keep (h : keep n = true) :
    renumber keep (n + 1) = renumber keep n + 1 := by
  rw [renumber_succ, if_pos h]

theorem renumber_succ_of_not_keep (h : keep n ≠ true) :
    renumber keep (n + 1) = renumber keep n := by
  rw [renumber_succ, if_neg h, Nat.add_zero]

theorem renumber_mono {m : Nat} (h : m ≤ n) : renumber keep m ≤ renumber keep n :=
  Nat.count_monotone _ h

theorem add_length_cons (n : Nat) (x : α) (xs : List α) :
    n + (x :: xs).length = n + 1 + xs.length := by
  rw [List.length_cons]
  omega

theorem kept_append (xs ys : List α) :
    kept keep n (xs ++ ys) = kept keep n xs ++ kept keep (n + xs.length) ys := by
  induction xs generalizing n with
  | nil => rfl
  | cons x xs ih =>
      rw [List.cons_append, kept, kept, ih, add_length_cons]
      by_cases hkeep : keep n = true
      · rw [if_pos hkeep, if_pos hkeep, List.cons_append]
      · rw [if_neg hkeep, if_neg hkeep]

theorem mem_of_mem_kept {x : α} {xs : List α} (h : x ∈ kept keep n xs) : x ∈ xs := by
  induction xs generalizing n with
  | nil => cases h
  | cons y ys ih =>
      rw [kept] at h
      split at h
      · rcases List.mem_cons.mp h with rfl | h
        · exact List.mem_cons_self
        · exact List.mem_cons_of_mem y (ih h)
      · exact List.mem_cons_of_mem y (ih h)

/-- The number behind a list counts the kept elements of it. -/
theorem renumber_add_length (xs : List α) :
    renumber keep (n + xs.length) = renumber keep n + (kept keep n xs).length := by
  induction xs generalizing n with
  | nil => rfl
  | cons x xs ih =>
      rw [add_length_cons, ih, kept]
      by_cases hkeep : keep n = true
      · rw [if_pos hkeep, renumber_succ_of_keep hkeep, List.length_cons]
        omega
      · rw [if_neg hkeep, renumber_succ_of_not_keep hkeep]

theorem length_kept (xs : List α) : (kept keep 0 xs).length = renumber keep xs.length := by
  have hlength := @renumber_add_length _ keep 0 xs
  rw [Nat.zero_add, renumber_zero, Nat.zero_add] at hlength
  exact hlength.symm

/-- A place between kept elements is one between all of them, in front of a kept one. -/
theorem exists_of_kept_eq_append {xs before after : List α} {x : α}
    (h : kept keep n xs = before ++ x :: after) :
    ∃ before' after', xs = before' ++ x :: after' ∧ keep (n + before'.length) = true ∧
      kept keep n before' = before := by
  induction xs generalizing n before with
  | nil => exact absurd h (by simp [kept])
  | cons y ys ih =>
      rw [kept] at h
      by_cases hkeep : keep n = true
      · rw [if_pos hkeep] at h
        cases before with
        | nil =>
            obtain ⟨rfl, -⟩ := List.cons.inj h
            exact ⟨[], ys, rfl, hkeep, rfl⟩
        | cons z before =>
            obtain ⟨rfl, htail⟩ := List.cons.inj h
            obtain ⟨before', after', rfl, hkept, hbefore⟩ := ih htail
            refine ⟨y :: before', after', rfl, ?_, ?_⟩
            · rwa [add_length_cons]
            · rw [kept, if_pos hkeep, hbefore]
      · rw [if_neg hkeep] at h
        obtain ⟨before', after', rfl, hkept, hbefore⟩ := ih h
        refine ⟨y :: before', after', rfl, ?_, ?_⟩
        · rwa [add_length_cons]
        · rw [kept, if_neg hkeep, hbefore]

end Kept

namespace TaskNode

variable {s : Section} {play : Declared} {blocks : List Enclosure} {keep : Nat → Bool} {n : Nat}

theorem renumber_add_taskCounts (nodes : List TaskNode) :
    renumber keep (n + taskCounts nodes) = renumber keep n + taskCounts (thinAll keep n nodes) := by
  induction nodes using TaskNode.listInduction generalizing n with
  | nil => rfl
  | task d action rest ih =>
      rw [taskCounts, taskCount, ← Nat.add_assoc, ih, thinAll, thin, taskCount, taskCounts_append]
      by_cases hkeep : keep n = true
      · rw [if_pos hkeep, renumber_succ_of_keep hkeep, Nat.add_assoc]
        rfl
      · rw [if_neg hkeep, renumber_succ_of_not_keep hkeep]
        exact congrArg _ (Nat.zero_add _).symm
  | block d body rescue always rest hbody hrescue halways hrest =>
      rw [taskCounts, taskCount, thinAll, thin, List.singleton_append, taskCounts, taskCount,
        taskCount]
      simp only [← Nat.add_assoc, hrest, halways, hrescue, hbody]

theorem leavesOf_thinAll (nodes : List TaskNode) :
    leavesOf s play (blocks.map (Enclosure.renumber keep)) (renumber keep n) (thinAll keep n nodes)
      = (kept keep n (leavesOf s play blocks n nodes)).map (Leaf.renumber keep) := by
  induction nodes using TaskNode.listInduction generalizing blocks n with
  | nil => rfl
  | task d action rest ih =>
      have hrest := @ih blocks (n + 1)
      rw [thinAll, thin, leavesOf, leaves, taskCount, List.singleton_append, kept]
      by_cases hkeep : keep n = true
      · rw [renumber_succ_of_keep hkeep] at hrest
        rw [if_pos hkeep, if_pos hkeep, List.singleton_append, leavesOf, leaves, taskCount, hrest]
        rfl
      · rw [renumber_succ_of_not_keep hkeep] at hrest
        rw [if_neg hkeep, if_neg hkeep, List.nil_append, hrest]
  | block d body rescue always rest hbody hrescue halways hrest =>
      have hinner : (blocks ++ [Enclosure.mk d n]).map (Enclosure.renumber keep)
          = blocks.map (Enclosure.renumber keep) ++ [⟨d, TaskTags.renumber keep n⟩] :=
        List.map_append
      have hbody := @hbody (blocks ++ [⟨d, n⟩]) n
      have hrescue := @hrescue (blocks ++ [⟨d, n⟩]) (n + taskCounts body)
      have halways := @halways (blocks ++ [⟨d, n⟩]) (n + taskCounts body + taskCounts rescue)
      rw [hinner] at hbody hrescue halways
      rw [thinAll, thin, List.singleton_append, leavesOf, leaves]
      simp only [taskCount, ← renumber_add_taskCounts, ← Nat.add_assoc, hbody, hrescue, halways,
        hrest, leavesOf, leaves, kept_append, List.map_append, List.length_append, length_leavesOf]

end TaskNode

namespace Play

variable {play : Play} {keep : Nat → Bool}

theorem nodes_thin (s : Section) :
    (play.thin keep).nodes s = TaskNode.thinAll keep (play.tasksBefore s) (play.nodes s) := by
  cases s <;> rfl

theorem tasksBefore_thin (s : Section) :
    (play.thin keep).tasksBefore s = renumber keep (play.tasksBefore s) := by
  have hpre : TaskNode.taskCounts (play.thin keep).preTasks
      = renumber keep (TaskNode.taskCounts play.preTasks) := by
    have hcount := @TaskNode.renumber_add_taskCounts keep 0 play.preTasks
    rw [Nat.zero_add, renumber_zero, Nat.zero_add] at hcount
    exact hcount.symm
  have htasks : TaskNode.taskCounts (play.thin keep).preTasks
        + TaskNode.taskCounts (play.thin keep).tasks
      = renumber keep (TaskNode.taskCounts play.preTasks + TaskNode.taskCounts play.tasks) := by
    rw [TaskNode.renumber_add_taskCounts, hpre]
    rfl
  cases s with
  | preTasks => rfl
  | tasks => exact hpre
  | postTasks => exact htasks
  | handlers =>
      rw [tasksBefore, tasksBefore, TaskNode.renumber_add_taskCounts, htasks]
      rfl

/-- The tasks of what is left of a play are the kept ones. -/
theorem leaves_thin :
    (play.thin keep).leaves = (kept keep 0 play.leaves).map (Leaf.renumber keep) := by
  have hsection : ∀ s, TaskNode.leavesOf s play.declared [] ((play.thin keep).tasksBefore s)
        ((play.thin keep).nodes s)
      = (kept keep (play.tasksBefore s) (TaskNode.leavesOf s play.declared [] (play.tasksBefore s)
          (play.nodes s))).map (Leaf.renumber keep) := by
    intro s
    rw [tasksBefore_thin, nodes_thin]
    exact @TaskNode.leavesOf_thinAll s play.declared [] keep (play.tasksBefore s) (play.nodes s)
  have hdeclared : (play.thin keep).declared = play.declared := rfl
  rw [leaves_eq_append, leaves_eq_append, hdeclared]
  simp only [hsection, kept_append, List.map_append, List.length_append, TaskNode.length_leavesOf,
    Nat.zero_add]
  rfl

end Play
end TaskTags
