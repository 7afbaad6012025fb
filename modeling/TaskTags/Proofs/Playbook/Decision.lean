import TaskTags.Proofs.Playbook.Walk

/-!
# The filter only decides

A filter has no part in how tags are resolved: under another filter a selection fails with the same
error, or gives the same tasks with other decisions on them.
-/

namespace TaskTags

/-- A task with the decision of a filter on it. Handlers are always selected. -/
def TaskSelection.redecide (filter : TagFilter) (t : TaskSelection) : TaskSelection :=
  { t with selected := t.section = .handlers || filter.runs t.tags }

def PlaySelection.redecide (filter : TagFilter) (p : PlaySelection) : PlaySelection :=
  { p with tasks := p.tasks.map (TaskSelection.redecide filter) }

variable {rules : SelectionRules} {filter : TagFilter}

namespace Leaf

/-- The entries that a task is decided on do not depend on the filter. -/
theorem outcome_redecide (earlier : List Leaf) (leaf : Leaf) :
    leaf.outcome { rules with filter } earlier
      = (leaf.outcome rules earlier).map (TaskSelection.redecide filter) := by
  have hsettle : Leaf.settle { rules with filter } leaf = Leaf.settle rules leaf := rfl
  have houter : leaf.outerTags { rules with filter } earlier = leaf.outerTags rules earlier := rfl
  rw [outcome, outcome, hsettle, houter]
  cases leaf.settle rules leaf.declared.tags with
  | error e => rfl
  | ok own => cases leaf.outerTags rules earlier <;> rfl

theorem outcomes_redecide (earlier leaves : List Leaf) :
    outcomes { rules with filter } earlier leaves
      = (outcomes rules earlier leaves).map (List.map (TaskSelection.redecide filter)) := by
  induction leaves generalizing earlier with
  | nil => rfl
  | cons leaf rest ih =>
      rw [outcomes, outcomes, outcome_redecide, ih]
      cases leaf.outcome rules earlier with
      | error e => rfl
      | ok t => cases outcomes rules (earlier ++ [leaf]) rest <;> rfl

end Leaf

theorem Play.select_redecide (play : Play) :
    play.select { rules with filter }
      = (play.select rules).map (PlaySelection.redecide filter) := by
  have hafter : ∀ e : Enclosure, e.entriesAfter { rules with filter } play.leaves
      = e.entriesAfter rules play.leaves := fun _ => rfl
  rw [select_eq, select_eq, Leaf.outcomes_redecide, hafter]
  cases Leaf.outcomes rules [] play.leaves with
  | error e => rfl
  | ok tasks => cases Enclosure.entriesAfter rules play.leaves ⟨play.declared, 0⟩ <;> rfl

namespace Playbook

theorem select_redecide (rules : SelectionRules) (filter : TagFilter) (playbook : Playbook) :
    playbook.select { rules with filter }
      = (playbook.select rules).map (List.map (PlaySelection.redecide filter)) := by
  rw [select, select, ← Except.mapM_map]
  exact congrArg (fun f => playbook.mapM f) (funext fun play => play.select_redecide)

/-- Every decision of a selection is the one of its own filter on the tags that it reports. -/
theorem redecide_of_select {playbook : Playbook} {plays : List PlaySelection}
    (h : playbook.select rules = .ok plays) :
    ∀ p ∈ plays, ∀ t ∈ p.tasks, t.redecide rules.filter = t := by
  have hplays : plays.map (PlaySelection.redecide rules.filter) = plays.map id := by
    have hself := select_redecide rules rules.filter playbook
    rw [h, Except.ok_map] at hself
    rw [List.map_id]
    exact (Except.ok.inj hself).symm
  intro p hp
  have htasks : p.tasks.map (TaskSelection.redecide rules.filter) = p.tasks.map id := by
    rw [List.map_id]
    exact congrArg PlaySelection.tasks (List.map_inj_left.mp hplays p hp)
  exact List.map_inj_left.mp htasks

/-- A selection under another filter fails with the same error, or differs in its decisions alone.
A task is selected if it is a handler or if the filter lets the tags run that it reports. -/
theorem select_filter_independent (rules : SelectionRules) (filter : TagFilter)
    (playbook : Playbook) :
    (∃ e, playbook.select rules = .error e ∧ playbook.select { rules with filter } = .error e) ∨
    ∃ plays, playbook.select rules = .ok plays ∧
      playbook.select { rules with filter } = .ok (plays.map (PlaySelection.redecide filter)) ∧
      ∀ p ∈ plays, ∀ t ∈ p.tasks,
        t.selected = (t.section = .handlers || rules.filter.runs t.tags) := by
  cases h : playbook.select rules with
  | error e => exact .inl ⟨e, rfl, by rw [select_redecide, h, Except.error_map]⟩
  | ok plays =>
      refine .inr ⟨plays, rfl, by rw [select_redecide, h, Except.ok_map], fun p hp t ht => ?_⟩
      have hself := redecide_of_select h p hp t ht
      exact (congrArg TaskSelection.selected hself).symm

end Playbook
end TaskTags
