import TaskTags.Proofs.Playbook.Preserved

/-!
# Selection path by path

As long as only tasks have templates in their tags, no task sees what others have made of the
declarations around it: a selection decides every task by its path alone.
-/

namespace TaskTags

/-- The declarations of a play and of the blocks in it are plain. Those of tasks need not be, and a
block without tasks does not matter. -/
def Play.Plain (play : Play) : Prop :=
  TagEntry.Plain play.declared.tags ∧
    ∀ leaf ∈ play.leaves, ∀ e ∈ leaf.blocks, TagEntry.Plain e.declared.tags

instance (play : Play) : Decidable play.Plain :=
  inferInstanceAs (Decidable (_ ∧ ∀ leaf ∈ play.leaves, ∀ e ∈ leaf.blocks,
    TagEntry.Plain e.declared.tags))

section Reference

variable (filter : TagFilter) (extraVars : Bindings) (inherit : Bool)

/-- The entries that a task makes of its own declaration. -/
def Leaf.ownEntries (leaf : Leaf) : Except Error (List TagEntry) :=
  Templater.on (leaf.context extraVars) leaf.declared.tags

/-- What is selected of a task by its path: its own tags count, and with them those around it when
they are inherited. -/
def Leaf.selectByPath (leaf : Leaf) : Except Error TaskSelection := do
  let own := TagEntry.flatten (← leaf.ownEntries extraVars)
  return leaf.toSelection filter (if inherit then own.union leaf.tagsAround else own)

def Play.selectByPath (play : Play) : Except Error PlaySelection := do
  let tasks ← play.leaves.mapM (Leaf.selectByPath filter extraVars inherit)
  return ⟨play.declared.name, TagEntry.flatten play.declared.tags, tasks⟩

end Reference

variable {rules : SelectionRules} {filter : TagFilter} {extraVars : Bindings} {inherit : Bool}
  {leaf : Leaf}

namespace Leaf

/-- Whether it is resolved or has nothing to resolve, the declaration of a task comes to the tags
that its templates stand for. -/
theorem settle_own (hon : rules.templater = Templater.on) :
    (leaf.settle rules leaf.declared.tags).map TagEntry.flatten
      = (leaf.ownEntries rules.extraVars).map TagEntry.flatten := by
  by_cases htags : leaf.declared.tags = []
  · have hempty : leaf.settle rules [] = .ok [] := by
      by_cases hresolves : leaf.resolves rules.inherit = true
      · rw [settle_of_resolves hresolves, TagEntry.settle_nil]
      · rw [settle_of_not_resolves hresolves]
    rw [ownEntries, htags, hempty]
    rfl
  · have hresolves : leaf.resolves rules.inherit = true := by
      rw [resolves]
      simp [htags]
    rw [settle_of_resolves hresolves, TagEntry.settle_of_ne_nil htags, hon, ownEntries]
    cases Templater.on (leaf.context rules.extraVars) leaf.declared.tags with
    | error e => rfl
    | ok own => simp

end Leaf

theorem Play.select_eq_selectByPath (hon : rules.templater = Templater.on) {play : Play}
    (h : play.Plain) :
    play.select rules = play.selectByPath rules.filter rules.extraVars rules.inherit := by
  have hleaf : (fun leaf : Leaf =>
      ((leaf.settle rules leaf.declared.tags).map TagEntry.flatten).map fun own =>
        leaf.toSelection rules.filter (if rules.inherit then own.union leaf.tagsAround else own))
      = Leaf.selectByPath rules.filter rules.extraVars rules.inherit := by
    funext leaf
    rw [leaf.settle_own hon, Leaf.selectByPath]
    cases leaf.ownEntries rules.extraVars <;> rfl
  rw [select_of_preserves (SelectionRules.preserves_plain hon) h.1 h.2, hleaf, selectByPath]

theorem Leaf.selectByPath_eq_error_iff {e : Error} :
    leaf.selectByPath filter extraVars inherit = .error e ↔
      leaf.ownEntries extraVars = .error e := by
  rw [selectByPath]
  cases leaf.ownEntries extraVars <;> simp [pure, Except.pure]

theorem Leaf.selectByPath_eq_ok_iff :
    (∃ t, leaf.selectByPath filter extraVars inherit = .ok t) ↔
      ∃ own, leaf.ownEntries extraVars = .ok own := by
  rw [selectByPath]
  cases leaf.ownEntries extraVars <;> simp [pure, Except.pure]

theorem Play.selectByPath_eq_error_iff (play : Play) (e : Error) :
    play.selectByPath filter extraVars inherit = .error e ↔
      play.leaves.mapM (Leaf.selectByPath filter extraVars inherit) = .error e := by
  rw [selectByPath]
  cases play.leaves.mapM (Leaf.selectByPath filter extraVars inherit) <;> simp [pure, Except.pure]

/-- A selection of a playbook whose plays and blocks are plain decides all tasks path by path. It
fails exactly if the templates of a task do, with the error of the first such task. -/
theorem Playbook.select_path_by_path {playbook : Playbook} (h : ∀ play ∈ playbook, play.Plain) :
    playbook.select ⟨filter, Templater.on, extraVars, inherit⟩
        = playbook.mapM (Play.selectByPath filter extraVars inherit) ∧
      ∀ e, playbook.select ⟨filter, Templater.on, extraVars, inherit⟩ = .error e ↔
        ∃ before leaf after, playbook.flatMap Play.leaves = before ++ leaf :: after ∧
          leaf.ownEntries extraVars = .error e ∧
          ∀ leaf' ∈ before, ∃ own, leaf'.ownEntries extraVars = .ok own := by
  have hselect : playbook.select ⟨filter, Templater.on, extraVars, inherit⟩
      = playbook.mapM (Play.selectByPath filter extraVars inherit) :=
    Except.mapM_congr fun play hplay => Play.select_eq_selectByPath rfl (h play hplay)
  refine ⟨hselect, fun e => ?_⟩
  rw [hselect, Except.mapM_eq_error_iff_flatMap Play.selectByPath_eq_error_iff,
    Except.mapM_eq_error_iff]
  simp only [Leaf.selectByPath_eq_error_iff, Leaf.selectByPath_eq_ok_iff]

/-- Plays with plain declarations around tasks with a template. A block has another value of the
variable than its play, and a task another one than its own play. -/
def Playbook.templatedTasks : Playbook :=
  [{ declared := ⟨"site", [.single (.str "web")], [("zone", .str "a")]⟩
     hosts := none
     preTasks := []
     tasks := [.block ⟨"group", [.list [.str "db", .int 7]], [("zone", .str "b")]⟩
       [.task ⟨"install", [.single (.str "{{ zone }}")], []⟩ none] [] []]
     postTasks := []
     handlers := [] },
   { declared := ⟨"rest", [.single (.str "web")], [("zone", .str "a")]⟩
     hosts := none
     preTasks := []
     tasks := [.task ⟨"restart", [.single (.str "{{ zone }}")], [("zone", .str "c")]⟩ none]
     postTasks := []
     handlers := [] }]

theorem Playbook.select_path_by_path_templatedTasks :
    (∀ play ∈ templatedTasks, play.Plain) ∧
      ((templatedTasks.select ⟨.empty, Templater.on, [], true⟩).toOption.map
          (List.map fun p => p.tasks.map (·.tags))
        = some [[TagSet.ofList [.int 7, .str "b", .str "db", .str "web"]],
            [TagSet.ofList [.str "c", .str "web"]]]) := by
  have hplain : ∀ play ∈ templatedTasks, play.Plain := by decide +kernel
  refine ⟨hplain, ?_⟩
  rw [(select_path_by_path hplain).1]
  decide +kernel

end TaskTags
