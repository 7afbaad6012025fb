import TaskTags.Proofs.Playbook.Collect
import TaskTags.Proofs.Playbook.PathSelection
import TaskTags.Proofs.Tag.Filter

/-!
# Requests of listed tags

A listed tag is requested by its text. All of its tasks are selected so if the text is read as the
tag. Of other tags, integers and items with a comma or with blanks at their ends, they need not be.
-/

namespace TaskTags

namespace Playbook

/-- No declaration has a template mark. -/
def Plain (playbook : Playbook) : Prop :=
  ∀ play ∈ playbook, play.Plain ∧ ∀ leaf ∈ play.leaves, TagEntry.Plain leaf.declared.tags

instance decidablePlain (playbook : Playbook) : Decidable playbook.Plain :=
  inferInstanceAs (Decidable (∀ play ∈ playbook, _ ∧ _))

variable {playbook : Playbook} {filter : TagFilter} {extraVars : Bindings} {tag : Tag}

theorem select_of_plain (h : playbook.Plain) :
    playbook.select ⟨filter, Templater.on, extraVars, true⟩
      = .ok (playbook.map (Play.declaredSelection filter)) := by
  apply select_declared
  intro play hplay
  obtain ⟨⟨hdeclared, hblocks⟩, hleaves⟩ := h play hplay
  exact Play.select_declared (SelectionRules.preserves_plain rfl) rfl hdeclared hblocks hleaves

theorem tasks_declaredSelection (filter : TagFilter) (playbook : Playbook) :
    (playbook.map (Play.declaredSelection filter)).flatMap (·.tasks)
      = (playbook.flatMap Play.leaves).map fun leaf => leaf.toSelection filter leaf.declaredTags := by
  rw [List.flatMap_map, List.map_flatMap]
  rfl

/-- The tasks that are listed for a tag are those that have it declared. -/
theorem tasksOf?_collect (filter : TagFilter) (playbook : Playbook) (tag : Tag) :
    (playbook.collect.tasksOf? tag).getD []
      = (((playbook.map (Play.declaredSelection filter)).flatMap (·.tasks)).filter
          fun t => tag ∈ t.tags).map (·.name) := by
  have hnames : playbook.collect.namesOf tag
      = TagCollector.withTag tag ((playbook.flatMap Play.leaves).map Leaf.record) :=
    playbook.adds_collect.namesOf TagCollector.Table.nil tag
  show playbook.collect.namesOf tag = _
  rw [hnames, tasks_declaredSelection, TagCollector.withTag, List.filter_map, List.filter_map,
    List.map_map, List.map_map]
  rfl

/-- A play of one task with given tags. -/
def singleTask (tags : TagSet) : Play :=
  ⟨⟨"site", [], []⟩, none, [], [.task ⟨"install", TagEntry.ofSet tags, []⟩ none], [], []⟩

theorem leaves_singleTask (tags : TagSet) : (singleTask tags).leaves
    = [⟨.tasks, ⟨"site", [], []⟩, [], ⟨"install", TagEntry.ofSet tags, []⟩, none⟩] := rfl

theorem plain_singleTask {tags : TagSet} (h : ∀ tag ∈ tags, tag.Plain) :
    Plain [singleTask tags] := by
  intro play hplay
  obtain rfl := List.mem_singleton.mp hplay
  rw [Play.Plain, leaves_singleTask]
  refine ⟨⟨nofun, fun leaf hleaf => ?_⟩, fun leaf hleaf => ?_⟩
  · obtain rfl := List.mem_singleton.mp hleaf
    exact nofun
  · obtain rfl := List.mem_singleton.mp hleaf
    intro tag htag
    rw [TagEntry.allTags_ofSet] at htag
    exact h tag htag

theorem tasks_singleTask (filter : TagFilter) (tags : TagSet) :
    ([singleTask tags].map (Play.declaredSelection filter)).flatMap (·.tasks)
      = [⟨"install", none, .tasks, [], tags, filter.runs tags⟩] := by
  have hdeclared : Leaf.declaredTags
      ⟨.tasks, ⟨"site", [], []⟩, [], ⟨"install", TagEntry.ofSet tags, []⟩, none⟩ = tags :=
    TagEntry.flatten_ofSet tags
  rw [tasks_declaredSelection, List.flatMap_singleton, leaves_singleTask, List.map_singleton,
    hdeclared]
  rfl

/-- The tasks that are listed for a tag are those that report it under the request of its text. All
of them are selected if the tag is requestable. For any other tag there is a playbook with a task
that has the tag and is not selected. -/
theorem listed_tag_selected_iff (tag : Tag) :
    (∀ (playbook : Playbook) (extraVars : Bindings), playbook.Plain → ∃ plays,
        playbook.select ⟨tag.request, Templater.on, extraVars, true⟩ = .ok plays ∧
        (playbook.collect.tasksOf? tag).getD []
          = ((plays.flatMap (·.tasks)).filter fun t => tag ∈ t.tags).map (·.name) ∧
        (tag.Requestable → ∀ t ∈ plays.flatMap (·.tasks), tag ∈ t.tags → t.selected = true)) ∧
      (tag.Plain → ¬ tag.Requestable → ∃ (playbook : Playbook) (plays : List PlaySelection),
        playbook.Plain ∧ playbook.select ⟨tag.request, Templater.on, [], true⟩ = .ok plays ∧
        (playbook.collect.tasksOf? tag).getD [] = ["install"] ∧
        ∀ t ∈ plays.flatMap (·.tasks), t.selected = false) := by
  constructor
  · intro playbook extraVars hplain
    refine ⟨_, select_of_plain hplain, tasksOf?_collect _ playbook tag, ?_⟩
    intro hrequest t ht hmem
    rw [tasks_declaredSelection] at ht
    obtain ⟨leaf, -, rfl⟩ := List.mem_map.mp ht
    have hruns : tag.request.runs leaf.declaredTags = true := Tag.runs_request hrequest hmem
    show (leaf.section = .handlers || tag.request.runs leaf.declaredTags) = true
    rw [hruns, Bool.or_true]
  · intro hplain hrequest
    obtain ⟨own, hmem, honly, hruns⟩ := Tag.exists_not_runs_request hrequest
    have hown : ∀ other ∈ own, other.Plain := by
      intro other hother
      obtain rfl | rfl := honly other hother
      · exact hplain
      · decide
    refine ⟨[singleTask own], _, plain_singleTask hown, select_of_plain (plain_singleTask hown), ?_, ?_⟩
    · rw [tasksOf?_collect tag.request, tasks_singleTask]
      simp [hmem]
    · rw [tasks_singleTask]
      intro t ht
      obtain rfl := List.mem_singleton.mp ht
      exact hruns

theorem listed_tag_selected_iff_web :
    ∃ plays,
      Playbook.select ⟨Tag.request (.str "web"), Templater.on, [], true⟩
        [singleTask (TagSet.ofList [.str "web", .int 7])] = .ok plays ∧
      ["install"] = ((plays.flatMap (·.tasks)).filter fun t => Tag.str "web" ∈ t.tags).map (·.name) ∧
      ∀ t ∈ plays.flatMap (·.tasks), Tag.str "web" ∈ t.tags → t.selected = true := by
  have hplain : Plain [singleTask (TagSet.ofList [.str "web", .int 7])] := by decide +kernel
  have hlisted : (Playbook.collect [singleTask (TagSet.ofList [.str "web", .int 7])]).tasksOf?
      (.str "web") = some ["install"] := by
    decide +kernel
  have hrequest : (Tag.str "web").Requestable := .inr (.inl (by decide))
  obtain ⟨plays, hselect, hnames, hselected⟩ :=
    (listed_tag_selected_iff (.str "web")).1 _ [] hplain
  rw [hlisted] at hnames
  exact ⟨plays, hselect, hnames, hselected hrequest⟩

/-- A task with an integer as its tag is listed for it, and the request of its text leaves the task
out. -/
theorem listed_tag_not_selected_seven :
    Plain [singleTask (TagSet.ofList [.int 7])] ∧
      (Playbook.collect [singleTask (TagSet.ofList [.int 7])]).tasksOf? (.int 7)
        = some ["install"] ∧
      ∃ plays,
        Playbook.select ⟨Tag.request (.int 7), Templater.on, [], true⟩
          [singleTask (TagSet.ofList [.int 7])] = .ok plays ∧
        ∀ t ∈ plays.flatMap (·.tasks), Tag.int 7 ∈ t.tags ∧ t.selected = false := by
  have hplain : Plain [singleTask (TagSet.ofList [.int 7])] := by decide +kernel
  refine ⟨hplain, by decide +kernel, _, select_of_plain hplain, ?_⟩
  rw [tasks_singleTask]
  intro t ht
  obtain rfl := List.mem_singleton.mp ht
  exact ⟨by decide, by decide +kernel⟩

end Playbook
end TaskTags
