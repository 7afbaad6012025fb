import TaskTags.Playbook.Collect
import TaskTags.Proofs.Playbook.Preserved
import TaskTags.Proofs.Tag.Collector

/-!
# The listing and the selection of tags

The tags that a listing attributes to tasks are those that a selection without templates reports
when tags are inherited.
-/

namespace TaskTags

/-- The tags of a task as they are declared, with those around it. -/
def Leaf.declaredTags (leaf : Leaf) : TagSet :=
  (TagEntry.flatten leaf.declared.tags).union leaf.tagsAround

def Leaf.record (leaf : Leaf) : String × TagSet :=
  (leaf.declared.name, leaf.declaredTags)

section Listing

open TagCollector (Adds)

theorem TagCollector.adds_foldl {α : Type} {tasks : α → List (String × TagSet)}
    {step : TagCollector → α → TagCollector} {xs : List α}
    (h : ∀ x ∈ xs, ∀ c, Adds (tasks x) c (step c x)) (c : TagCollector) :
    Adds (xs.flatMap tasks) c (xs.foldl step c) := by
  induction xs generalizing c with
  | nil => exact .refl c
  | cons x xs ih =>
      exact (h x List.mem_cons_self c).trans
        (ih (fun x' hx' => h x' (List.mem_cons_of_mem x hx')) (step c x))

/-- The listing passes the tags around a place down to it. -/
theorem TaskNode.adds_collectAll (s : Section) (play : Declared) (blocks : List Enclosure) (n : Nat)
    (c : TagCollector) (nodes : List TaskNode) :
    Adds ((leavesOf s play blocks n nodes).map Leaf.record) c (collectAll c
      (TagEntry.flatten ((⟨play, 0⟩ :: blocks).flatMap (·.declared.tags))) nodes) := by
  induction nodes using TaskNode.listInduction generalizing blocks n c with
  | nil => exact .refl c
  | task d action rest ih =>
      rw [leavesOf, List.map_append, collectAll]
      exact (TagCollector.adds_addAll c _ d.name).trans (ih _ _ _)
  | block d body rescue always rest hbody hrescue halways hrest =>
      -- Inside the block the tags around a place are those of the block with those around it.
      have hinner : (TagEntry.flatten d.tags).union
          (TagEntry.flatten ((⟨play, 0⟩ :: blocks).flatMap (·.declared.tags)))
          = TagEntry.flatten
              ((⟨play, 0⟩ :: (blocks ++ [⟨d, n⟩])).flatMap (·.declared.tags)) := by
        rw [← List.cons_append, List.flatMap_append, TagEntry.flatten_append]
        refine TagSet.ext fun tag => ?_
        simp only [TagSet.mem_union, List.flatMap_singleton]
        exact or_comm
      rw [leavesOf, leaves, collectAll, collect, hinner]
      simp only [List.map_append]
      refine Adds.trans ?_ (hrest _ _ _)
      refine Adds.trans (Adds.trans ?_ (hrescue _ _ _)) (halways _ _ _)
      exact (TagCollector.adds_addAll_none c _).trans (hbody _ _ _)

theorem Play.adds_sections (play : Play) (c : TagCollector) :
    Adds (play.leaves.map Leaf.record) c (Section.all.foldl (fun c s =>
      TaskNode.collectAll c (TagEntry.flatten play.declared.tags) (play.nodes s)) c) := by
  rw [leaves, List.map_flatMap]
  refine TagCollector.adds_foldl (fun s _ c => ?_) c
  have hnodes := TaskNode.adds_collectAll s play.declared [] (play.tasksBefore s) c (play.nodes s)
  rwa [List.flatMap_singleton] at hnodes

theorem Play.adds_collect (play : Play) (c : TagCollector) :
    Adds (play.leaves.map Leaf.record) c (play.collect c) :=
  (TagCollector.adds_addAll_none c _).trans (play.adds_sections _)

theorem Play.mem_tags_collect (play : Play) (c : TagCollector) {tag : Tag}
    (h : tag ∈ TagEntry.flatten play.declared.tags) : tag ∈ (play.collect c).tags :=
  (play.adds_sections _).tags tag (.inl (TagCollector.mem_tags_addAll.mpr (.inr h)))

theorem Playbook.adds_collect (playbook : Playbook) :
    Adds ((playbook.flatMap Play.leaves).map Leaf.record) .empty playbook.collect := by
  rw [List.map_flatMap]
  exact TagCollector.adds_foldl (fun play _ c => play.adds_collect c) _

/-- The tags of plays are listed, with or without a task. -/
theorem Playbook.mem_tags_collect {playbook : Playbook} {play : Play} (hplay : play ∈ playbook)
    {tag : Tag} (h : tag ∈ TagEntry.flatten play.declared.tags) : tag ∈ playbook.collect.tags := by
  obtain ⟨before, after, rfl⟩ := List.append_of_mem hplay
  rw [collect, List.foldl_append, List.foldl_cons]
  exact (TagCollector.adds_foldl (fun play _ c => play.adds_collect c) _).tags tag
    (.inl (play.mem_tags_collect _ h))

end Listing

section Selection

variable {rules : SelectionRules}

/-- A play with its tasks decided on the tags that are declared at them and around them. -/
def Play.declaredSelection (filter : TagFilter) (play : Play) : PlaySelection :=
  ⟨play.declared.name, TagEntry.flatten play.declared.tags,
    play.leaves.map fun leaf => leaf.toSelection filter leaf.declaredTags⟩

/-- Where all declarations keep their tags, these are what tasks are decided on. -/
theorem Play.select_declared {P : List TagEntry → Prop} (hpreserves : rules.Preserves P)
    (hinherit : rules.inherit = true) {play : Play} (hplay : P play.declared.tags)
    (hblocks : ∀ leaf ∈ play.leaves, ∀ e ∈ leaf.blocks, P e.declared.tags)
    (hleaves : ∀ leaf ∈ play.leaves, P leaf.declared.tags) :
    play.select rules = .ok (play.declaredSelection rules.filter) := by
  have hleaf : ∀ leaf ∈ play.leaves,
      (((leaf.settle rules leaf.declared.tags).map TagEntry.flatten).map fun own =>
        leaf.toSelection rules.filter (if rules.inherit then own.union leaf.tagsAround else own))
      = pure (leaf.toSelection rules.filter leaf.declaredTags) := by
    intro leaf hmem
    obtain ⟨settled, hsettle, -, hflatten⟩ := hpreserves leaf leaf.declared.tags (hleaves leaf hmem)
    rw [hsettle, Except.ok_map, Except.ok_map, hflatten, if_pos hinherit]
    rfl
  rw [select_of_preserves hpreserves hplay hblocks, Except.mapM_congr hleaf, List.mapM_pure]
  rfl

/-- Without templates a task is decided on the tags that are declared at it and around it. -/
theorem Play.select_off (hoff : rules.templater = Templater.off) (hinherit : rules.inherit = true)
    (play : Play) : play.select rules = .ok (play.declaredSelection rules.filter) :=
  select_declared (SelectionRules.preserves_off hoff) hinherit trivial (fun _ _ _ _ => trivial)
    fun _ _ => trivial

theorem Playbook.select_declared {playbook : Playbook}
    (h : ∀ play ∈ playbook, play.select rules = .ok (play.declaredSelection rules.filter)) :
    playbook.select rules = .ok (playbook.map (Play.declaredSelection rules.filter)) := by
  rw [select, Except.mapM_congr h]
  exact List.mapM_pure

theorem Playbook.select_off (hoff : rules.templater = Templater.off)
    (hinherit : rules.inherit = true) (playbook : Playbook) :
    playbook.select rules = .ok (playbook.map fun play =>
      ⟨play.declared.name, TagEntry.flatten play.declared.tags,
        play.leaves.map fun leaf => leaf.toSelection rules.filter leaf.declaredTags⟩) :=
  select_declared fun play _ => play.select_off hoff hinherit

end Selection

namespace Playbook

/-- The tasks that are listed for a tag are those that report it, in order and as often as they are
in the playbook; every tag that a task or a play reports is listed. -/
theorem collect_agrees_with_select (filter : TagFilter) (extraVars : Bindings)
    (playbook : Playbook) :
    ∃ plays, playbook.select ⟨filter, Templater.off, extraVars, true⟩ = .ok plays ∧
      ∀ tag,
        (playbook.collect.tasksOf? tag).getD []
            = ((plays.flatMap (·.tasks)).filter fun t => tag ∈ t.tags).map (·.name) ∧
        (playbook.collect.tasksOf? tag = none ↔ ∀ t ∈ plays.flatMap (·.tasks), tag ∉ t.tags) ∧
        ((∃ p ∈ plays, tag ∈ p.tags ∨ ∃ t ∈ p.tasks, tag ∈ t.tags) →
          tag ∈ playbook.collect.tags) := by
  refine ⟨_, select_off rfl rfl playbook, fun tag => ?_⟩
  have htasks : (playbook.map fun play => PlaySelection.mk play.declared.name
        (TagEntry.flatten play.declared.tags)
        (play.leaves.map fun leaf => leaf.toSelection filter leaf.declaredTags)).flatMap (·.tasks)
      = (playbook.flatMap Play.leaves).map fun leaf =>
          leaf.toSelection filter leaf.declaredTags := by
    rw [List.flatMap_map, List.map_flatMap]
  have hadds := playbook.adds_collect
  have hnames : playbook.collect.namesOf tag
      = TagCollector.withTag tag ((playbook.flatMap Play.leaves).map Leaf.record) :=
    hadds.namesOf TagCollector.Table.nil tag
  rw [htasks]
  refine ⟨?_, ?_, ?_⟩
  · show playbook.collect.namesOf tag = _
    rw [hnames, TagCollector.withTag, List.filter_map, List.filter_map, List.map_map, List.map_map]
    rfl
  · rw [TagCollector.tasksOf?_eq_none_iff (hadds.table TagCollector.Table.nil), hnames,
      TagCollector.withTag, List.map_eq_nil_iff, List.filter_eq_nil_iff, List.forall_mem_map,
      List.forall_mem_map]
    simp only [decide_eq_true_eq]
    exact Iff.rfl
  · rintro ⟨p, hp, htag⟩
    obtain ⟨play, hplay, rfl⟩ := List.mem_map.mp hp
    rcases htag with htag | ⟨t, ht, htag⟩
    · exact mem_tags_collect hplay htag
    · obtain ⟨leaf, hleaf, rfl⟩ := List.mem_map.mp ht
      have hmem : leaf ∈ playbook.flatMap Play.leaves := List.mem_flatMap.mpr ⟨play, hplay, hleaf⟩
      exact hadds.tags tag (.inr ⟨leaf.record, List.mem_map_of_mem hmem, htag⟩)

end Playbook
end TaskTags
