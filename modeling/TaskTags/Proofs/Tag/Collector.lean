import Mathlib.Tactic.SplitIfs
import Mathlib.Tactic.Tauto
import TaskTags.Tag.Collector

/-!
# What a collector records

A collector keeps its tags apart and lists for each the tasks that were added with it, in order of
addition and as often as they were added.
-/

namespace TaskTags.TagCollector

def lookup (tag : Tag) (tasks : List (Tag × List String)) : Option (List String) :=
  (tasks.find? (·.1 == tag)).map (·.2)

/-- A table with one entry for each tag and a task in every entry. -/
structure Table (tasks : List (Tag × List String)) : Prop where
  increasing : tasks.Pairwise (·.1 < ·.1)
  nonempty : ∀ entry ∈ tasks, entry.2 ≠ []

section Table

variable {tag t : Tag} {name : String} {tasks : List (Tag × List String)}

theorem lookup_cons_self {names : List String} :
    lookup tag ((tag, names) :: tasks) = some names := by
  simp [lookup]

theorem lookup_cons_of_ne {names : List String} (h : t ≠ tag) :
    lookup tag ((t, names) :: tasks) = lookup tag tasks := by
  simp [lookup, h]

theorem lookup_eq_none_of_forall_ne (h : ∀ entry ∈ tasks, entry.1 ≠ tag) :
    lookup tag tasks = none := by
  rw [lookup, List.find?_eq_none.mpr (by simpa using h), Option.map_none]

theorem lookup_recordTask_of_ne (h : t ≠ tag) :
    lookup t (recordTask tag name tasks) = lookup t tasks := by
  induction tasks with
  | nil => exact lookup_cons_of_ne h.symm
  | cons entry rest ih =>
      obtain ⟨u, names⟩ := entry
      rw [recordTask]
      split_ifs with hlt heq
      · exact lookup_cons_of_ne h.symm
      · rw [lookup_cons_of_ne (heq ▸ h.symm), lookup_cons_of_ne (heq ▸ h.symm)]
      · by_cases hut : u = t
        · rw [hut, lookup_cons_self, lookup_cons_self]
        · rw [lookup_cons_of_ne hut, lookup_cons_of_ne hut, ih]

/-- A task comes behind those that are recorded already. -/
theorem lookup_recordTask_self (h : tasks.Pairwise (·.1 < ·.1)) :
    lookup tag (recordTask tag name tasks) = some ((lookup tag tasks).getD [] ++ [name]) := by
  induction tasks with
  | nil => exact lookup_cons_self
  | cons entry rest ih =>
      obtain ⟨u, names⟩ := entry
      obtain ⟨hu, hrest⟩ := List.pairwise_cons.mp h
      rw [recordTask]
      split_ifs with hlt heq
      · -- The tag is smaller than all in the table.
        have hnone : lookup tag ((u, names) :: rest) = none := by
          refine lookup_eq_none_of_forall_ne ?_
          rintro entry hentry rfl
          rcases List.mem_cons.mp hentry with rfl | hentry
          · exact Tag.lt_irrefl _ hlt
          · exact Tag.lt_irrefl _ (Tag.lt_trans hlt (hu entry hentry))
        rw [hnone, lookup_cons_self]
        rfl
      · rw [heq, lookup_cons_self, lookup_cons_self]
        rfl
      · rw [lookup_cons_of_ne (Ne.symm heq), lookup_cons_of_ne (Ne.symm heq), ih hrest]

theorem mem_recordTask {entry : Tag × List String} (h : entry ∈ recordTask tag name tasks) :
    entry ∈ tasks ∨ (entry.1 = tag ∧ entry.2 ≠ []) := by
  induction tasks with
  | nil =>
      rw [recordTask, List.mem_singleton] at h
      exact .inr (h ▸ ⟨rfl, by simp⟩)
  | cons head rest ih =>
      obtain ⟨u, names⟩ := head
      rw [recordTask] at h
      split_ifs at h with hlt heq
      · rcases List.mem_cons.mp h with rfl | h
        · exact .inr ⟨rfl, by simp⟩
        · exact .inl h
      · rcases List.mem_cons.mp h with rfl | h
        · exact .inr ⟨heq.symm, by simp⟩
        · exact .inl (List.mem_cons_of_mem _ h)
      · rcases List.mem_cons.mp h with rfl | h
        · exact .inl List.mem_cons_self
        · exact (ih h).imp_left (List.mem_cons_of_mem _)

theorem pairwise_recordTask (h : tasks.Pairwise (·.1 < ·.1)) :
    (recordTask tag name tasks).Pairwise (·.1 < ·.1) := by
  induction tasks with
  | nil => exact List.pairwise_singleton _ _
  | cons head rest ih =>
      obtain ⟨u, names⟩ := head
      obtain ⟨hu, hrest⟩ := List.pairwise_cons.mp h
      rw [recordTask]
      split_ifs with hlt heq
      · refine List.pairwise_cons.mpr ⟨fun entry hentry => ?_, h⟩
        rcases List.mem_cons.mp hentry with rfl | hentry
        · exact hlt
        · exact Tag.lt_trans hlt (hu entry hentry)
      · exact List.pairwise_cons.mpr ⟨hu, hrest⟩
      · refine List.pairwise_cons.mpr ⟨fun entry hentry => ?_, ih hrest⟩
        rcases mem_recordTask hentry with hentry | ⟨htag, -⟩
        · exact hu entry hentry
        · rw [htag]
          exact ((Tag.lt_trichotomy tag u).resolve_left hlt).resolve_left heq

theorem Table.nil : Table [] := ⟨.nil, nofun⟩

theorem Table.recordTask (h : Table tasks) : Table (recordTask tag name tasks) where
  increasing := pairwise_recordTask h.increasing
  nonempty := fun entry hentry => (mem_recordTask hentry).elim (h.nonempty entry) And.right

end Table

def namesOf (c : TagCollector) (tag : Tag) : List String :=
  (c.tasksOf? tag).getD []

theorem tasksOf?_eq_none_iff {c : TagCollector} (h : Table c.tasks) {tag : Tag} :
    c.tasksOf? tag = none ↔ c.namesOf tag = [] := by
  rw [namesOf]
  cases hnames : c.tasksOf? tag with
  | none => simp
  | some names =>
      obtain ⟨entry, hentry, rfl⟩ := Option.map_eq_some_iff.mp hnames
      simpa using h.nonempty entry (List.mem_of_find?_eq_some hentry)

def withTag (tag : Tag) (tasks : List (String × TagSet)) : List String :=
  (tasks.filter fun task => tag ∈ task.2).map (·.1)

theorem withTag_append (tag : Tag) (xs ys : List (String × TagSet)) :
    withTag tag (xs ++ ys) = withTag tag xs ++ withTag tag ys := by
  rw [withTag, List.filter_append, List.map_append, withTag, withTag]

/-- A collector has become another by the addition of some tasks, and perhaps of tags besides. -/
structure Adds (tasks : List (String × TagSet)) (c c' : TagCollector) : Prop where
  table : Table c.tasks → Table c'.tasks
  namesOf : Table c.tasks → ∀ tag, c'.namesOf tag = c.namesOf tag ++ withTag tag tasks
  tags : ∀ tag, tag ∈ c.tags ∨ (∃ task ∈ tasks, tag ∈ task.2) → tag ∈ c'.tags

variable {c c' c'' : TagCollector} {xs ys : List (String × TagSet)}

theorem Adds.refl (c : TagCollector) : Adds [] c c where
  table := id
  namesOf := fun _ _ => (List.append_nil _).symm
  tags := by simp

theorem Adds.trans (hxs : Adds xs c c') (hys : Adds ys c' c'') : Adds (xs ++ ys) c c'' where
  table := fun h => hys.table (hxs.table h)
  namesOf := fun h tag => by
    rw [hys.namesOf (hxs.table h), hxs.namesOf h, withTag_append, List.append_assoc]
  tags := by
    intro tag htag
    refine hys.tags tag ?_
    rcases htag with htag | ⟨task, htask, htag⟩
    · exact .inl (hxs.tags tag (.inl htag))
    · rcases List.mem_append.mp htask with htask | htask
      · exact .inl (hxs.tags tag (.inr ⟨task, htask, htag⟩))
      · exact .inr ⟨task, htask, htag⟩

theorem mem_tags_addAll {tags : TagSet} {task : Option String} {tag : Tag} :
    tag ∈ (c.addAll tags task).tags ↔ tag ∈ c.tags ∨ tag ∈ tags := by
  show tag ∈ (tags.toList.foldl _ c).tags ↔ tag ∈ c.tags ∨ tag ∈ tags.toList
  generalize tags.toList = ts
  induction ts generalizing c with
  | nil => simp
  | cons t ts ih =>
      have hadd : tag ∈ (c.add t task).tags ↔ tag = t ∨ tag ∈ c.tags := TagSet.mem_insert
      rw [List.foldl_cons, ih, hadd, List.mem_cons]
      tauto

theorem adds_addAll_none (c : TagCollector) (tags : TagSet) : Adds [] c (c.addAll tags none) := by
  have htasks : (c.addAll tags none).tasks = c.tasks := by
    rw [addAll]
    generalize tags.toList = ts
    induction ts generalizing c with
    | nil => rfl
    | cons t ts ih =>
        rw [List.foldl_cons, ih]
        rfl
  refine ⟨fun h => htasks ▸ h, fun _ tag => ?_, fun tag htag => ?_⟩
  · rw [namesOf, tasksOf?, htasks]
    exact (List.append_nil _).symm
  · exact mem_tags_addAll.mpr (.inl (htag.resolve_right (by simp)))

/-- The table after the tasks of a list of tags, each of them once, has one more name under each. -/
theorem lookup_foldl_add {name : String} {tags : List Tag} (hnodup : tags.Nodup)
    (h : Table c.tasks) :
    Table (tags.foldl (fun c tag => c.add tag (some name)) c).tasks ∧
      ∀ tag, lookup tag (tags.foldl (fun c tag => c.add tag (some name)) c).tasks
        = if tag ∈ tags then some ((lookup tag c.tasks).getD [] ++ [name])
          else lookup tag c.tasks := by
  induction tags generalizing c with
  | nil => exact ⟨h, fun tag => (if_neg List.not_mem_nil).symm⟩
  | cons t ts ih =>
      obtain ⟨ht, hts⟩ := List.nodup_cons.mp hnodup
      have hadded : Table (c.add t (some name)).tasks := h.recordTask
      obtain ⟨htable, hlookup⟩ := ih hts hadded
      refine ⟨htable, fun tag => ?_⟩
      rw [List.foldl_cons, hlookup, add]
      by_cases htag : tag = t
      · rw [htag, if_neg ht, if_pos List.mem_cons_self, lookup_recordTask_self h.increasing]
      · rw [lookup_recordTask_of_ne htag]
        simp only [List.mem_cons, htag, false_or]

/-- A task is recorded once under each of its tags. -/
theorem adds_addAll (c : TagCollector) (tags : TagSet) (name : String) :
    Adds [(name, tags)] c (c.addAll tags (some name)) := by
  have hnodup : tags.toList.Nodup := by
    refine tags.increasing.imp ?_
    rintro t _ hlt rfl
    exact Tag.lt_irrefl t hlt
  refine ⟨fun h => (lookup_foldl_add hnodup h).1, fun h tag => ?_, fun tag htag => ?_⟩
  · show (lookup tag (c.addAll tags (some name)).tasks).getD [] = (lookup tag c.tasks).getD [] ++ _
    rw [addAll, (lookup_foldl_add hnodup h).2 tag, withTag]
    by_cases htag : tag ∈ tags.toList
    · rw [if_pos htag]
      simp [TagSet.mem_def, htag]
    · rw [if_neg htag]
      simp [TagSet.mem_def, htag]
  · refine mem_tags_addAll.mpr (htag.imp id ?_)
    rintro ⟨task, htask, hmem⟩
    rwa [List.mem_singleton.mp htask] at hmem

end TaskTags.TagCollector
