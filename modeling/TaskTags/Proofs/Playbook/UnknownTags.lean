import TaskTags.Playbook.Listing
import TaskTags.Proofs.Playbook.Decision
import TaskTags.Proofs.Tag.Distribution

/-!
# Requests of unknown tags

A requested tag that no play and no task reports has no part in a selection: without it the same
tasks are selected, as long as another tag is requested. The special tags are the ones that include
units which do not have them, and they are never unknown.
-/

namespace TaskTags

def TagSet.without (s : TagSet) (tags : List Tag) : TagSet :=
  ofList (s.toList.filter (· ∉ tags))

theorem TagSet.mem_without {s : TagSet} {tags : List Tag} {tag : Tag} :
    tag ∈ s.without tags ↔ tag ∈ s ∧ tag ∉ tags := by
  rw [without, mem_ofList, List.mem_filter, decide_eq_true_eq, mem_def]

def TagFilter.withoutRequests (filter : TagFilter) (tags : List Tag) : TagFilter :=
  { filter with only := filter.only.without tags }

/-- Whether a tag is one of a play or of one of its tasks, as they are reported. -/
def PlaySelection.Carries (p : PlaySelection) (tag : Tag) : Prop :=
  tag ∈ p.tags ∨ ∃ t ∈ p.tasks, tag ∈ t.tags

theorem mem_unknownTags_iff {only : TagSet} {plays : List PlaySelection} {tag : Tag} :
    tag ∈ unknownTags only plays ↔
      tag ∈ only ∧ tag.isSpecial = false ∧ ∀ p ∈ plays, ¬ p.Carries tag := by
  have hcarries : (plays.any fun p => tag ∈ p.tags || p.tasks.any fun t => tag ∈ t.tags) = false ↔
      ∀ p ∈ plays, ¬ p.Carries tag := by
    simp only [List.any_eq_false, Bool.or_eq_true, decide_eq_true_eq, List.any_eq_true,
      PlaySelection.Carries]
  rw [unknownTags, List.mem_filter, Bool.and_eq_true, Bool.not_eq_true', Bool.not_eq_true',
    hcarries, TagSet.mem_def]

namespace TagFilter

variable {only tags own : TagSet} {filter : TagFilter} {unknown : List Tag} {tag : Tag}

/-- A tag that is not special covers no units but those that have it or are `always` to run. -/
theorem always_mem_or_mem_of_covers (hspecial : tag.isSpecial = false) (h : Covers tag tags) :
    Tag.always ∈ tags ∨ tag ∈ tags := by
  obtain halways | hmem | ⟨-, rfl | ⟨rfl, -⟩⟩ := h
  · exact .inl halways
  · exact .inr hmem
  · exact absurd hspecial (by decide)
  · exact absurd hspecial (by decide)

/-- Requests of tags that are not special and that a unit does not have can be left out. -/
theorem includes_without (hunknown : ∀ tag ∈ unknown, tag.isSpecial = false ∧ tag ∉ tags)
    (hrest : only.without unknown ≠ ∅) :
    includes (only.without unknown) tags = includes only tags := by
  rw [Bool.eq_iff_iff, includes_iff_covers, includes_iff_covers]
  obtain ⟨other, hother⟩ := TagSet.exists_mem_of_ne_empty hrest
  have hrequested : other ∈ only := (TagSet.mem_without.mp hother).1
  constructor
  · rintro (hempty | ⟨tag, hmem, hcovers⟩)
    · exact absurd hempty hrest
    · exact .inr ⟨tag, (TagSet.mem_without.mp hmem).1, hcovers⟩
  · rintro (rfl | ⟨tag, hmem, hcovers⟩)
    · exact absurd hrequested TagSet.not_mem_empty
    · by_cases hleft : tag ∈ unknown
      · -- Only a unit that is `always` to run is covered by an unknown tag, and by any other too.
        obtain ⟨hspecial, hnot⟩ := hunknown tag hleft
        have halways := (always_mem_or_mem_of_covers hspecial hcovers).resolve_right hnot
        exact .inr ⟨other, hother, .inl halways⟩
      · exact .inr ⟨tag, TagSet.mem_without.mpr ⟨hmem, hleft⟩, hcovers⟩

/-- The tag that stands for no tags is special, so a decision looks at no tag that is neither
special nor a tag of the unit. -/
theorem not_mem_effective (hspecial : tag.isSpecial = false) (h : tag ∉ own) :
    tag ∉ effective own := by
  intro hmem
  rw [effective] at hmem
  split at hmem
  · obtain rfl : tag = Tag.untagged := by simpa [untagged] using hmem
    exact absurd hspecial (by decide)
  · exact h hmem

theorem runs_withoutRequests (hunknown : ∀ tag ∈ unknown, tag.isSpecial = false ∧ tag ∉ own)
    (hrest : filter.only.without unknown ≠ ∅) :
    (filter.withoutRequests unknown).runs own = filter.runs own := by
  have heffective : ∀ tag ∈ unknown, tag.isSpecial = false ∧ tag ∉ effective own :=
    fun tag hleft =>
      ⟨(hunknown tag hleft).1, not_mem_effective (hunknown tag hleft).1 (hunknown tag hleft).2⟩
  have hincludes := includes_without heffective hrest
  rw [runs, runs, withoutRequests, hincludes]

end TagFilter

namespace Playbook

variable {rules : SelectionRules} {filter : TagFilter} {playbook : Playbook}
  {plays : List PlaySelection}

/-- A filter that decides alike on the tags that a selection reports gives the same selection. -/
theorem select_of_runs_eq (h : playbook.select rules = .ok plays)
    (hruns : ∀ p ∈ plays, ∀ t ∈ p.tasks, filter.runs t.tags = rules.filter.runs t.tags) :
    playbook.select { rules with filter } = .ok plays := by
  have htasks : ∀ p ∈ plays, ∀ t ∈ p.tasks, t.redecide filter = t := by
    intro p hp t ht
    calc t.redecide filter = t.redecide rules.filter := by
          rw [TaskSelection.redecide, TaskSelection.redecide, hruns p hp t ht]
      _ = t := redecide_of_select h p hp t ht
  have hplays : ∀ p ∈ plays, p.redecide filter = p := by
    intro p hp
    have hself : p.tasks.map (TaskSelection.redecide filter) = p.tasks :=
      (List.map_congr_left (htasks p hp)).trans (List.map_id' p.tasks)
    rw [PlaySelection.redecide, hself]
  rw [select_redecide, h, Except.ok_map, List.map_congr_left hplays, List.map_id']

/-- A selection without the requests of its unknown tags is the same, unless nothing else is
requested. Every other requested tag is special or one of a play or a task. -/
theorem select_without_unknownTags (h : playbook.select rules = .ok plays) :
    (rules.filter.only.without (unknownTags rules.filter.only plays) ≠ ∅ →
      playbook.select { rules with
        filter := rules.filter.withoutRequests (unknownTags rules.filter.only plays) }
        = .ok plays) ∧
      ∀ tag ∈ rules.filter.only, tag ∉ unknownTags rules.filter.only plays →
        tag.isSpecial = false → ∃ p ∈ plays, p.Carries tag := by
  constructor
  · intro hrest
    apply select_of_runs_eq h
    intro p hp t ht
    refine TagFilter.runs_withoutRequests (fun tag hunknown => ?_) hrest
    obtain ⟨-, hspecial, hcarries⟩ := mem_unknownTags_iff.mp hunknown
    exact ⟨hspecial, fun hmem => hcarries p hp (.inr ⟨t, ht, hmem⟩)⟩
  · intro tag hmem hknown hspecial
    by_contra hnone
    apply hknown
    exact mem_unknownTags_iff.mpr ⟨hmem, hspecial, fun p hp hcarries => hnone ⟨p, hp, hcarries⟩⟩

/-- A play with a task of a fixed role and one of the role that its variables say. -/
def roles : Playbook :=
  [⟨⟨"site", [], []⟩, none, [], [.task ⟨"serve", [.single (.str "web")], []⟩ none,
    .task ⟨"store", [.single (.str "{{ role }}")], [("role", .str "db")]⟩ none], [], []⟩]

theorem select_without_unknownTags_roles :
    ∃ plays,
      roles.select ⟨⟨.ofList [.str "web", .str "cache", .int 7], ∅⟩, Templater.on, [], true⟩
        = .ok plays ∧
      unknownTags (.ofList [.str "web", .str "cache", .int 7]) plays = [.int 7, .str "cache"] ∧
      roles.select ⟨⟨.ofList [.str "web"], ∅⟩, Templater.on, [], true⟩ = .ok plays ∧
      plays.map (fun p => p.tasks.map (·.selected)) = [[true, false]] ∧
      ∃ p ∈ plays, p.Carries (.str "web") := by
  have hselect : (roles.select
        ⟨⟨.ofList [.str "web", .str "cache", .int 7], ∅⟩, Templater.on, [], true⟩).toOption.map
      (fun plays => (unknownTags (.ofList [.str "web", .str "cache", .int 7]) plays,
        plays.map fun p => p.tasks.map (·.selected)))
      = some ([.int 7, .str "cache"], [[true, false]]) := by decide +kernel
  have hleft : (TagSet.ofList [.str "web", .str "cache", .int 7]).without [.int 7, .str "cache"]
      = .ofList [.str "web"] := by decide
  obtain ⟨plays, hplays, hshown⟩ := Option.map_eq_some_iff.mp hselect
  obtain ⟨hunknown, hselected⟩ := Prod.mk.inj hshown
  have hok := Except.toOption_eq_some_iff.mp hplays
  obtain ⟨hsame, hcarried⟩ := select_without_unknownTags hok
  rw [hunknown] at hcarried
  rw [TagFilter.withoutRequests, hunknown, hleft] at hsame
  exact ⟨plays, hok, hunknown, hsame (by decide), hselected,
    hcarried (.str "web") (by decide) (by decide) (by decide)⟩

end Playbook
end TaskTags
