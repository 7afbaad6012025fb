import TaskTags.Proofs.Tag.Display
import TaskTags.Tag.Filter

/-!
# Decisions of a filter

What a filter asks of the tags of a unit, and for which tags the request of their own text is enough.
-/

namespace TaskTags

namespace TagSet

variable {s t : TagSet} {tag : Tag}

theorem meets_iff : s.meets t = true ↔ ∃ tag, tag ∈ s ∧ tag ∈ t := by
  rw [meets, List.any_eq_true]
  simp only [decide_eq_true_eq]
  exact Iff.rfl

theorem isEmpty_iff : s.isEmpty = true ↔ s = ∅ := by
  rw [isEmpty, List.isEmpty_iff]
  constructor
  · intro hnil
    apply ext
    intro tag
    rw [mem_def, hnil]
    rfl
  · rintro rfl
    rfl

theorem ne_empty_of_mem (h : tag ∈ s) : s ≠ ∅ := by
  rintro rfl
  exact not_mem_empty h

end TagSet

namespace TagFilter

variable {only skip own tags : TagSet} {tag : Tag}

theorem effective_of_mem (h : tag ∈ own) : effective own = own := by
  apply if_neg
  intro hempty
  exact TagSet.ne_empty_of_mem h (TagSet.isEmpty_iff.mp hempty)

theorem includes_iff : includes only tags = true ↔
    only = ∅ ∨ Tag.always ∈ tags ∨ (Tag.all ∈ only ∧ Tag.never ∉ tags) ∨
      (∃ tag, tag ∈ tags ∧ tag ∈ only) ∨
      (Tag.tagged ∈ only ∧ tags ≠ untagged ∧ Tag.never ∉ tags) := by
  simp only [includes, isTagged, Bool.or_eq_true, Bool.and_eq_true, decide_eq_true_eq,
    TagSet.isEmpty_iff, TagSet.meets_iff, or_assoc, and_assoc]

theorem excludes_empty : excludes ∅ tags = false := by
  have hmeets : tags.meets ∅ = false := by
    rw [Bool.eq_false_iff, Ne, TagSet.meets_iff]
    rintro ⟨tag, -, hmem⟩
    exact TagSet.not_mem_empty hmem
  have hall : Tag.all ∉ (∅ : TagSet) := TagSet.not_mem_empty
  have htagged : Tag.tagged ∉ (∅ : TagSet) := TagSet.not_mem_empty
  rw [excludes, if_neg hall, hmeets, decide_eq_false htagged]
  rfl

/-- With nothing to skip, a unit with tags runs if it is included. -/
theorem runs_of_mem (h : tag ∈ own) : runs ⟨only, ∅⟩ own = includes only own := by
  rw [runs, effective_of_mem h, excludes_empty]
  exact Bool.and_true _

end TagFilter

/-- The filter of a command line that requests the text of a tag. -/
def Tag.request (tag : Tag) : TagFilter :=
  TagFilter.ofValues [tag.display] []

/-- A tag whose text is read as no tag at all, as the tag itself, or as several tags by which all
units are included, those to `never` run as well. -/
def Tag.Requestable (tag : Tag) : Prop :=
  tag.request.only = ∅ ∨ tag.Readable ∨
    (Tag.never ∈ tag.request.only ∧
      (Tag.all ∈ tag.request.only ∨ Tag.tagged ∈ tag.request.only))

namespace Tag

variable {tag : Tag} {own : TagSet}

theorem readable_always : always.Readable := by decide

theorem readable_untagged : untagged.Readable := by decide

theorem mem_request_only_iff : tag ∈ tag.request.only ↔ tag.Readable :=
  TagSet.mem_ofValues_display_iff

/-- The request of a tag includes all units with the tag. -/
theorem runs_request (hrequest : tag.Requestable) (h : tag ∈ own) : tag.request.runs own = true := by
  show TagFilter.runs ⟨tag.request.only, ∅⟩ own = true
  rw [TagFilter.runs_of_mem h, TagFilter.includes_iff]
  by_cases hreadable : tag.Readable
  · exact .inr (.inr (.inr (.inl ⟨tag, h, mem_request_only_iff.mpr hreadable⟩)))
  · have hne : own ≠ TagFilter.untagged := by
      rintro rfl
      obtain rfl : tag = untagged := by simpa [TagFilter.untagged] using h
      exact hreadable readable_untagged
    obtain hempty | hreads | ⟨hnever, hrest⟩ := hrequest
    · exact .inl hempty
    · exact absurd hreads hreadable
    · by_cases hmem : never ∈ own
      · exact .inr (.inr (.inr (.inl ⟨never, hmem, hnever⟩)))
      · obtain hall | htagged := hrest
        · exact .inr (.inr (.inl ⟨hall, hmem⟩))
        · exact .inr (.inr (.inr (.inr ⟨htagged, hne, hmem⟩)))

/-- The request of another tag leaves out a unit with the tag, and perhaps `never`. -/
theorem exists_not_runs_request (hrequest : ¬ tag.Requestable) :
    ∃ own : TagSet, tag ∈ own ∧ (∀ other ∈ own, other = tag ∨ other = never) ∧
      tag.request.runs own = false := by
  obtain ⟨hnonempty, hreadable, hspecial⟩ :
      tag.request.only ≠ ∅ ∧ ¬ tag.Readable ∧ ¬ (never ∈ tag.request.only ∧
        (all ∈ tag.request.only ∨ tagged ∈ tag.request.only)) := by
    simpa only [Requestable, not_or] using hrequest
  have hself : tag ∉ tag.request.only := fun hmem => hreadable (mem_request_only_iff.mp hmem)
  have halways : always ≠ tag := by
    rintro rfl
    exact hreadable readable_always
  have hruns : ∀ own : TagSet, tag ∈ own → TagFilter.includes tag.request.only own = false →
      tag.request.runs own = false := fun own hmem hincludes =>
    (TagFilter.runs_of_mem hmem).trans hincludes
  -- If `never` is requested, neither `all` nor `tagged` is, and the tag alone is left out. If it is
  -- not, a unit that is `never` to run besides is left out whatever else is requested.
  by_cases hnever : never ∈ tag.request.only
  · have hmem : tag ∈ TagSet.ofList [tag] := TagSet.mem_ofList.mpr (List.mem_singleton_self tag)
    refine ⟨TagSet.ofList [tag], hmem, fun other hother => .inl (by simpa using hother), ?_⟩
    apply hruns _ hmem
    rw [Bool.eq_false_iff, Ne, TagFilter.includes_iff]
    rintro (hempty | hin | ⟨hall, -⟩ | ⟨other, hother, hin⟩ | ⟨htagged, -⟩)
    · exact hnonempty hempty
    · exact halways (by simpa using hin)
    · exact hspecial ⟨hnever, .inl hall⟩
    · obtain rfl : other = tag := by simpa using hother
      exact hself hin
    · exact hspecial ⟨hnever, .inr htagged⟩
  · have hmem : tag ∈ TagSet.ofList [tag, never] := by simp
    have hmemNever : never ∈ TagSet.ofList [tag, never] := by simp
    refine ⟨TagSet.ofList [tag, never], hmem, fun other hother => by simpa using hother, ?_⟩
    apply hruns _ hmem
    rw [Bool.eq_false_iff, Ne, TagFilter.includes_iff]
    rintro (hempty | hin | ⟨-, hnot⟩ | ⟨other, hother, hin⟩ | ⟨-, -, hnot⟩)
    · exact hnonempty hempty
    · obtain heq | heq : always = tag ∨ always = never := by simpa using hin
      · exact halways heq
      · exact absurd heq (by decide)
    · exact hnot hmemNever
    · obtain rfl | rfl : other = tag ∨ other = never := by simpa using hother
      · exact hself hin
      · exact hnever hin
    · exact hnot hmemNever

end Tag
end TaskTags
