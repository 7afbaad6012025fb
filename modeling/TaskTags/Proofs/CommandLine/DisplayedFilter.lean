import TaskTags.Proofs.CommandLine.Settings
import TaskTags.Proofs.Tag.Display
import TaskTags.Proofs.Text.Cut

/-!
# Displayed filters

A set of tags is read from its display if each of its tags can be spelled in a list of tags. All
tags that are read from texts can, so that no filter is lost by displaying it.
-/

namespace TaskTags

/-- Every tag of the set is a text that is neither empty nor cut or trimmed where it stands in a
list. -/
def TagSet.Spellable (s : TagSet) : Prop :=
  ∀ tag ∈ s, ∃ text, tag = .str text ∧ text ≠ "" ∧ Text.Trimmed text ∧ ',' ∉ text.toList

theorem Tag.readable_iff {tag : Tag} :
    tag.Readable ↔ ∃ text, tag = .str text ∧ text ≠ "" ∧ Text.Trimmed text ∧ ',' ∉ text.toList := by
  constructor
  · intro h
    cases tag with
    | int n => exact h.elim
    | str s =>
        obtain ⟨hne, hcomma, htrim⟩ := h
        exact ⟨s, rfl, hne, Text.trim_eq_self_iff.mp htrim, hcomma⟩
  · rintro ⟨text, rfl, hne, htrimmed, hcomma⟩
    exact ⟨hne, hcomma, Text.trim_eq_self_iff.mpr htrimmed⟩

namespace TagSet

theorem spellable_ofValues (values : List String) : (ofValues values).Spellable := by
  intro tag htag
  exact Tag.readable_iff.mp (readable_of_mem_ofValues htag)

theorem ofValues_display_eq_iff {s : TagSet} : ofValues [s.display] = s ↔ s.Spellable := by
  constructor
  · intro h
    rw [← h]
    exact spellable_ofValues _
  · intro h
    apply ofValues_display_of_readable
    intro tag htag
    exact Tag.readable_iff.mpr (h tag htag)

end TagSet

namespace TagFilter

/-- The filter is read from what is displayed of it. -/
def ReadsBack (filter : TagFilter) : Prop :=
  ofValues [filter.only.display] [filter.skip.display] = filter

theorem readsBack_ofValues (only skip : List String) : (ofValues only skip).ReadsBack := by
  rw [ReadsBack, ofValues, ofValues, TagSet.ofValues_display_ofValues,
    TagSet.ofValues_display_ofValues]

end TagFilter

namespace CommandLine

/-- A set is read from its display exactly if its tags can be spelled. The tags of values can, and
the filters that settings give, from files or variables, and those in effect are read from values. -/
theorem displayed_tags_read_back :
    (∀ s : TagSet, TagSet.ofValues [s.display] = s ↔ s.Spellable) ∧
    (∀ values, (TagSet.ofValues values).Spellable ∧
      TagSet.ofValues [(TagSet.ofValues values).display] = TagSet.ofValues values) ∧
    (∀ settings : Settings, settings.filter.ReadsBack) ∧
    ∀ env args inv ctx, Reaches env args inv ctx → ctx.filter.ReadsBack := by
  refine ⟨?_, ?_, ?_, ?_⟩
  · intro s
    exact TagSet.ofValues_display_eq_iff
  · intro values
    exact ⟨TagSet.spellable_ofValues values, TagSet.ofValues_display_ofValues values⟩
  · intro settings
    exact TagFilter.readsBack_ofValues settings.run settings.skip
  · intro env args inv ctx hreaches
    obtain ⟨settings, notice, -, hmake⟩ := hreaches.context
    rw [(Context.of_make hmake).2]
    exact TagFilter.readsBack_ofValues _ _

/-- An integer is displayed as the text of its digits, which is read as another tag. -/
example : TagSet.ofValues [(TagSet.ofList [.int 7, .str "web"]).display]
    = TagSet.ofList [.str "7", .str "web"] := by
  decide +kernel

end CommandLine
end TaskTags
