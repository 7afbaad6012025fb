import TaskTags.Proofs.Json.Distinct
import TaskTags.Proofs.Report.DiffText
import TaskTags.Proofs.Store.Projections

/-!
# A shown change is visible

What a store shows as a difference has different texts before and after, and of different texts at
least one changed line is shown.
-/

namespace TaskTags

namespace ValueDiff

/-- Where the texts differ, there is a hunk, and each hunk has a changed line. -/
theorem exists_isChanged {d : ValueDiff} (h : d.document .old ≠ d.document .new) :
    ∃ hunk ∈ d.hunks.map Diff.Hunk.stated, hunk.IsChanged := by
  have hne : d.hunks.map Diff.Hunk.stated ≠ [] := by
    intro hnil
    have hpatched := Diff.patch_hunks radius (d.documentLines .old) (d.documentLines .new)
    have hhunks : Diff.hunks radius (d.documentLines .old) (d.documentLines .new) = d.hunks := rfl
    rw [hhunks, hnil] at hpatched
    have hlines : d.documentLines .old = d.documentLines .new := Option.some.inj hpatched
    apply h
    rw [← Diff.Unified.joinLines_of_lines? (d.lines?_document .old), hlines]
    exact Diff.Unified.joinLines_of_lines? (d.lines?_document .new)
  obtain ⟨hunk, hmem⟩ := List.exists_mem_of_ne_nil _ hne
  exact ⟨hunk, hmem, Diff.isChanged_of_inContext (d.describes_hunks.context hunk hmem)⟩

end ValueDiff

/-- A variable whose values are without floating point numbers. -/
structure Variable.FloatFree (v : Variable) : Prop where
  value : v.value.FloatFree
  initial : v.initial.FloatFree

namespace VariableStore

variable {s : VariableStore} {verbosity : Nat} {d : ValueDiff}

theorem document_ne_of_diff (hfree : ∀ entry ∈ s.entries, entry.2.FloatFree)
    (h : s.diff verbosity = some d) : d.document .old ≠ d.document .new := by
  have hbefore : (Json.obj d.before).FloatFree := by
    rw [(before_after_of_diff h).1]
    refine .obj fun field hfield => ?_
    obtain ⟨v, hv, hvalue⟩ := exists_of_mem_initialsWhere hfield
    rw [hvalue]
    exact (hfree _ hv).initial
  have hafter : (Json.obj d.after).FloatFree := by
    rw [(before_after_of_diff h).2]
    refine .obj fun field hfield => ?_
    obtain ⟨v, hv, hvalue⟩ := exists_of_mem_valuesWhere hfield
    rw [hvalue]
    exact (hfree _ hv).value
  intro heq
  have hpretty : (Json.obj d.before).pretty = (Json.obj d.after).pretty := by
    apply String.toList_inj.mp
    have htext := congrArg String.toList heq
    rw [ValueDiff.document, ValueDiff.document, String.toList_append, String.toList_append] at htext
    exact List.append_cancel_right htext
  have hfields := Json.obj.inj (hbefore.pretty_inj hafter hpretty)
  rw [before_of_diff h, after_of_diff h, List.map_inj_left] at hfields
  obtain ⟨entry, hentry, hdiffers⟩ : ∃ entry ∈ s.entries, entry.2.Differs verbosity := by
    apply exists_differs_of_diff
    rw [h]
    exact Option.some_ne_none d
  have hmem : entry ∈ s.differing verbosity :=
    List.mem_filter.mpr ⟨hentry, decide_eq_true hdiffers⟩
  have hsame : entry.2.initial = entry.2.value := (Prod.mk.inj (hfields entry hmem)).2
  have hreplaced := hdiffers.replaced
  rw [hsame, (hfree entry hentry).value.beq_self] at hreplaced
  cases hreplaced

/-- Values without floating point numbers that count as different have different texts, so what a
store shows as a difference has a hunk with a changed line. -/
theorem diff_has_changed_line (hfree : ∀ entry ∈ s.entries, entry.2.FloatFree) :
    (∀ verbosity d, s.diff verbosity = some d → ∃ hunks,
      Diff.Unified.hunks? (d.render false) = some hunks ∧ ∃ hunk ∈ hunks, hunk.IsChanged) ∧
      ∀ x y : Json, x.FloatFree → y.FloatFree → (x == y) = false → x.pretty ≠ y.pretty := by
  refine ⟨fun verbosity d hdiff => ?_, fun x y hx hy hne hpretty => ?_⟩
  · exact ⟨_, d.hunks?_render, ValueDiff.exists_isChanged (document_ne_of_diff hfree hdiff)⟩
  · rw [hx.pretty_inj hy hpretty, hy.beq_self] at hne
    cases hne

/-- A state that has been set to another one. -/
def switched : VariableStore :=
  ⟨[("state", { Variable.blank with
    value := .str "present", initial := .str "absent", recorded := true, diff := true })]⟩

theorem diff_has_changed_line_switched : (∀ entry ∈ switched.entries, entry.2.FloatFree) ∧
    ∃ d hunks, switched.diff 0 = some d ∧ Diff.Unified.hunks? (d.render false) = some hunks ∧
      (∃ hunk ∈ hunks, hunk.IsChanged) ∧ (Json.str "1").pretty ≠ (Json.ofInt 1).pretty := by
  have hfree : ∀ entry ∈ switched.entries, entry.2.FloatFree := by
    intro entry hentry
    obtain rfl := List.mem_singleton.mp hentry
    exact ⟨.str _, .str _⟩
  obtain ⟨hshows, hdistinct⟩ := diff_has_changed_line hfree
  obtain ⟨d, hd⟩ : ∃ d, switched.diff 0 = some d := ⟨_, rfl⟩
  obtain ⟨hunks, hread, hchanged⟩ := hshows 0 d hd
  exact ⟨hfree, d, hunks, hd, hread, hchanged, hdistinct _ _ (.str _) (.int _) rfl⟩

end VariableStore
end TaskTags
