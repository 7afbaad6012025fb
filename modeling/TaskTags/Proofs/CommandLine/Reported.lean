import TaskTags.Proofs.CommandLine.Assigned
import TaskTags.Proofs.Report.Fields
import TaskTags.Proofs.Tag.Display

/-!
# What a command reports

Every value of a command is found under its name in the report. Of changes and differences there are
those between the filters in effect and the configured ones, which are compared by their texts.
-/

namespace TaskTags.CommandLine.Context

variable {ctx : Context} {finding : Finding} {s : VariableStore}

/-- Around its values a report has three objects at the most. -/
theorem readable_report (hsound : finding.Sound) (hassign : ctx.assign finding.assigned = .ok s)
    (h : ∀ a ∈ finding.assigned, Json.Readable (Json.maxDepth - 4) a.value) :
    Json.Readable (Json.maxDepth - 1) (ctx.report s finding).toJson := by
  rw [assign_eq ctx hsound] at hassign
  obtain rfl := Except.ok.inj hassign
  apply Report.readable_toJson
  intro entry hentry
  obtain hfilter | hassigned := List.mem_append.mp hentry
  · obtain rfl | rfl := List.mem_pair.mp hfilter
    · exact ⟨.scalar (.str _), .scalar (.str _)⟩
    · exact ⟨.scalar (.str _), .scalar (.str _)⟩
  · obtain ⟨a, ha, rfl⟩ := List.mem_map.mp hassigned
    exact ⟨h a ha, h a ha⟩

/-- No variable of a command has the name of another field of its report. -/
theorem recounts_report (hsound : finding.Sound) (hassign : ctx.assign finding.assigned = .ok s) :
    Report.Recounts (ctx.report s finding).toJson s (ctx.reportOptions finding.message)
      (ctx.diagnostics finding.warnings) := by
  rw [assign_eq ctx hsound] at hassign
  obtain rfl := Except.ok.inj hassign
  have hnames := names_assignedStore ctx finding.assigned
  have hshown : (((ctx.assignedStore finding.assigned).output ctx.verbosity).map (·.1)).Sublist
      (filterNames ++ finding.names) := by
    rw [Finding.names, ← hnames]
    exact VariableStore.names_valuesWhere_sublist
  have hdiff : "diff" ∉ ((ctx.assignedStore finding.assigned).output ctx.verbosity).map (·.1) := by
    intro hmem
    exact (hsound.free "diff" (hshown.subset hmem)).1 (by decide)
  have hkeys : ((ctx.report (ctx.assignedStore finding.assigned) finding).fields.map (·.1)).Nodup := by
    apply (Report.nodup_keys_iff (hshown.nodup hsound.nodup) hdiff).mpr
    intro name hmem hclash
    apply (hsound.free name (hshown.subset hmem)).2
    obtain rfl | ⟨rfl, -⟩ | ⟨rfl, -⟩ | ⟨rfl, -⟩ | ⟨rfl, -⟩ := hclash <;> decide
  exact Report.recounts_toJson hkeys hdiff

/-- A value that is not kept for those who ask for more words is found under its name. -/
theorem get?_report (hsound : finding.Sound) (hassign : ctx.assign finding.assigned = .ok s)
    {a : Assignment} (ha : a ∈ finding.assigned) (hvisible : a.verbosity.getD 0 ≤ ctx.verbosity) :
    (ctx.report s finding).toJson.get? a.name = some a.value := by
  have hrecounts := recounts_report hsound hassign
  rw [assign_eq ctx hsound] at hassign
  obtain rfl := Except.ok.inj hassign
  have hentry : a.entry ∈ (ctx.assignedStore finding.assigned).entries :=
    List.mem_append_right _ (List.mem_map_of_mem ha)
  have hshown : a.entry.2.showsOutput ctx.verbosity = true := decide_eq_true hvisible
  have hvalue : (a.name, a.value) ∈ (ctx.assignedStore finding.assigned).output ctx.verbosity :=
    List.mem_map_of_mem (List.mem_filter.mpr ⟨hentry, hshown⟩)
  exact hrecounts.values _ hvalue

end TaskTags.CommandLine.Context
