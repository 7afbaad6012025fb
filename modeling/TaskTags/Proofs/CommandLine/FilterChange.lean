import TaskTags.Proofs.CommandLine.Output

/-!
# Changes of the filters

The filters are compared by their texts. All tags of theirs are read from texts as well, so that the
texts differ exactly if the sets do.
-/

namespace TaskTags

namespace CommandLine

/-- The names of the filters that are not as they were. -/
def differing (configured effective : TagFilter) : List String :=
  (if configured.only = effective.only then [] else ["only_tags"]) ++
    (if configured.skip = effective.skip then [] else ["skip_tags"])

theorem differing_eq_nil_iff {configured effective : TagFilter} :
    differing configured effective = [] ↔ effective = configured := by
  obtain ⟨only, skip⟩ := configured
  obtain ⟨only', skip'⟩ := effective
  rw [differing, TagFilter.mk.injEq, eq_comm (a := only'), eq_comm (a := skip')]
  by_cases honly : only = only' <;> by_cases hskip : skip = skip' <;> simp [honly, hskip]

namespace Context

variable {env : Environment} {inv : Invocation} {settings : Settings} {ctx : Context}

theorem hasChanged_filterVariable (values others : List String) :
    (filterVariable (TagSet.ofValues values) (TagSet.ofValues others)).hasChanged
      = !decide (TagSet.ofValues values = TagSet.ofValues others) := by
  have htext : ((TagSet.ofValues values).display == (TagSet.ofValues others).display)
      = decide (TagSet.ofValues values = TagSet.ofValues others) := by
    rw [Bool.eq_iff_iff, beq_iff_eq, decide_eq_true_eq]
    exact TagSet.display_ofValues_inj
  exact congrArg Bool.not htext

theorem showsDiff_filterVariable (configured effective : TagSet) (verbosity : Nat) :
    (filterVariable configured effective).showsDiff verbosity
      = (filterVariable configured effective).hasChanged := by
  have hvisible : (filterVariable configured effective).visibleAt verbosity = true :=
    decide_eq_true (Nat.zero_le verbosity)
  rw [Variable.showsDiff, hvisible, Bool.true_and]
  exact Bool.true_and _

/-- The filters that have changed, which are shown at every verbosity. -/
theorem changed_filterEntries (hmake : Context.make env inv settings = .ok ctx) :
    (ctx.filterEntries.filter (·.2.hasChanged)).map (·.1)
      = differing settings.filter (filterOf inv settings) := by
  obtain ⟨rfl, hfilter⟩ := of_make hmake
  have honly : (filterVariable ctx.settings.filter.only (filterOf inv ctx.settings).only).hasChanged
      = !decide (ctx.settings.filter.only = (filterOf inv ctx.settings).only) :=
    hasChanged_filterVariable _ _
  have hskip : (filterVariable ctx.settings.filter.skip (filterOf inv ctx.settings).skip).hasChanged
      = !decide (ctx.settings.filter.skip = (filterOf inv ctx.settings).skip) :=
    hasChanged_filterVariable _ _
  rw [filterEntries, hfilter, List.filter_cons, List.filter_cons, List.filter_nil, honly, hskip,
    differing]
  by_cases hsameOnly : ctx.settings.filter.only = (filterOf inv ctx.settings).only
  · by_cases hsameSkip : ctx.settings.filter.skip = (filterOf inv ctx.settings).skip <;>
      simp [hsameOnly, hsameSkip]
  · by_cases hsameSkip : ctx.settings.filter.skip = (filterOf inv ctx.settings).skip <;>
      simp [hsameOnly, hsameSkip]

theorem showsDiff_filterEntries (ctx : Context) (verbosity : Nat) :
    ctx.filterEntries.filter (·.2.showsDiff verbosity)
      = ctx.filterEntries.filter (·.2.hasChanged) := by
  apply List.filter_congr
  intro entry hentry
  obtain rfl | rfl := List.mem_pair.mp hentry <;> exact showsDiff_filterVariable _ _ verbosity

theorem hasChanged_assignedStore (hmake : Context.make env inv settings = .ok ctx)
    (assigned : List Assignment) :
    (ctx.assignedStore assigned).hasChanged = decide (filterOf inv settings ≠ settings.filter) := by
  -- What is assigned once has its first value, so only the filters can have changed.
  have hassigned : (assigned.map Assignment.entry).any (·.2.hasChanged) = false := by
    rw [List.any_map, List.any_eq_false]
    intro a _
    rw [Function.comp_apply, Assignment.hasChanged_entry]
    exact Bool.false_ne_true
  rw [VariableStore.hasChanged, assignedStore, List.any_append, hassigned, Bool.or_false,
    Bool.eq_iff_iff, decide_eq_true_eq, ← not_iff_not, not_not, ← differing_eq_nil_iff,
    ← changed_filterEntries hmake, List.map_eq_nil_iff, List.filter_eq_nil_iff, List.any_eq_true]
  simp only [not_exists, not_and]

end Context

/-- The filters as variables have changed exactly if those in effect are not the configured ones,
and a difference lists those that are not. What a command assigns behind them changes nothing about
it, so its report says the same. -/
theorem changed_iff_filters_replaced {env : Environment} {inv : Invocation} {settings : Settings}
    {ctx : Context} (hmake : Context.make env inv settings = .ok ctx) :
    (∃ s, ctx.filterVars = .ok s ∧
        (s.hasChanged = true ↔ Context.filterOf inv settings ≠ settings.filter) ∧
        ∀ verbosity,
          (s.diff verbosity).elim [] (·.before.map (·.1))
              = differing settings.filter (Context.filterOf inv settings) ∧
            (s.diff verbosity).elim [] (·.after.map (·.1))
              = differing settings.filter (Context.filterOf inv settings)) ∧
      ∀ args notice, Invocation.parse args = .ok inv →
        settingsOf env inv = .ok (settings, notice) → inv.json = true →
        (run env args).exitCode = 0 →
        ∃ object, (run env args).stdout = Json.pretty object ++ "\n" ∧
          object.get? "changed"
            = some (.bool (decide (Context.filterOf inv settings ≠ settings.filter))) := by
  constructor
  · refine ⟨_, ctx.filterVars_eq, ?_, fun verbosity => ?_⟩
    · rw [Context.hasChanged_assignedStore hmake, decide_eq_true_eq]
    · have hentries : (ctx.assignedStore []).entries = ctx.filterEntries := List.append_nil _
      rw [← Context.changed_filterEntries hmake, ← ctx.showsDiff_filterEntries verbosity, ← hentries]
      exact VariableStore.names_diff _ verbosity
  · intro args notice hparse hsettings hjson hzero
    obtain ⟨found, finding, s, hreaches, hfinds, hassign, hstdout⟩ :=
      report_of_run hparse hzero hjson
    obtain rfl := hreaches.eq_of_make hsettings hmake
    refine ⟨_, hstdout, ?_⟩
    rw [(Context.recounts_report hfinds.sound hassign).changed]
    rw [found.assign_eq hfinds.sound] at hassign
    obtain rfl := Except.ok.inj hassign
    rw [Context.hasChanged_assignedStore hmake]
    rfl

theorem changed_iff_filters_replaced_emptySystem :
    ∃ inv ctx s object,
      Invocation.parse ["--output", "json", "--tags", "web", "check", "web"] = .ok inv ∧
      Context.make emptySystem inv Settings.default = .ok ctx ∧ ctx.filterVars = .ok s ∧
      s.hasChanged = true ∧ (s.diff 0).elim [] (·.after.map (·.1)) = ["only_tags"] ∧
      (run emptySystem ["--output", "json", "--tags", "web", "check", "web"]).stdout
        = Json.pretty object ++ "\n" ∧
      object.get? "changed" = some (.bool true) := by
  let inv : Invocation := ⟨.check ["web"], ["web"], [], [], 0, false, false, true, none, false⟩
  have hparse : Invocation.parse ["--output", "json", "--tags", "web", "check", "web"] = .ok inv := by
    decide +kernel
  have hsettings : settingsOf emptySystem inv = .ok (Settings.default, "") := by decide +kernel
  have hzero : (run emptySystem ["--output", "json", "--tags", "web", "check", "web"]).exitCode
      = 0 := by
    decide +kernel
  have hreplaced : Context.filterOf inv Settings.default ≠ Settings.default.filter := by
    decide +kernel
  have hdiffering : differing Settings.default.filter (Context.filterOf inv Settings.default)
      = ["only_tags"] := by
    decide +kernel
  obtain ⟨ctx, hmake⟩ : ∃ ctx, Context.make emptySystem inv Settings.default = .ok ctx := ⟨_, rfl⟩
  obtain ⟨⟨s, hvars, hchanged, hdiff⟩, hruns⟩ := changed_iff_filters_replaced hmake
  obtain ⟨object, hstdout, hobject⟩ := hruns _ _ hparse hsettings rfl hzero
  refine ⟨inv, ctx, s, object, hparse, hmake, hvars, hchanged.mpr hreplaced,
    (hdiff 0).2.trans hdiffering, hstdout, ?_⟩
  rw [hobject, decide_eq_true hreplaced]

end CommandLine
end TaskTags
