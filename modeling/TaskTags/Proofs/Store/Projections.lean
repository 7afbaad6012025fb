import TaskTags.Proofs.Store.History
import TaskTags.Report

/-!
# What a store shows

The values to report and the values that changed are filters of the same entries, by their flags and
by the verbosity from which they are visible. A difference holds exactly the variables that differ,
a higher verbosity only adds to it and to the output, and who sees a difference is told of a change.
-/

namespace TaskTags

namespace Variable

/-- A variable differs if it is visible, is to be shown as a difference, counts as a change and has
left its initial value. -/
structure Differs (v : Variable) (verbosity : Nat) : Prop where
  visible : v.verbosity ≤ verbosity
  diff : v.diff = true
  tracked : v.tracksChange = true
  replaced : (v.initial == v.value) = false

variable {v : Variable} {verbosity higher : Nat}

theorem showsDiff_iff : v.showsDiff verbosity = true ↔ v.Differs verbosity := by
  simp only [showsDiff, visibleAt, hasChanged, Bool.and_eq_true, decide_eq_true_eq,
    Bool.not_eq_true']
  constructor
  · rintro ⟨⟨hvisible, hdiff⟩, htracked, hreplaced⟩
    exact ⟨hvisible, hdiff, htracked, hreplaced⟩
  · rintro ⟨hvisible, hdiff, htracked, hreplaced⟩
    exact ⟨⟨hvisible, hdiff⟩, htracked, hreplaced⟩

instance decidableDiffers : Decidable (v.Differs verbosity) :=
  decidable_of_iff _ showsDiff_iff

theorem showsOutput_iff :
    v.showsOutput verbosity = true ↔ v.output = true ∧ v.verbosity ≤ verbosity := by
  rw [showsOutput, visibleAt, Bool.and_eq_true, decide_eq_true_eq]

theorem Differs.hasChanged (h : v.Differs verbosity) : v.hasChanged = true := by
  rw [Variable.hasChanged, h.tracked, h.replaced]
  rfl

theorem Differs.mono (hle : verbosity ≤ higher) (h : v.Differs verbosity) : v.Differs higher :=
  ⟨Nat.le_trans h.visible hle, h.diff, h.tracked, h.replaced⟩

theorem showsDiff_mono (hle : verbosity ≤ higher) (h : v.showsDiff verbosity = true) :
    v.showsDiff higher = true :=
  showsDiff_iff.mpr ((showsDiff_iff.mp h).mono hle)

theorem showsOutput_mono (hle : verbosity ≤ higher) (h : v.showsOutput verbosity = true) :
    v.showsOutput higher = true := by
  obtain ⟨houtput, hvisible⟩ := showsOutput_iff.mp h
  exact showsOutput_iff.mpr ⟨houtput, Nat.le_trans hvisible hle⟩

end Variable

namespace VariableStore

variable {s : VariableStore} {shown more : Variable → Bool} {verbosity higher : Nat}
  {d : ValueDiff}

theorem filter_sublist (h : ∀ v, shown v = true → more v = true) :
    (s.entries.filter (shown ·.2)).Sublist (s.entries.filter (more ·.2)) :=
  List.monotone_filter_right s.entries fun entry => h entry.2

theorem valuesWhere_sublist (h : ∀ v, shown v = true → more v = true) :
    (s.valuesWhere shown).Sublist (s.valuesWhere more) :=
  (filter_sublist h).map _

theorem initialsWhere_sublist (h : ∀ v, shown v = true → more v = true) :
    (s.initialsWhere shown).Sublist (s.initialsWhere more) :=
  (filter_sublist h).map _

def differing (s : VariableStore) (verbosity : Nat) : List (String × Variable) :=
  s.entries.filter (·.2.Differs verbosity)

theorem differing_eq : s.differing verbosity = s.entries.filter (·.2.showsDiff verbosity) := by
  apply List.filter_congr
  intro entry _
  rw [Bool.eq_iff_iff, decide_eq_true_eq, Variable.showsDiff_iff]

theorem diff_eq_none_iff :
    s.diff verbosity = none ↔ ∀ entry ∈ s.entries, ¬ entry.2.Differs verbosity := by
  have hempty : (s.initialsWhere (·.showsDiff verbosity)).isEmpty = true ↔
      ∀ entry ∈ s.entries, ¬ entry.2.Differs verbosity := by
    rw [initialsWhere, List.isEmpty_map, List.isEmpty_iff, List.filter_eq_nil_iff]
    simp only [Variable.showsDiff_iff]
  rw [← hempty, diff]
  by_cases h : (s.initialsWhere (·.showsDiff verbosity)).isEmpty = true
  · rw [if_pos h]
    exact ⟨fun _ => h, fun _ => rfl⟩
  · rw [if_neg h]
    exact ⟨fun hnone => absurd hnone (Option.some_ne_none _), fun hshown => absurd hshown h⟩

theorem before_of_diff (h : s.diff verbosity = some d) :
    d.before = (s.differing verbosity).map fun entry => (entry.1, entry.2.initial) := by
  rw [(before_after_of_diff h).1, differing_eq]
  rfl

theorem after_of_diff (h : s.diff verbosity = some d) :
    d.after = (s.differing verbosity).map fun entry => (entry.1, entry.2.value) := by
  rw [(before_after_of_diff h).2, differing_eq]
  rfl

theorem exists_differs_of_diff (h : s.diff verbosity ≠ none) :
    ∃ entry ∈ s.entries, entry.2.Differs verbosity := by
  by_contra hnone
  exact h (diff_eq_none_iff.mpr fun entry hentry hdiffers => hnone ⟨entry, hentry, hdiffers⟩)

theorem hasChanged_of_diff (h : s.diff verbosity ≠ none) : s.hasChanged = true := by
  obtain ⟨entry, hentry, hdiffers⟩ := exists_differs_of_diff h
  exact List.any_eq_true.mpr ⟨entry, hentry, hdiffers.hasChanged⟩

/-- Where something differs, it also does at a higher verbosity, and perhaps more. -/
theorem exists_diff_of_le (hle : verbosity ≤ higher) (h : s.diff verbosity = some d) :
    ∃ d', s.diff higher = some d' ∧ d.before.Sublist d'.before ∧ d.after.Sublist d'.after := by
  cases hdiff : s.diff higher with
  | none =>
      have hnone : s.diff verbosity = none := diff_eq_none_iff.mpr fun entry hentry hdiffers =>
        diff_eq_none_iff.mp hdiff entry hentry (hdiffers.mono hle)
      rw [hnone] at h
      cases h
  | some d' =>
      refine ⟨d', rfl, ?_, ?_⟩
      · rw [(before_after_of_diff h).1, (before_after_of_diff hdiff).1]
        exact initialsWhere_sublist fun _ => Variable.showsDiff_mono hle
      · rw [(before_after_of_diff h).2, (before_after_of_diff hdiff).2]
        exact valuesWhere_sublist fun _ => Variable.showsDiff_mono hle

theorem output_sublist (hle : verbosity ≤ higher) :
    (s.output verbosity).Sublist (s.output higher) :=
  valuesWhere_sublist fun _ => Variable.showsOutput_mono hle

/-- Of a name that is used once, the values before and after differ. -/
theorem replaced_of_diff (hnodup : s.names.Nodup) (h : s.diff verbosity = some d) {name : String}
    {x y : Json} (hx : (name, x) ∈ d.before) (hy : (name, y) ∈ d.after) : (x == y) = false := by
  rw [before_of_diff h] at hx
  rw [after_of_diff h] at hy
  obtain ⟨first, hfirst, hbefore⟩ := List.mem_map.mp hx
  obtain ⟨second, hsecond, hafter⟩ := List.mem_map.mp hy
  obtain ⟨rfl, rfl⟩ := Prod.mk.inj hbefore
  obtain ⟨hname, rfl⟩ := Prod.mk.inj hafter
  obtain ⟨hmem, hdiffers⟩ := List.mem_filter.mp hfirst
  obtain rfl : second = first :=
    List.inj_on_of_nodup_map hnodup (List.mem_of_mem_filter hsecond) hmem hname
  exact (of_decide_eq_true hdiffers).replaced

theorem shown_of_mem_output (hnodup : s.names.Nodup) {name : String} {value : Json}
    (h : (name, value) ∈ s.output verbosity) :
    ∃ v, s.find? name = some v ∧ v.value = value ∧ v.output = true ∧ v.verbosity ≤ verbosity := by
  obtain ⟨entry, hentry, hbinding⟩ := List.mem_map.mp h
  obtain ⟨rfl, rfl⟩ := Prod.mk.inj hbinding
  obtain ⟨hmem, hshown⟩ := List.mem_filter.mp hentry
  obtain ⟨houtput, hvisible⟩ := Variable.showsOutput_iff.mp hshown
  exact ⟨entry.2, (find?_eq_some_iff hnodup).mpr hmem, rfl, houtput, hvisible⟩

/-- Whatever calls are made, a store shows a difference exactly if a variable differs, and then the
initial values and the values of all that do, in the order of the store. More is shown at a higher
verbosity. A report with a difference says that there is a change, and its values are of variables
that are for the output and visible. -/
theorem projections_agree (calls : List StoreCall) (hle : verbosity ≤ higher) :
    ((after calls).diff verbosity = none ↔
        ∀ entry ∈ (after calls).entries, ¬ entry.2.Differs verbosity) ∧
      (∀ d, (after calls).diff verbosity = some d →
        d.before =
          ((after calls).differing verbosity).map (fun entry => (entry.1, entry.2.initial)) ∧
        d.after = ((after calls).differing verbosity).map (fun entry => (entry.1, entry.2.value)) ∧
        d.before.map (·.1) = d.after.map (·.1) ∧ (d.before.map (·.1)).Nodup ∧
        (∀ name x y, (name, x) ∈ d.before → (name, y) ∈ d.after → (x == y) = false) ∧
        ∃ d', (after calls).diff higher = some d' ∧
          d.before.Sublist d'.before ∧ d.after.Sublist d'.after) ∧
      ((after calls).output verbosity).Sublist ((after calls).output higher) ∧
      ∀ options diagnostics,
        ((Report.ofStore (after calls) options diagnostics).1.diff ≠ none →
          (Report.ofStore (after calls) options diagnostics).1.changed = true) ∧
        ∀ name value,
          (name, value) ∈ (Report.ofStore (after calls) options diagnostics).1.values →
          ∃ v, (after calls).lookup name = .ok v ∧ v.value = value ∧ v.output = true ∧
            v.verbosity ≤ options.verbosity := by
  have hnodup : (after calls).names.Nodup := (recounts_after calls).nodup
  refine ⟨diff_eq_none_iff, fun d hdiff => ?_, output_sublist hle,
    fun options diagnostics => ⟨?_, ?_⟩⟩
  · have hbefore := before_of_diff hdiff
    have hafter := after_of_diff hdiff
    have hnames : d.before.map (·.1) = ((after calls).differing verbosity).map (·.1) := by
      rw [hbefore, List.map_map]
      rfl
    refine ⟨hbefore, hafter, ?_, ?_, fun name x y => replaced_of_diff hnodup hdiff,
      exists_diff_of_le hle hdiff⟩
    · rw [hnames, hafter, List.map_map]
      rfl
    · rw [hnames]
      exact hnodup.sublist (List.filter_sublist.map _)
  · intro hdiff
    have hstore : (after calls).diff options.verbosity ≠ none := by
      intro hnone
      apply hdiff
      show (if options.diffMode then (after calls).diff options.verbosity else none) = none
      rw [hnone, ite_self]
    show (options.changed || (after calls).hasChanged) = true
    rw [hasChanged_of_diff hstore, Bool.or_true]
  · intro name value hmem
    obtain ⟨v, hfind, hshown⟩ := shown_of_mem_output hnodup hmem
    exact ⟨v, lookup_eq_ok_iff.mpr hfind, hshown⟩

/-- A state that is set twice, a level that only a higher verbosity sees, and a token that is not
for the output. -/
def tracedCalls : List StoreCall :=
  [.setWith "state" (.str "absent") { VariableOptions.none with diff := some true },
    .setWith "level" (.num (.int 1))
      { VariableOptions.none with diff := some true, verbosity := some 2 },
    .setWith "token" (.str "s3cret") { VariableOptions.none with output := some false },
    .set "state" (.str "present"), .set "level" (.num (.int 3))]

theorem projections_agree_traced :
    0 ≤ 2 ∧ ∃ d d',
      (after tracedCalls).diff 0 = some d ∧ (after tracedCalls).diff 2 = some d' ∧
      d.before.map (·.1) = ["state"] ∧ d'.before.map (·.1) = ["state", "level"] ∧
      d.before.Sublist d'.before ∧ d.after.Sublist d'.after ∧
      (∀ name x y, (name, x) ∈ d.before → (name, y) ∈ d.after → (x == y) = false) ∧
      ((after tracedCalls).output 0).map (·.1) = ["state"] ∧
      ((after tracedCalls).output 0).Sublist ((after tracedCalls).output 2) ∧
      (Report.ofStore (after tracedCalls) ⟨0, true, none, false, ""⟩ .empty).1.changed = true := by
  have hdiff : ((after tracedCalls).diff 0).map (·.before.map (·.1)) = some ["state"] := by
    decide +kernel
  have hmore : ((after tracedCalls).diff 2).map (·.before.map (·.1)) = some ["state", "level"] := by
    decide +kernel
  have hnames : ((after tracedCalls).output 0).map (·.1) = ["state"] := by decide +kernel
  obtain ⟨d, hd, hbefore⟩ := Option.map_eq_some_iff.mp hdiff
  obtain ⟨-, hshows, houtput, hreport⟩ := projections_agree tracedCalls (Nat.zero_le 2)
  obtain ⟨-, -, -, -, hreplaced, d', hd', hsublists⟩ := hshows d hd
  obtain ⟨more, hmore, hnames'⟩ := Option.map_eq_some_iff.mp hmore
  obtain rfl : d' = more := Option.some.inj (hd'.symm.trans hmore)
  have hpresent : (Report.ofStore (after tracedCalls) ⟨0, true, none, false, ""⟩ .empty).1.diff
      ≠ none := by
    show (after tracedCalls).diff 0 ≠ none
    rw [hd]
    exact Option.some_ne_none d
  exact ⟨Nat.zero_le 2, d, d', hd, hd', hbefore, hnames', hsublists.1, hsublists.2, hreplaced,
    hnames, houtput, (hreport _ _).1 hpresent⟩

end VariableStore
end TaskTags
