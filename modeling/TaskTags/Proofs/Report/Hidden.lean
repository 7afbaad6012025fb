import Mathlib.Data.List.Forall2
import TaskTags.Report

/-!
# Hidden variables

A variable that is not to be shown has no part in a report, whatever its values are, but that a
change of it can count.
-/

namespace TaskTags

namespace Variable

/-- A variable that is no fact is hidden if it takes a higher verbosity to see it, or if it is left
out of the output and no difference of it is shown. -/
def Hidden (options : ReportOptions) (v : Variable) : Prop :=
  v.fact = false ∧ (options.verbosity < v.verbosity ∨
    v.output = false ∧ (v.diff = false ∨ options.diffMode = false))

/-- Variables with the same flags that may differ in their values where they are hidden. -/
structure AgreeUnder (options : ReportOptions) (v w : Variable) : Prop where
  diff : v.diff = w.diff
  output : v.output = w.output
  change : v.tracksChange = w.tracksChange
  fact : v.fact = w.fact
  verbosity : v.verbosity = w.verbosity
  value : ¬ v.Hidden options → v.value = w.value
  initial : ¬ v.Hidden options → v.initial = w.initial

variable {options : ReportOptions} {v w : Variable}

theorem not_hidden_of_fact (h : v.fact = true) : ¬ v.Hidden options := by
  rintro ⟨hfact, -⟩
  rw [h] at hfact
  cases hfact

theorem not_hidden_of_showsOutput (h : v.showsOutput options.verbosity = true) :
    ¬ v.Hidden options := by
  obtain ⟨houtput, hvisible⟩ := Bool.and_eq_true_iff.mp h
  have hle : v.verbosity ≤ options.verbosity := of_decide_eq_true hvisible
  rintro ⟨-, hlt | ⟨hout, -⟩⟩
  · omega
  · rw [houtput] at hout
    cases hout

theorem not_hidden_of_showsDiff (hmode : options.diffMode = true)
    (h : v.showsDiff options.verbosity = true) : ¬ v.Hidden options := by
  obtain ⟨hshown, -⟩ := Bool.and_eq_true_iff.mp h
  obtain ⟨hvisible, hdiff⟩ := Bool.and_eq_true_iff.mp hshown
  have hle : v.verbosity ≤ options.verbosity := of_decide_eq_true hvisible
  rintro ⟨-, hlt | ⟨-, hoff | hoff⟩⟩
  · omega
  · rw [hdiff] at hoff
    cases hoff
  · rw [hmode] at hoff
    cases hoff

namespace AgreeUnder

theorem hidden_iff (h : v.AgreeUnder options w) : v.Hidden options ↔ w.Hidden options := by
  rw [Hidden, Hidden, h.fact, h.verbosity, h.output, h.diff]

theorem showsOutput (h : v.AgreeUnder options w) (verbosity : Nat) :
    v.showsOutput verbosity = w.showsOutput verbosity := by
  rw [Variable.showsOutput, Variable.showsOutput, visibleAt, visibleAt, h.output, h.verbosity]

theorem hasChanged (h : v.AgreeUnder options w) (hshown : ¬ v.Hidden options) :
    v.hasChanged = w.hasChanged := by
  rw [Variable.hasChanged, Variable.hasChanged, h.change, h.value hshown, h.initial hshown]

theorem showsDiff (h : v.AgreeUnder options w) (hmode : options.diffMode = true) :
    v.showsDiff options.verbosity = w.showsDiff options.verbosity := by
  by_cases hhidden : v.Hidden options
  · have hv : ¬ v.showsDiff options.verbosity = true :=
      fun hshown => not_hidden_of_showsDiff hmode hshown hhidden
    have hw : ¬ w.showsDiff options.verbosity = true :=
      fun hshown => not_hidden_of_showsDiff hmode hshown (h.hidden_iff.mp hhidden)
    rw [Bool.not_eq_true] at hv hw
    rw [hv, hw]
  · rw [Variable.showsDiff, Variable.showsDiff, visibleAt, visibleAt, h.verbosity, h.diff,
      h.hasChanged hhidden]

end AgreeUnder
end Variable

namespace VariableStore

/-- Stores with the same names in the same order and variables that agree. -/
def AgreeUnder (options : ReportOptions) (s t : VariableStore) : Prop :=
  List.Forall₂ (fun e f => e.1 = f.1 ∧ e.2.AgreeUnder options f.2) s.entries t.entries

/-- No change counts of the hidden variables in which stores differ. -/
def QuietUnder (options : ReportOptions) (s t : VariableStore) : Prop :=
  List.Forall₂ (fun e f => e.2.Hidden options →
    e.2.tracksChange = false ∨ e.2.value = f.2.value ∧ e.2.initial = f.2.initial) s.entries t.entries

variable {options : ReportOptions} {s t : VariableStore}

/-- A projection is the same if the variables in it are, with what is taken of them. -/
theorem AgreeUnder.project (h : s.AgreeUnder options t) {shown : Variable → Bool}
    {field : Variable → Json}
    (hshown : ∀ v w, v.AgreeUnder options w → shown v = shown w)
    (hfield : ∀ v w, v.AgreeUnder options w → shown v = true → field v = field w) :
    (s.entries.filter (shown ·.2)).map (fun e => (e.1, field e.2))
      = (t.entries.filter (shown ·.2)).map fun e => (e.1, field e.2) := by
  unfold AgreeUnder at h
  generalize s.entries = es, t.entries = fs at h
  induction h with
  | nil => rfl
  | @cons e f es fs hef _ ih =>
      obtain ⟨hname, hagree⟩ := hef
      by_cases he : shown e.2 = true
      · have hf : shown f.2 = true := (hshown _ _ hagree).symm.trans he
        simp only [List.filter_cons, he, hf, if_true, List.map_cons]
        rw [ih, hname, hfield _ _ hagree he]
      · have hf : ¬ shown f.2 = true := fun hf => he ((hshown _ _ hagree).trans hf)
        simp only [List.filter_cons, he, hf]
        exact ih

theorem AgreeUnder.output (h : s.AgreeUnder options t) :
    s.output options.verbosity = t.output options.verbosity :=
  h.project (fun _ _ hagree => hagree.showsOutput _) fun _ _ hagree hshown =>
    hagree.value (Variable.not_hidden_of_showsOutput hshown)

theorem AgreeUnder.facts (h : s.AgreeUnder options t) : s.facts = t.facts := by
  have hvalues : s.valuesWhere (·.fact) = t.valuesWhere (·.fact) :=
    h.project (fun _ _ hagree => hagree.fact) fun _ _ hagree hshown =>
      hagree.value (Variable.not_hidden_of_fact hshown)
  rw [VariableStore.facts, VariableStore.facts, hvalues]

theorem AgreeUnder.diff (h : s.AgreeUnder options t) (hmode : options.diffMode = true) :
    s.diff options.verbosity = t.diff options.verbosity := by
  have hinitials : s.initialsWhere (·.showsDiff options.verbosity)
      = t.initialsWhere (·.showsDiff options.verbosity) :=
    h.project (fun _ _ hagree => hagree.showsDiff hmode) fun _ _ hagree hshown =>
      hagree.initial (Variable.not_hidden_of_showsDiff hmode hshown)
  have hvalues : s.valuesWhere (·.showsDiff options.verbosity)
      = t.valuesWhere (·.showsDiff options.verbosity) :=
    h.project (fun _ _ hagree => hagree.showsDiff hmode) fun _ _ hagree hshown =>
      hagree.value (Variable.not_hidden_of_showsDiff hmode hshown)
  rw [VariableStore.diff, VariableStore.diff, hinitials, hvalues]

theorem AgreeUnder.hasChanged (h : s.AgreeUnder options t) (hquiet : s.QuietUnder options t) :
    s.hasChanged = t.hasChanged := by
  rw [VariableStore.hasChanged, VariableStore.hasChanged]
  unfold AgreeUnder at h
  unfold QuietUnder at hquiet
  generalize s.entries = es, t.entries = fs at h hquiet
  induction h with
  | nil => rfl
  | @cons e f es fs hef _ ih =>
      obtain ⟨hhead, hrest⟩ := List.forall₂_cons.mp hquiet
      have hagree := hef.2
      have hsame : e.2.hasChanged = f.2.hasChanged := by
        by_cases hhidden : e.2.Hidden options
        · rw [Variable.hasChanged, Variable.hasChanged, ← hagree.change]
          rcases hhead hhidden with hoff | ⟨hvalue, hinitial⟩
          · rw [hoff, Bool.false_and, Bool.false_and]
          · rw [hvalue, hinitial]
        · exact hagree.hasChanged hhidden
      rw [List.any_cons, List.any_cons, hsame, ih hrest]

end VariableStore

namespace Report

variable {options : ReportOptions} {s t : VariableStore}

theorem fields_eq_cons (r : Report) (changed : Bool) :
    ({ r with changed } : Report).fields = ("changed", .bool changed) :: r.fields.tail := rfl

/-- In the text of a report one word says whether there are changes, and nothing else does. -/
theorem exists_compact (r : Report) : ∃ before after : String, ∀ changed,
    ({ r with changed } : Report).toJson.compact
      = before ++ (Json.bool changed).compact ++ after := by
  obtain ⟨after, hafter⟩ : ∃ after, ∀ v, Json.compactFields (("changed", v) :: r.fields.tail)
      = Json.quote "changed" ++ ':' :: (v.compactChars ++ after) := by
    cases r.fields.tail with
    | nil => exact ⟨[], fun v => by rw [Json.compactFields, List.append_nil]⟩
    | cons field rest => exact ⟨_, fun v => by rw [Json.compactFields]⟩
  refine ⟨.ofList ('{' :: (Json.quote "changed" ++ [':'])), .ofList (after ++ ['}']),
    fun changed => ?_⟩
  rw [toJson, fields_eq_cons, Json.compact, Json.compactChars, hafter, Json.compact,
    ← String.ofList_append, ← String.ofList_append]
  simp

theorem exists_pretty (r : Report) : ∃ before after : String, ∀ changed,
    ({ r with changed } : Report).toJson.pretty
      = before ++ (Json.bool changed).pretty ++ after := by
  refine ⟨.ofList ('{' :: (Json.newline 2 1 ++ Json.quote "changed" ++ [':', ' '])),
    .ofList (Json.prettyFields 2 1 r.fields.tail ++ Json.newline 2 0 ++ ['}']), fun changed => ?_⟩
  rw [toJson, fields_eq_cons, Json.pretty, Json.prettyChars, Json.pretty, ← String.ofList_append,
    ← String.ofList_append]
  simp [Json.prettyChars]

theorem ofStore_of_agreeUnder (h : s.AgreeUnder options t) (d : Diagnostics) :
    (ofStore t options d).1
      = { (ofStore s options d).1 with changed := (ofStore t options d).1.changed } := by
  have hdiff : (if options.diffMode then t.diff options.verbosity else none)
      = if options.diffMode then s.diff options.verbosity else none := by
    by_cases hmode : options.diffMode = true
    · rw [if_pos hmode, if_pos hmode, h.diff hmode]
    · rw [if_neg hmode, if_neg hmode]
  simp only [ofStore, hdiff, h.facts, h.output]

/-- Stores that differ only in the values of hidden variables have the same report, as a record and
as text, but for the word on changes, and that is the same too if no hidden change counts. -/
theorem ofStore_hides_values (h : s.AgreeUnder options t) (d : Diagnostics) :
    (ofStore t options d).1
        = { (ofStore s options d).1 with changed := (ofStore t options d).1.changed } ∧
      (∃ before after,
        (ofStore s options d).1.toJson.compact
          = before ++ (Json.bool (ofStore s options d).1.changed).compact ++ after ∧
        (ofStore t options d).1.toJson.compact
          = before ++ (Json.bool (ofStore t options d).1.changed).compact ++ after) ∧
      (∃ before after,
        (ofStore s options d).1.toJson.pretty
          = before ++ (Json.bool (ofStore s options d).1.changed).pretty ++ after ∧
        (ofStore t options d).1.toJson.pretty
          = before ++ (Json.bool (ofStore t options d).1.changed).pretty ++ after) ∧
      (s.QuietUnder options t → ofStore t options d = ofStore s options d) := by
  have hreport := ofStore_of_agreeUnder h d
  refine ⟨hreport, ?_, ?_, fun hquiet => ?_⟩
  · obtain ⟨before, after, htext⟩ := exists_compact (ofStore s options d).1
    refine ⟨before, after, htext _, ?_⟩
    rw [hreport]
    exact htext _
  · obtain ⟨before, after, htext⟩ := exists_pretty (ofStore s options d).1
    refine ⟨before, after, htext _, ?_⟩
    rw [hreport]
    exact htext _
  · have hchanged : (ofStore t options d).1.changed = (ofStore s options d).1.changed := by
      simp only [ofStore, h.hasChanged hquiet]
    rw [hchanged] at hreport
    exact Prod.ext hreport rfl

/-- A store with a variable that is in the difference and one that is left out of the output. -/
def tokenStore (token : String) : VariableStore where
  entries := [("state", { Variable.blank with
      value := .str "present", initial := .str "absent", recorded := true, diff := true }),
    ("token", { Variable.blank with
      value := .str token, initial := .null, recorded := true, output := false })]

theorem ofStore_hides_values_token :
    (tokenStore "hunter2").AgreeUnder ⟨0, true, none, false, ""⟩ (tokenStore "letmein") ∧
      ofStore (tokenStore "letmein") ⟨0, true, none, false, ""⟩ ⟨["deprecated module"], []⟩
        = ofStore (tokenStore "hunter2") ⟨0, true, none, false, ""⟩ ⟨["deprecated module"], []⟩ := by
  have hagree : (tokenStore "hunter2").AgreeUnder ⟨0, true, none, false, ""⟩
      (tokenStore "letmein") := by
    refine .cons ⟨rfl, ⟨rfl, rfl, rfl, rfl, rfl, fun _ => rfl, fun _ => rfl⟩⟩ (.cons ⟨rfl, ?_⟩ .nil)
    exact ⟨rfl, rfl, rfl, rfl, rfl, fun hshown => absurd ⟨rfl, .inr ⟨rfl, .inl rfl⟩⟩ hshown,
      fun _ => rfl⟩
  have hquiet : (tokenStore "hunter2").QuietUnder ⟨0, true, none, false, ""⟩
      (tokenStore "letmein") :=
    .cons (fun _ => .inr ⟨rfl, rfl⟩) (.cons (fun _ => .inl rfl) .nil)
  exact ⟨hagree, (ofStore_hides_values hagree _).2.2.2 hquiet⟩

end Report
end TaskTags
