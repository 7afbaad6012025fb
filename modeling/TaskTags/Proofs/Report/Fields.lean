import TaskTags.Proofs.Json.Field
import TaskTags.Proofs.Json.ReadBack
import TaskTags.Proofs.Store.History
import TaskTags.Report

/-!
# The fields of a report

The values of a report stand beside its own fields in one object. A value under the key of one of
these hides the field from a reader; without one, every part of the report is read again.
-/

namespace TaskTags.Report

variable {r : Report} {name : String}

/-- A name under which the report has a field whatever its values are, other than `diff`. -/
def Clashes (r : Report) (name : String) : Prop :=
  name = "changed" ∨ name = "msg" ∧ r.message ≠ "" ∨ name = "ansible_facts" ∧ r.facts ≠ none ∨
    name = "warnings" ∧ r.diagnostics.warnings ≠ [] ∨
    name = "deprecations" ∧ r.diagnostics.deprecations ≠ []

def keyUnless (absent : Bool) (key : String) : List String :=
  if absent then [] else [key]

section Keys

variable {absent : Bool} {key : String}

theorem mem_keyUnless : name ∈ keyUnless absent key ↔ name = key ∧ absent = false := by
  cases absent <;> simp [keyUnless]

theorem keyUnless_sublist : (keyUnless absent key).Sublist [key] := by
  cases absent <;> simp [keyUnless]

theorem keys_ite (value : Json) :
    (if absent then [] else [(key, value)]).map (·.1) = keyUnless absent key := by
  cases absent <;> rfl

theorem keys_toList {α : Type} (key : String) (part : Option α) (value : α → Json) :
    (part.toList.map fun x => (key, value x)).map (·.1) = keyUnless part.isNone key := by
  cases part <;> rfl

end Keys

def ownKeys (r : Report) : List String :=
  ["changed"] ++ keyUnless r.message.isEmpty "msg" ++ keyUnless r.diff.isNone "diff" ++
    keyUnless r.facts.isNone "ansible_facts" ++
    keyUnless r.diagnostics.warnings.isEmpty "warnings" ++
    keyUnless r.diagnostics.deprecations.isEmpty "deprecations"

theorem keys_perm (r : Report) : (r.fields.map (·.1)).Perm (r.ownKeys ++ r.values.map (·.1)) := by
  have hdiff := keys_toList "diff" r.diff diffObject
  have hfacts := keys_toList "ansible_facts" r.facts id
  simp only [id] at hfacts
  have hkeys : r.fields.map (·.1)
      = (["changed"] ++ keyUnless r.message.isEmpty "msg" ++ keyUnless r.diff.isNone "diff" ++
          keyUnless r.facts.isNone "ansible_facts") ++ (r.values.map (·.1) ++
        (keyUnless r.diagnostics.warnings.isEmpty "warnings" ++
          keyUnless r.diagnostics.deprecations.isEmpty "deprecations")) := by
    simp only [fields, List.map_append, keys_ite, hdiff, hfacts, List.append_assoc]
    rfl
  rw [hkeys, ownKeys, List.append_assoc _ (keyUnless _ "warnings"),
    List.append_assoc _ _ (r.values.map _)]
  exact List.perm_append_comm.append_left _

theorem mem_ownKeys : name ∈ r.ownKeys ↔ r.Clashes name ∨ name = "diff" ∧ r.diff ≠ none := by
  simp only [ownKeys, Clashes, List.mem_append, mem_keyUnless, List.mem_singleton,
    String.isEmpty_eq_false_iff, List.isEmpty_eq_false_iff, Option.isNone_eq_false_iff,
    Option.isSome_iff_ne_none]
  grind

theorem nodup_ownKeys (r : Report) : r.ownKeys.Nodup := by
  have hsublist : r.ownKeys.Sublist
      (["changed"] ++ ["msg"] ++ ["diff"] ++ ["ansible_facts"] ++ ["warnings"]
        ++ ["deprecations"]) :=
    (((((List.Sublist.refl _).append keyUnless_sublist).append keyUnless_sublist).append
      keyUnless_sublist).append keyUnless_sublist).append keyUnless_sublist
  exact hsublist.nodup (by decide)

/-- The keys are different from each other unless a value is under the key of another field. -/
theorem nodup_keys_iff (hvalues : (r.values.map (·.1)).Nodup)
    (hdiff : "diff" ∉ r.values.map (·.1)) :
    (r.fields.map (·.1)).Nodup ↔ ∀ name ∈ r.values.map (·.1), ¬ r.Clashes name := by
  rw [r.keys_perm.nodup_iff, List.nodup_append]
  constructor
  · rintro ⟨-, -, hdisjoint⟩ name hname hclash
    exact hdisjoint name (mem_ownKeys.mpr (.inl hclash)) name hname rfl
  · intro hfree
    refine ⟨r.nodup_ownKeys, hvalues, ?_⟩
    rintro name hown _ hname rfl
    obtain hclash | ⟨rfl, -⟩ := mem_ownKeys.mp hown
    · exact hfree name hname hclash
    · exact hdiff hname

/-- What fields a report has. -/
inductive IsField (r : Report) : String × Json → Prop where
  | changed : IsField r ("changed", .bool r.changed)
  | message (present : r.message ≠ "") : IsField r ("msg", .str r.message)
  | diff {d : ValueDiff} (present : r.diff = some d) : IsField r ("diff", diffObject d)
  | facts {facts : Json} (present : r.facts = some facts) : IsField r ("ansible_facts", facts)
  | value {value : String × Json} (shown : value ∈ r.values) : IsField r value
  | warnings (present : r.diagnostics.warnings ≠ []) :
      IsField r ("warnings", .ofStrings r.diagnostics.warnings)
  | deprecations (present : r.diagnostics.deprecations ≠ []) :
      IsField r ("deprecations", .arr (r.diagnostics.deprecations.map deprecationObject))

theorem mem_fields {field : String × Json} : field ∈ r.fields ↔ r.IsField field := by
  have hpart : ∀ (absent : Prop) [Decidable absent] (part : String × Json),
      field ∈ (if absent then [] else [part]) ↔ ¬ absent ∧ field = part := by
    intro absent _ part
    by_cases habsent : absent <;> simp [habsent]
  simp only [fields, List.mem_append, hpart, List.mem_map, Option.mem_toList, List.mem_singleton,
    String.isEmpty_iff, List.isEmpty_iff, or_assoc]
  constructor
  · rintro (rfl | ⟨hpresent, rfl⟩ | ⟨d, hpresent, rfl⟩ | ⟨facts, hpresent, rfl⟩ | hshown |
      ⟨hpresent, rfl⟩ | ⟨hpresent, rfl⟩)
    · exact .changed
    · exact .message hpresent
    · exact .diff hpresent
    · exact .facts hpresent
    · exact .value hshown
    · exact .warnings hpresent
    · exact .deprecations hpresent
  · rintro (_ | hpresent | hpresent | hpresent | hshown | hpresent | hpresent)
    · exact .inl rfl
    · exact .inr (.inl ⟨hpresent, rfl⟩)
    · exact .inr (.inr (.inl ⟨_, hpresent, rfl⟩))
    · exact .inr (.inr (.inr (.inl ⟨_, hpresent, rfl⟩)))
    · exact .inr (.inr (.inr (.inr (.inl hshown))))
    · exact .inr (.inr (.inr (.inr (.inr (.inl ⟨hpresent, rfl⟩)))))
    · exact .inr (.inr (.inr (.inr (.inr (.inr ⟨hpresent, rfl⟩)))))

/-- An object in which every part of a report on a store is found under its key. -/
structure Recounts (object : Json) (s : VariableStore) (options : ReportOptions) (d : Diagnostics) :
    Prop where
  changed : object.get? "changed" = some (.bool (options.changed || s.hasChanged))
  message : options.message ≠ "" → object.get? "msg" = some (.str options.message)
  diff : object.get? "diff"
    = (if options.diffMode then s.diff options.verbosity else none).map diffObject
  facts : ∀ facts, s.facts = some facts →
    object.get? "ansible_facts" = some (factsObject options facts)
  warnings : d.warnings ≠ [] → object.get? "warnings" = some (Json.ofStrings d.warnings)
  deprecations : d.deprecations ≠ [] →
    object.get? "deprecations" = some (.arr (d.deprecations.map deprecationObject))
  values : ∀ value ∈ s.output options.verbosity, object.get? value.1 = some value.2

variable {s : VariableStore} {options : ReportOptions} {d : Diagnostics}

theorem recounts_toJson (hkeys : ((ofStore s options d).1.fields.map (·.1)).Nodup)
    (hdiff : "diff" ∉ (s.output options.verbosity).map (·.1)) :
    Recounts (ofStore s options d).1.toJson s options d := by
  have hfound : ∀ {key value}, (ofStore s options d).1.IsField (key, value) →
      (ofStore s options d).1.toJson.get? key = some value :=
    fun hfield => Json.field?_eq_some hkeys (mem_fields.mpr hfield)
  constructor
  case changed => exact hfound .changed
  case message => exact fun hpresent => hfound (.message hpresent)
  case diff =>
    have hpart : (ofStore s options d).1.diff
        = if options.diffMode then s.diff options.verbosity else none := rfl
    rw [← hpart]
    cases hshown : (ofStore s options d).1.diff with
    | some shown => exact hfound (.diff hshown)
    | none =>
        refine Json.field?_eq_none fun hmem => ?_
        obtain hown | hvalue := List.mem_append.mp ((keys_perm _).mem_iff.mp hmem)
        · obtain hclash | ⟨-, hpresent⟩ := mem_ownKeys.mp hown
          · simp [Clashes] at hclash
          · exact hpresent hshown
        · exact hdiff hvalue
  case facts =>
    intro facts hfacts
    have hpresent : (ofStore s options d).1.facts = some (factsObject options facts) :=
      congrArg (Option.map (factsObject options)) hfacts
    exact hfound (.facts hpresent)
  case warnings => exact fun hpresent => hfound (.warnings hpresent)
  case deprecations => exact fun hpresent => hfound (.deprecations hpresent)
  case values => exact fun value hshown => hfound (.value hshown)

/-! ## Texts of reports -/

theorem readable_deprecationObject (depth : Nat) (x : Deprecation) :
    Json.Readable (depth + 1) (deprecationObject x) := by
  refine .obj fun field hfield => ?_
  have hstr : ∃ text, field.2 = .str text := by
    simp only [List.mem_cons, List.mem_append, List.mem_map, or_assoc] at hfield
    obtain rfl | ⟨text, -, rfl⟩ | ⟨text, -, rfl⟩ | ⟨text, -, rfl⟩ := hfield <;> exact ⟨_, rfl⟩
  obtain ⟨text, htext⟩ := hstr
  rw [htext]
  exact .scalar (.str text)

variable {depth : Nat}

theorem readable_diffObject {x : ValueDiff}
    (hbefore : ∀ value ∈ x.before, Json.Readable depth value.2)
    (hafter : ∀ value ∈ x.after, Json.Readable depth value.2) :
    Json.Readable (depth + 2) (diffObject x) := by
  refine .obj fun field hfield => ?_
  obtain rfl | rfl := List.mem_pair.mp hfield
  · exact .obj hbefore
  · exact .obj hafter

theorem readable_factsObject {facts : Bindings}
    (hfacts : ∀ value ∈ facts, Json.Readable depth value.2) :
    Json.Readable (depth + 2) (factsObject options facts) := by
  have hobject : Json.Readable (depth + 1) (.obj (Json.sortFields facts)) :=
    .obj fun field hfield => hfacts field (Json.mem_of_mem_sortFields hfield)
  unfold factsObject
  split
  · refine .obj fun field hfield => ?_
    rw [List.mem_singleton.mp hfield]
    exact hobject
  · exact hobject.mono (Nat.le_succ _)

/-- Around the values of a store a report has three objects at the most. -/
theorem readable_toJson (hvalues : ∀ entry ∈ s.entries,
      Json.Readable depth entry.2.value ∧ Json.Readable depth entry.2.initial) :
    Json.Readable (depth + 3) (ofStore s options d).1.toJson := by
  have hvaluesWhere : ∀ shown, ∀ value ∈ s.valuesWhere shown, Json.Readable depth value.2 := by
    intro shown value hvalue
    obtain ⟨v, hv, heq⟩ := VariableStore.exists_of_mem_valuesWhere hvalue
    rw [heq]
    exact (hvalues _ hv).1
  have hinitialsWhere : ∀ shown, ∀ value ∈ s.initialsWhere shown, Json.Readable depth value.2 := by
    intro shown value hvalue
    obtain ⟨v, hv, heq⟩ := VariableStore.exists_of_mem_initialsWhere hvalue
    rw [heq]
    exact (hvalues _ hv).2
  refine .obj fun field hfield => ?_
  cases mem_fields.mp hfield with
  | changed => exact .scalar (.bool _)
  | message => exact .scalar (.str _)
  | @diff x hpresent =>
      have hdiff : s.diff options.verbosity = some x := by
        by_cases hmode : options.diffMode = true
        · exact (if_pos hmode).symm.trans hpresent
        · exact absurd ((if_neg hmode).symm.trans hpresent) nofun
      obtain ⟨hbefore, hafter⟩ := VariableStore.before_after_of_diff hdiff
      exact readable_diffObject (hbefore ▸ hinitialsWhere _) (hafter ▸ hvaluesWhere _)
  | facts hpresent =>
      obtain ⟨bindings, hbindings, rfl⟩ := Option.map_eq_some_iff.mp hpresent
      rw [VariableStore.eq_of_facts hbindings]
      exact readable_factsObject (hvaluesWhere _)
  | value hshown =>
      have hvalue := hvaluesWhere (·.showsOutput options.verbosity) field hshown
      exact hvalue.mono (by omega)
  | warnings =>
      exact (Json.readable_ofStrings depth d.warnings).mono (by omega)
  | deprecations =>
      refine .arr fun v hv => ?_
      obtain ⟨x, -, rfl⟩ := List.mem_map.mp hv
      exact readable_deprecationObject depth x

/-- The report on a store filled by calls has keys that are all different, unless a value is under
the key of another field. Without one, every part of the report is found under its key in the object,
and it is this object that is read from the texts of the report. -/
theorem ofStore_reads_back (calls : List StoreCall) (options : ReportOptions) (d : Diagnostics) :
    let s := VariableStore.after calls
    let report := (ofStore s options d).1
    ((report.fields.map (·.1)).Nodup ↔
        ∀ value ∈ s.output options.verbosity, ¬ report.Clashes value.1) ∧
      ((∀ value ∈ s.output options.verbosity, ¬ report.Clashes value.1) →
        Recounts report.toJson s options d) ∧
      ((∀ value ∈ StoreCall.given calls, Json.Readable (Json.maxDepth - 4) value) →
        Json.parse? report.toJson.compact = some report.toJson ∧
          Json.parse? report.toJson.pretty = some report.toJson) := by
  intro s report
  have hrecounts := VariableStore.recounts_after calls
  have hsublist : ((s.output options.verbosity).map (·.1)).Sublist s.names :=
    VariableStore.names_valuesWhere_sublist
  have hdiff : "diff" ∉ (s.output options.verbosity).map (·.1) := fun hmem =>
    absurd (hrecounts.free "diff" (hsublist.subset hmem)) (by decide)
  have hkeys : (report.fields.map (·.1)).Nodup ↔
      ∀ value ∈ s.output options.verbosity, ¬ report.Clashes value.1 :=
    (nodup_keys_iff (hsublist.nodup hrecounts.nodup) hdiff).trans List.forall_mem_map
  refine ⟨hkeys, fun hfree => recounts_toJson (hkeys.mpr hfree) hdiff, fun hgiven => ?_⟩
  have hreadable : Json.Readable (Json.maxDepth - 4 + 3) report.toJson := by
    refine readable_toJson fun entry hentry => ?_
    obtain ⟨hvalue, hinitial⟩ := VariableStore.given_of_mem_after hentry
    exact ⟨hgiven _ hvalue, hgiven _ hinitial⟩
  exact ⟨hreadable.parse?_compact (by decide), hreadable.parse?_pretty (by decide)⟩

/-- A variable of the name `changed` is reported under a key that is there already, and it is what a
reader finds under it. -/
theorem ofStore_changed_twice :
    let s := VariableStore.after [.set "changed" (.str "x")]
    let report := (ofStore s ⟨0, false, none, false, ""⟩ .empty).1
    report.toJson.compact = "\x7b\"changed\":false,\"changed\":\"x\"\x7d" ∧
      ¬ (report.fields.map (·.1)).Nodup ∧
      ∃ object, Json.parse? report.toJson.compact = some object ∧
        object.get? "changed" = some (.str "x") := by
  intro s report
  have hobject : report.toJson = .obj [("changed", .bool false), ("changed", .str "x")] := rfl
  have hreadable : Json.Readable 1 report.toJson := by
    rw [hobject]
    refine .obj fun field hfield => ?_
    obtain rfl | rfl := List.mem_pair.mp hfield
    · exact .scalar (.bool false)
    · exact .scalar (.str "x")
  refine ⟨?_, ?_, _, hreadable.parse?_compact (by decide), rfl⟩
  · rw [hobject]
    rfl
  · decide

end TaskTags.Report
