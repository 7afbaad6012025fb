import Mathlib.Data.List.Nodup
import TaskTags.Store.Basic

/-!
# Variables by their names

What putting a variable into a store does to its names and to what is found under them, and which
variables the projections of a store show.
-/

namespace TaskTags.VariableStore

variable {s : VariableStore} {name other : String} {v : Variable}

theorem names_put :
    (s.put name v).names = if name ∈ s.names then s.names else s.names ++ [name] := by
  unfold put
  by_cases hmem : name ∈ s.names
  · rw [if_pos hmem, if_pos hmem, names, names, List.map_map]
    refine List.map_congr_left fun entry _ => ?_
    by_cases hname : entry.1 = name <;> simp [hname]
  · rw [if_neg hmem, if_neg hmem, names, List.map_append]
    rfl

theorem mem_names_put : other ∈ (s.put name v).names ↔ other ∈ s.names ∨ other = name := by
  rw [names_put]
  by_cases hmem : name ∈ s.names
  · rw [if_pos hmem]
    exact ⟨.inl, fun h => h.elim id fun heq => heq ▸ hmem⟩
  · rw [if_neg hmem, List.mem_append, List.mem_singleton]

theorem nodup_names_put (h : s.names.Nodup) : (s.put name v).names.Nodup := by
  rw [names_put]
  by_cases hmem : name ∈ s.names
  · rwa [if_pos hmem]
  · rw [if_neg hmem]
    exact List.nodup_append.mpr ⟨h, List.nodup_singleton name, fun a ha b hb heq =>
      hmem (List.mem_singleton.mp hb ▸ heq ▸ ha)⟩

theorem find?_eq_none_iff : s.find? name = none ↔ name ∉ s.names := by
  rw [find?, Option.map_eq_none_iff, List.find?_eq_none, names, List.mem_map]
  simp only [beq_iff_eq, not_exists, not_and]

theorem lookup_eq_ok_iff : s.lookup name = .ok v ↔ s.find? name = some v := by
  unfold lookup
  cases s.find? name <;> simp

theorem mem_names_of_find? (h : s.find? name = some v) : name ∈ s.names := by
  by_contra hmem
  rw [find?_eq_none_iff.mpr hmem] at h
  cases h

theorem exists_find?_of_mem (h : name ∈ s.names) : ∃ v, s.find? name = some v := by
  rw [← Option.isSome_iff_exists, Option.isSome_iff_ne_none, ne_eq, find?_eq_none_iff, not_not]
  exact h

section Entries

variable {entries : List (String × Variable)}

theorem find?_map_replace_self (h : name ∈ entries.map (·.1)) :
    (entries.map fun entry => if entry.1 = name then (name, v) else entry).find? (·.1 == name)
      = some (name, v) := by
  induction entries with
  | nil => cases h
  | cons entry rest ih =>
      by_cases hname : entry.1 = name
      · simp [hname]
      · have hrest : name ∈ rest.map (·.1) :=
          (List.mem_cons.mp h).resolve_left fun heq => hname heq.symm
        rw [List.map_cons, if_neg hname, List.find?_cons_of_neg (by simpa using hname)]
        exact ih hrest

theorem find?_map_replace_of_ne (h : other ≠ name) :
    (entries.map fun entry => if entry.1 = name then (name, v) else entry).find? (·.1 == other)
      = entries.find? (·.1 == other) := by
  induction entries with
  | nil => rfl
  | cons entry rest ih =>
      by_cases hname : entry.1 = name
      · rw [List.map_cons, if_pos hname, List.find?_cons_of_neg (by simpa using h.symm),
          List.find?_cons_of_neg (by simpa [hname] using h.symm), ih]
      · rw [List.map_cons, if_neg hname, List.find?_cons, List.find?_cons, ih]

end Entries

theorem find?_put_self : (s.put name v).find? name = some v := by
  unfold put
  by_cases hmem : name ∈ s.names
  · rw [if_pos hmem, find?, find?_map_replace_self hmem]
    rfl
  · have hnone : s.entries.find? (·.1 == name) = none :=
      Option.map_eq_none_iff.mp (find?_eq_none_iff.mpr hmem)
    rw [if_neg hmem, find?, List.find?_append, hnone]
    simp

theorem find?_put_of_ne (h : other ≠ name) : (s.put name v).find? other = s.find? other := by
  unfold put
  by_cases hmem : name ∈ s.names
  · rw [if_pos hmem, find?, find?_map_replace_of_ne h]
    rfl
  · rw [if_neg hmem, find?, List.find?_append]
    simp [find?, h.symm]

/-- With every name once, each entry is what is found under its name. -/
theorem find?_eq_some_iff (h : s.names.Nodup) : s.find? name = some v ↔ (name, v) ∈ s.entries := by
  constructor
  · intro hfind
    obtain ⟨entry, hentry, rfl⟩ := Option.map_eq_some_iff.mp hfind
    have hname : entry.1 = name := by simpa using List.find?_some hentry
    have hmem := List.mem_of_find?_eq_some hentry
    rwa [← hname]
  · intro hmem
    obtain ⟨w, hw⟩ := exists_find?_of_mem (List.mem_map_of_mem (f := (·.1)) hmem)
    obtain ⟨entry, hentry, rfl⟩ := Option.map_eq_some_iff.mp hw
    have hname : entry.1 = name := by simpa using List.find?_some hentry
    have heq : entry = (name, v) :=
      List.inj_on_of_nodup_map h (List.mem_of_find?_eq_some hentry) hmem hname
    rw [hw, heq]

/-- With every name once, putting a variable where it is changes nothing. -/
theorem put_of_find? (h : s.names.Nodup) (hfind : s.find? name = some v) : s.put name v = s := by
  have hentry := (find?_eq_some_iff h).mp hfind
  unfold put
  rw [if_pos (mem_names_of_find? hfind)]
  refine congrArg VariableStore.mk (List.map_congr_left (g := id) ?_ |>.trans (List.map_id _))
  intro entry hmem
  by_cases hname : entry.1 = name
  · rw [if_pos hname]
    exact List.inj_on_of_nodup_map h hentry hmem hname.symm
  · rw [if_neg hname, id]

/-- A store has changed exactly if one of its variables has. -/
theorem hasChanged_iff (h : s.names.Nodup) :
    s.hasChanged = true ↔ ∃ name v, s.find? name = some v ∧ v.hasChanged = true := by
  rw [hasChanged, List.any_eq_true]
  constructor
  · rintro ⟨⟨name, v⟩, hmem, hchanged⟩
    exact ⟨name, v, (find?_eq_some_iff h).mpr hmem, hchanged⟩
  · rintro ⟨name, v, hfind, hchanged⟩
    exact ⟨(name, v), (find?_eq_some_iff h).mp hfind, hchanged⟩

/-! ## Projections -/

variable {shown : Variable → Bool}

theorem names_valuesWhere_sublist : ((s.valuesWhere shown).map (·.1)).Sublist s.names := by
  rw [valuesWhere, List.map_map, names]
  exact List.filter_sublist.map _

theorem exists_of_mem_valuesWhere {binding : String × Json} (h : binding ∈ s.valuesWhere shown) :
    ∃ v, (binding.1, v) ∈ s.entries ∧ binding.2 = v.value := by
  obtain ⟨entry, hentry, rfl⟩ := List.mem_map.mp h
  exact ⟨entry.2, List.mem_of_mem_filter hentry, rfl⟩

theorem exists_of_mem_initialsWhere {binding : String × Json}
    (h : binding ∈ s.initialsWhere shown) :
    ∃ v, (binding.1, v) ∈ s.entries ∧ binding.2 = v.initial := by
  obtain ⟨entry, hentry, rfl⟩ := List.mem_map.mp h
  exact ⟨entry.2, List.mem_of_mem_filter hentry, rfl⟩

theorem before_after_of_diff {verbosity : Nat} {x : ValueDiff} (h : s.diff verbosity = some x) :
    x.before = s.initialsWhere (·.showsDiff verbosity) ∧
      x.after = s.valuesWhere (·.showsDiff verbosity) := by
  simp only [diff] at h
  split at h
  · cases h
  · cases h
    exact ⟨rfl, rfl⟩

theorem names_diff (s : VariableStore) (verbosity : Nat) :
    (s.diff verbosity).elim [] (·.before.map (·.1))
        = (s.entries.filter (·.2.showsDiff verbosity)).map (·.1) ∧
      (s.diff verbosity).elim [] (·.after.map (·.1))
        = (s.entries.filter (·.2.showsDiff verbosity)).map (·.1) := by
  simp only [diff, initialsWhere, valuesWhere, List.isEmpty_map]
  by_cases hnone : (s.entries.filter (·.2.showsDiff verbosity)).isEmpty = true
  · rw [if_pos hnone, List.isEmpty_iff.mp hnone]
    exact ⟨rfl, rfl⟩
  · rw [if_neg hnone]
    simp only [Option.elim_some, List.map_map]
    exact ⟨rfl, rfl⟩

theorem eq_of_facts {facts : Bindings} (h : s.facts = some facts) :
    facts = s.valuesWhere (·.fact) := by
  simp only [VariableStore.facts] at h
  split at h
  · cases h
  · exact (Option.some.inj h).symm

end TaskTags.VariableStore
