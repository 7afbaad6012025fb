import Mathlib.Data.List.Nodup
import TaskTags.Json.Basic

/-!
# Fields of objects

What is found under a key, and what fields are left when they are sorted.
-/

namespace TaskTags.Json

variable {fields : List (String × Json)} {key : String} {value : Json}

theorem field?_eq_none (h : key ∉ fields.map (·.1)) : field? fields key = none := by
  rw [field?, Option.map_eq_none_iff, List.find?_eq_none]
  intro field hfield hkey
  have hname : field.1 = key := by simpa using hkey
  exact h (List.mem_map.mpr ⟨field, List.mem_reverse.mp hfield, hname⟩)

/-- Where all keys are different, each field is found. -/
theorem field?_eq_some (hnodup : (fields.map (·.1)).Nodup) (h : (key, value) ∈ fields) :
    field? fields key = some value := by
  have hfound : (fields.reverse.find? (·.1 == key)).isSome := by
    rw [List.find?_isSome]
    exact ⟨(key, value), List.mem_reverse.mpr h, beq_self_eq_true key⟩
  obtain ⟨field, hfield⟩ := Option.isSome_iff_exists.mp hfound
  have hkey : field.1 = key := by simpa using List.find?_some hfield
  have hmem : field ∈ fields := List.mem_reverse.mp (List.mem_of_find?_eq_some hfield)
  have heq : field = (key, value) := List.inj_on_of_nodup_map hnodup hmem h hkey
  rw [field?, hfield, heq]
  rfl

theorem mem_insertField {field : String × Json} (h : field ∈ insertField key value fields) :
    field = (key, value) ∨ field ∈ fields := by
  induction fields with
  | nil => exact .inl (List.mem_singleton.mp h)
  | cons first rest ih =>
      rw [insertField] at h
      split at h
      · exact (List.mem_cons.mp h).imp_right (List.mem_cons_of_mem first)
      split at h
      · exact List.mem_cons.mp h
      · obtain rfl | h := List.mem_cons.mp h
        · exact .inr List.mem_cons_self
        · exact (ih h).imp_right (List.mem_cons_of_mem first)

theorem mem_of_mem_sortFields {field : String × Json} (h : field ∈ sortFields fields) :
    field ∈ fields := by
  have hfold : ∀ done,
      field ∈ fields.foldl (fun done field => insertField field.1 field.2 done) done →
        field ∈ fields ∨ field ∈ done := by
    clear h
    induction fields with
    | nil => exact fun _ h => .inr h
    | cons first rest ih =>
        intro done h
        obtain h | h := ih _ h
        · exact .inl (List.mem_cons_of_mem first h)
        · obtain rfl | h := mem_insertField h
          · exact .inl List.mem_cons_self
          · exact .inr h
  exact (hfold [] h).resolve_right List.not_mem_nil

theorem field?_cons (field : String × Json) :
    field? (field :: fields) key
      = (field? fields key).or (if field.1 = key then some field.2 else none) := by
  rw [field?, field?, List.reverse_cons, List.find?_append, Option.map_or, List.find?_singleton]
  by_cases hkey : field.1 = key <;> simp [hkey]

/-- Of fields with one key the last one is found. -/
theorem field?_of_last {back : List (String × Json)} (h : key ∉ back.map (·.1)) :
    field? (fields ++ (key, value) :: back) key = some value := by
  induction fields with
  | nil => rw [List.nil_append, field?_cons, field?_eq_none h, if_pos rfl, Option.none_or]
  | cons field rest ih => rw [List.cons_append, field?_cons, ih, Option.some_or]

/-! ## Sorted fields -/

/-- Fields by increasing key, each key once. -/
def Sorted (fields : List (String × Json)) : Prop :=
  fields.Pairwise fun field later => Text.precedes field.1 later.1 = true

theorem Sorted.insertField (h : Sorted fields) : Sorted (insertField key value fields) := by
  induction fields with
  | nil => exact List.pairwise_singleton _ _
  | cons first rest ih =>
      obtain ⟨k, v⟩ := first
      obtain ⟨hfirst, hrest⟩ := List.pairwise_cons.mp h
      rw [Json.insertField]
      split
      · next heq => exact List.pairwise_cons.mpr ⟨heq ▸ hfirst, hrest⟩
      split
      · next hlt =>
        refine List.pairwise_cons.mpr ⟨fun field hfield => ?_, h⟩
        obtain rfl | hfield := List.mem_cons.mp hfield
        · exact hlt
        · exact Text.precedes_trans hlt (hfirst field hfield)
      · next hne hnot =>
        refine List.pairwise_cons.mpr ⟨fun field hfield => ?_, ih hrest⟩
        obtain rfl | hfield := mem_insertField hfield
        · exact ((Text.precedes_trichotomy key k).resolve_left hnot).resolve_left hne
        · exact hfirst field hfield

theorem Sorted.not_mem_keys {field : String × Json} (h : Sorted (field :: fields)) :
    field.1 ∉ fields.map (·.1) := by
  intro hmem
  obtain ⟨later, hlater, heq⟩ := List.mem_map.mp hmem
  have hlt := (List.pairwise_cons.mp h).1 later hlater
  rw [heq, Text.precedes_irrefl] at hlt
  cases hlt

theorem field?_cons_of_sorted {other : String} (h : Sorted ((key, value) :: fields)) :
    field? ((key, value) :: fields) other
      = if key = other then some value else field? fields other := by
  rw [field?_cons]
  by_cases hkey : key = other
  · rw [← hkey, field?_eq_none h.not_mem_keys, if_pos rfl, Option.none_or]
  · rw [if_neg hkey, if_neg hkey, Option.or_none]

theorem field?_insertField {other : String} (h : Sorted fields) :
    field? (insertField key value fields) other
      = if key = other then some value else field? fields other := by
  induction fields with
  | nil => exact field?_cons_of_sorted (List.pairwise_singleton _ _)
  | cons first rest ih =>
      obtain ⟨k, v⟩ := first
      have hrest : Sorted rest := (List.pairwise_cons.mp h).2
      have hsorted : Sorted (insertField key value ((k, v) :: rest)) := h.insertField
      rw [insertField] at hsorted ⊢
      by_cases hkey : key = k
      · rw [if_pos hkey] at hsorted ⊢
        rw [field?_cons_of_sorted hsorted, field?_cons_of_sorted h, hkey]
        by_cases hother : k = other
        · rw [if_pos hother, if_pos hother]
        · rw [if_neg hother, if_neg hother, if_neg hother]
      · rw [if_neg hkey] at hsorted ⊢
        by_cases hlt : Text.precedes key k = true
        · rw [if_pos hlt] at hsorted ⊢
          exact field?_cons_of_sorted hsorted
        · rw [if_neg hlt, field?_cons, field?_cons, ih hrest]
          by_cases hother : key = other
          · rw [if_pos hother, if_pos hother, Option.some_or]
          · rw [if_neg hother, if_neg hother]

/-- Sorting changes nothing about what is found. -/
theorem field?_sortFields (fields : List (String × Json)) (key : String) :
    field? (sortFields fields) key = field? fields key := by
  have hfold : ∀ done, Sorted done →
      field? (fields.foldl (fun done field => insertField field.1 field.2 done) done) key
        = (field? fields key).or (field? done key) := by
    induction fields with
    | nil => exact fun done _ => rfl
    | cons field rest ih =>
        intro done hdone
        rw [List.foldl_cons, ih _ hdone.insertField, field?_insertField hdone, field?_cons,
          Option.or_assoc]
        by_cases hkey : field.1 = key
        · rw [if_pos hkey, if_pos hkey, Option.some_or]
        · rw [if_neg hkey, if_neg hkey, Option.none_or]
  exact (hfold [] List.Pairwise.nil).trans Option.or_none

end TaskTags.Json
