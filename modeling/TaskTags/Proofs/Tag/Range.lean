import TaskTags.Proofs.Tag.Expansion
import TaskTags.Proofs.Tag.Loading

/-!
# The range of tags

The integers among tags have 64 bits, in the tags that are loaded and in those that templates come
to, so that all of them can be written as JSON and read again.
-/

namespace TaskTags

open Yaml (Value)

theorem forall_right_of_forall₂ {α β : Type} {R : α → β → Prop} {P : β → Prop} {xs : List α}
    {ys : List β} (h : List.Forall₂ R xs ys) (hP : ∀ x y, R x y → P y) : ∀ y ∈ ys, P y :=
  ((List.forall₂_and_left _ _).mp (h.flip.imp fun y x hxy => And.intro (hP x y hxy) hxy)).1

/-- A text, or an integer of 64 bits. -/
def Tag.InRange : Tag → Prop
  | .int n => Json.isInt64 n = true
  | .str _ => True

def TagEntry.InRange (entries : List TagEntry) : Prop :=
  ∀ tag ∈ allTags entries, tag.InRange

namespace Template.Value

theorem isInt64_of_integerOf? {x : Binary64} {n : Int} (h : integerOf? x = some n) :
    Json.isInt64 n = true := by
  rw [integerOf?] at h
  split at h
  · cases h
  · dsimp only at h
    split at h
    · next hfits =>
      obtain rfl := Option.some.inj h
      exact hfits
    · split at h
      · next hbound =>
        obtain rfl := Option.some.inj h
        rw [hbound]
        decide
      · cases h

theorem Denotes.inRange {v : Template.Value} {tag : Tag} (h : v.Denotes tag) : tag.InRange := by
  cases h with
  | int h => exact h
  | integral h => exact isInt64_of_integerOf? h
  | str | wide | float | bool => trivial

end Template.Value

namespace Tag

variable {tag : Tag} {vars : Bindings} {part : List Tag}

theorem ExpandsTo.inRange (h : tag.ExpandsTo vars part) (hrange : tag.InRange) :
    ∀ t ∈ part, t.InRange := by
  cases h with
  | plain => exact List.forall_mem_singleton.mpr hrange
  | expression _ _ h => exact forall_right_of_forall₂ h fun _ _ => Template.Value.Denotes.inRange
  | rendered => exact List.forall_mem_singleton.mpr trivial

theorem IsReadFrom.inRange {v : Value} (h : IsReadFrom v tag) : tag.InRange := by
  cases h with
  | text s => trivial
  | integer low high => exact Json.isInt64_iff.mpr ⟨low, high⟩

end Tag

namespace TagEntry

variable {entries resolved settled : List TagEntry} {vars : Bindings} {v : Value}

theorem InRange.on (hrange : InRange entries) (h : Templater.on vars entries = .ok resolved) :
    InRange resolved := by
  have hparts := map_allTags_on vars entries
  rw [h, Except.ok_map] at hparts
  obtain ⟨parts, hparts, hflatten⟩ := Except.map_eq_ok_iff.mp hparts.symm
  intro t ht
  rw [← hflatten] at ht
  obtain ⟨part, hpart, ht⟩ := List.mem_flatten.mp ht
  obtain ⟨tag, htag, hexpand⟩ := (Except.mem_of_mapM hparts).mp hpart
  exact (Tag.expandsTo_of_expand hexpand).inRange (hrange tag htag) t ht

theorem InRange.of_mem_flatten (hrange : InRange entries) {tag : Tag} (h : tag ∈ flatten entries) :
    tag.InRange := by
  rw [flatten, TagSet.mem_ofList] at h
  exact hrange tag h

theorem InRange.settle (hrange : InRange entries)
    (h : TagEntry.settle (Templater.on vars) entries = .ok settled) : InRange settled := by
  rw [settle_on] at h
  obtain ⟨resolved, hresolved, rfl⟩ := Except.map_eq_ok_iff.mp h
  intro tag htag
  rw [allTags_ofSet, ← TagSet.mem_def] at htag
  exact (hrange.on hresolved).of_mem_flatten htag

theorem IsReadFrom.inRange {entry : TagEntry} (h : IsReadFrom v entry) :
    ∀ tag ∈ entry.tags, tag.InRange := by
  cases h with
  | single h => exact List.forall_mem_singleton.mpr h.inRange
  | list h => exact forall_right_of_forall₂ h fun _ _ => Tag.IsReadFrom.inRange

/-- The tags of a declaration that is loaded are in range. -/
theorem AreReadFrom.inRange (h : AreReadFrom v entries) : InRange entries := by
  have hentries : ∀ entry ∈ entries, ∀ tag ∈ entry.tags, tag.InRange := by
    cases h with
    | none => exact nofun
    | text =>
        intro entry hentry
        obtain ⟨piece, -, rfl⟩ := List.mem_map.mp hentry
        exact List.forall_mem_singleton.mpr trivial
    | list h => exact forall_right_of_forall₂ h fun _ _ => IsReadFrom.inRange
  intro tag htag
  obtain ⟨entry, hentry, htag⟩ := List.mem_flatMap.mp htag
  exact hentries entry hentry tag htag

end TagEntry
end TaskTags
