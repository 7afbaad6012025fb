import TaskTags.Proofs.Playbook.Place

/-!
# The grammar of playbooks

A document is a playbook if it follows the rules for plays and tasks at every depth, which is the
case exactly if all of its places fit.
-/

namespace TaskTags

open Yaml (Value)

namespace Playbook

/-- The declarations of a play, a block or a task: tags, and variables in a mapping without tag. -/
structure Declares (entries : List (Value × Value)) : Prop where
  tags : TagEntry.Loadable (fieldOf entries "tags")
  vars : fieldOf entries "vars" = .null ∨
    ∃ vars, fieldOf entries "vars" = .map vars ∧ Value.entriesFitJson vars = true

mutual
/-- Only a block has a `block`, and only there the other parts of a block matter. -/
inductive IsTask : Value → Prop
  | task {v : Value} {entries : List (Value × Value)} (mapping : v.asMap? = some entries)
      (declares : Declares entries) (kind : hasKey entries "block" = false) : IsTask v
  | block {v : Value} {entries : List (Value × Value)} (mapping : v.asMap? = some entries)
      (declares : Declares entries) (kind : hasKey entries "block" = true)
      (body : IsTaskList (fieldOf entries "block")) (rescue : IsTaskList (fieldOf entries "rescue"))
      (always : IsTaskList (fieldOf entries "always")) : IsTask v

inductive IsTaskList : Value → Prop
  | none : IsTaskList .null
  | list {items : List Value} (tasks : ∀ v ∈ items, IsTask v) : IsTaskList (.list items)
end

inductive IsPlay : Value → Prop
  | play {v : Value} {entries : List (Value × Value)} (mapping : v.asMap? = some entries)
      (declares : Declares entries)
      (sections : ∀ s ∈ Section.all, IsTaskList (fieldOf entries s.key)) : IsPlay v

inductive IsPlaybook : Value → Prop
  | none : IsPlaybook .null
  | list {items : List Value} (plays : ∀ v ∈ items, IsPlay v) : IsPlaybook (.list items)

/-! ## Documents all of whose places fit -/

theorem declares_iff (owner : String) (entries : List (Value × Value)) :
    Declares entries ↔ ∀ place ∈ Declared.places owner entries, place.fits = true := by
  have hvars : (Place.vars owner (fieldOf entries "vars")).fits = true ↔
      (fieldOf entries "vars" = .null ∨
        ∃ vars, fieldOf entries "vars" = .map vars ∧ Value.entriesFitJson vars = true) := by
    cases fieldOf entries "vars" <;> simp [Place.fits]
  have htags : (∀ place ∈ (TagEntry.scalars (fieldOf entries "tags")).map (Place.tag owner),
      place.fits = true) ↔ ∀ s ∈ TagEntry.scalars (fieldOf entries "tags"), Tag.isTag s = true :=
    List.forall_mem_map
  rw [Declared.places, List.forall_mem_append, List.forall_mem_cons, htags,
    List.forall_mem_singleton, hvars]
  constructor
  · intro h
    exact ⟨(TagEntry.loadable_iff _).mp h.tags, h.vars⟩
  · rintro ⟨hloadable, hvars⟩
    exact ⟨(TagEntry.loadable_iff _).mpr hloadable, hvars⟩

variable {v : Value} {entries : List (Value × Value)}

theorem isTask_iff_of_task (hmap : v.asMap? = some entries)
    (hkind : hasKey entries "block" = false) : IsTask v ↔ Declares entries := by
  constructor
  · rintro (⟨hmap', hdeclares, -⟩ | ⟨hmap', -, hkind', -, -, -⟩)
    · obtain rfl := Option.some.inj (hmap.symm.trans hmap')
      exact hdeclares
    · obtain rfl := Option.some.inj (hmap.symm.trans hmap')
      exact absurd hkind' (by simp [hkind])
  · intro hdeclares
    exact .task hmap hdeclares hkind

theorem isTask_iff_of_block (hmap : v.asMap? = some entries)
    (hkind : hasKey entries "block" = true) :
    IsTask v ↔ Declares entries ∧ IsTaskList (fieldOf entries "block") ∧
      IsTaskList (fieldOf entries "rescue") ∧ IsTaskList (fieldOf entries "always") := by
  constructor
  · rintro (⟨hmap', -, hkind'⟩ | ⟨hmap', hdeclares, -, hbody, hrescue, halways⟩)
    · obtain rfl := Option.some.inj (hmap.symm.trans hmap')
      exact absurd hkind' (by simp [hkind])
    · obtain rfl := Option.some.inj (hmap.symm.trans hmap')
      exact ⟨hdeclares, hbody, hrescue, halways⟩
  · rintro ⟨hdeclares, hbody, hrescue, halways⟩
    exact .block hmap hdeclares hkind hbody hrescue halways

theorem isTask_iff (v : Value) :
    (∀ owner, IsTask v ↔ ∀ place ∈ TaskNode.places owner v, place.fits = true) ∧
      ∀ owner, IsTaskList v ↔ ∀ place ∈ TaskNode.placesOfList owner v, place.fits = true := by
  apply TaskNode.valueInduction
    (fun v => ∀ owner, IsTask v ↔ ∀ place ∈ TaskNode.places owner v, place.fits = true)
    (fun v => ∀ owner,
      IsTaskList v ↔ ∀ place ∈ TaskNode.placesOfList owner v, place.fits = true)
  · intro v ih owner
    cases hmap : v.asMap? with
    | none =>
        constructor
        · rintro (⟨hmap', -, -⟩ | ⟨hmap', -, -, -, -, -⟩) <;> simp [hmap] at hmap'
        · intro hplaces
          rw [TaskNode.places] at hplaces
          have hfits := hplaces _ List.mem_cons_self
          simp [Place.fits, hmap] at hfits
    | some entries =>
        have hfits : (Place.task owner v).fits = true := by simp [Place.fits, hmap]
        have hpart := fun key => ih entries hmap key (TaskNode.nameOf entries)
        cases hkind : hasKey entries "block" with
        | false =>
            rw [isTask_iff_of_task hmap hkind, TaskNode.places_of_task owner hmap hkind,
              List.forall_mem_cons, ← declares_iff]
            exact (and_iff_right hfits).symm
        | true =>
            rw [isTask_iff_of_block hmap hkind, TaskNode.places_of_block owner hmap hkind,
              List.forall_mem_cons, List.forall_mem_append, List.forall_mem_append,
              List.forall_mem_append, ← declares_iff, ← hpart, ← hpart, ← hpart]
            exact (and_iff_right hfits).symm
  · intro v ih owner
    rcases TaskNode.list_cases v with rfl | ⟨items, rfl⟩ | ⟨hfits, hlist, -⟩
    · rw [TaskNode.placesOfList_of_not_list owner (by simp), List.forall_mem_singleton]
      exact iff_of_true .none rfl
    · have hitems : IsTaskList (.list items) ↔ ∀ item ∈ items, IsTask item := by
        constructor
        · rintro ⟨⟩
          assumption
        · exact .list
      rw [TaskNode.placesOfList_list, List.forall_mem_cons, List.forall_mem_flatMap, hitems]
      constructor
      · intro h
        exact ⟨rfl, fun item hitem => (ih items rfl item hitem owner).mp (h item hitem)⟩
      · intro h item hitem
        exact (ih items rfl item hitem owner).mpr (h.2 item hitem)
    · have htasks : ¬ IsTaskList v := by
        rintro (_ | _) <;> cases hfits
      rw [TaskNode.placesOfList_of_not_list owner hlist, List.forall_mem_singleton, Place.fits]
      exact iff_of_false htasks (by simp [hfits])

theorem isPlay_iff (number : Nat) (v : Value) :
    IsPlay v ↔ ∀ place ∈ Play.places number v, place.fits = true := by
  rw [Play.places]
  cases hmap : v.asMap? with
  | none =>
      apply iff_of_false
      · rintro ⟨hmap', -, -⟩
        simp [hmap] at hmap'
      · intro h
        have hplay := h _ List.mem_cons_self
        simp [Place.fits, hmap] at hplay
  | some entries =>
      have hfits : (Place.play number v).fits = true := by simp [Place.fits, hmap]
      have hsections : (∀ s ∈ Section.all, IsTaskList (fieldOf entries s.key)) ↔
          ∀ s ∈ Section.all, ∀ place ∈ TaskNode.placesOfList (Play.nameOf number entries)
            (fieldOf entries s.key), place.fits = true :=
        forall₂_congr fun s _ => (isTask_iff (fieldOf entries s.key)).2 _
      rw [List.forall_mem_cons, List.forall_mem_append, List.forall_mem_flatMap, ← declares_iff,
        ← hsections]
      constructor
      · rintro ⟨hmap', hdeclares, hlists⟩
        obtain rfl := Option.some.inj (hmap.symm.trans hmap')
        exact ⟨hfits, hdeclares, hlists⟩
      · rintro ⟨-, hdeclares, hlists⟩
        exact .play hmap hdeclares hlists

theorem isPlaybook_iff (v : Value) :
    IsPlaybook v ↔ ∀ place ∈ places v, place.fits = true := by
  rcases TaskNode.list_cases v with rfl | ⟨items, rfl⟩ | ⟨hfits, hlist, -⟩
  · exact iff_of_true .none (List.forall_mem_singleton.mpr rfl)
  · have hitems : IsPlaybook (.list items) ↔ ∀ item ∈ items, IsPlay item := by
      constructor
      · rintro ⟨⟩
        assumption
      · exact .list
    have hplays : (∀ item ∈ items, IsPlay item) ↔
        ∀ numbered ∈ items.zipIdx 1, IsPlay numbered.1 := by
      conv_lhs => rw [← List.zipIdx_map_fst 1 items]
      exact List.forall_mem_map
    rw [places, List.forall_mem_cons, List.forall_mem_flatMap, hitems, hplays]
    constructor
    · intro h
      exact ⟨rfl, fun numbered hmem => (isPlay_iff numbered.2 numbered.1).mp (h numbered hmem)⟩
    · intro h numbered hmem
      exact (isPlay_iff numbered.2 numbered.1).mpr (h.2 numbered hmem)
  · have hplaybook : ¬ IsPlaybook v := by
      rintro (_ | _) <;> cases hfits
    apply iff_of_false hplaybook
    intro h
    have hplays : (Place.plays v).fits = true := h _ List.mem_cons_self
    exact absurd hplays (by simp [Place.fits, hfits])

/-- A document is read as a playbook exactly if it follows the grammar. If it is refused, then with
the error of the first place that does not fit. -/
theorem ofValue_follows_grammar (v : Value) :
    ((∃ playbook, ofValue v = .ok playbook) ↔ IsPlaybook v) ∧
      ∀ e, ofValue v = .error e ↔ ∃ before place after, places v = before ++ place :: after ∧
        place.fits = false ∧ place.error = e ∧ ∀ earlier ∈ before, earlier.fits = true := by
  constructor
  · rw [(checks v).succeeds_iff, isPlaybook_iff]
  · intro e
    exact (checks v).fails_iff

end Playbook
end TaskTags
