import TaskTags.Tag.Basic
import TaskTags.Text.Blank

/-!
Finite sets of tags, as strictly increasing lists. `mem_insert`, `mem_ofList` and `mem_union` give
their members; two sets with the same members are equal.
-/

namespace TaskTags

structure TagSet where
  toList : List Tag
  increasing : toList.Pairwise (· < ·)

namespace TagSet

instance : DecidableEq TagSet := fun a b =>
  decidable_of_iff (a.toList = b.toList) ⟨fun h => by cases a; cases b; simp_all, fun h => h ▸ rfl⟩

instance : Membership Tag TagSet := ⟨fun s tag => tag ∈ s.toList⟩

instance (tag : Tag) (s : TagSet) : Decidable (tag ∈ s) :=
  inferInstanceAs (Decidable (tag ∈ s.toList))

theorem mem_def {tag : Tag} {s : TagSet} : tag ∈ s ↔ tag ∈ s.toList := Iff.rfl

def empty : TagSet := ⟨[], .nil⟩

instance : EmptyCollection TagSet := ⟨empty⟩
instance : Inhabited TagSet := ⟨empty⟩

def isEmpty (s : TagSet) : Bool := s.toList.isEmpty

def insertSorted (tag : Tag) : List Tag → List Tag
  | [] => [tag]
  | t :: rest =>
    if tag < t then tag :: t :: rest
    else if tag = t then t :: rest
    else t :: insertSorted tag rest

theorem mem_insertSorted {a tag : Tag} {ts : List Tag} :
    a ∈ insertSorted tag ts ↔ a = tag ∨ a ∈ ts := by
  induction ts with
  | nil => simp [insertSorted]
  | cons t rest ih =>
    simp only [insertSorted]
    split
    · simp
    · split
      · next h => subst h; simp
      · simp only [List.mem_cons, ih]
        constructor
        · rintro (h | h | h) <;> simp [h]
        · rintro (h | h | h) <;> simp [h]

theorem pairwise_insertSorted {tag : Tag} {ts : List Tag} (h : ts.Pairwise (· < ·)) :
    (insertSorted tag ts).Pairwise (· < ·) := by
  induction ts with
  | nil => simp [insertSorted]
  | cons t rest ih =>
    obtain ⟨ht, hrest⟩ := List.pairwise_cons.mp h
    simp only [insertSorted]
    split
    · next hlt =>
      refine List.pairwise_cons.mpr ⟨fun a ha => ?_, h⟩
      rcases List.mem_cons.mp ha with rfl | ha
      · exact hlt
      · exact Tag.lt_trans hlt (ht a ha)
    · split
      · exact h
      · next hlt hne =>
        refine List.pairwise_cons.mpr ⟨fun a ha => ?_, ih hrest⟩
        rcases mem_insertSorted.mp ha with rfl | ha
        · exact (Tag.lt_trichotomy a t).elim (absurd · hlt) (·.elim (absurd · hne) id)
        · exact ht a ha

def insert (tag : Tag) (s : TagSet) : TagSet :=
  ⟨insertSorted tag s.toList, pairwise_insertSorted s.increasing⟩

@[simp]
theorem mem_insert {a tag : Tag} {s : TagSet} : a ∈ s.insert tag ↔ a = tag ∨ a ∈ s :=
  mem_insertSorted

@[simp]
theorem not_mem_empty {a : Tag} : a ∉ (∅ : TagSet) :=
  List.not_mem_nil

def extend (s : TagSet) (tags : List Tag) : TagSet :=
  tags.foldl (fun s tag => s.insert tag) s

theorem mem_extend {a : Tag} {s : TagSet} {tags : List Tag} :
    a ∈ s.extend tags ↔ a ∈ s ∨ a ∈ tags := by
  induction tags generalizing s with
  | nil => simp [extend]
  | cons t rest ih =>
    show a ∈ (s.insert t).extend rest ↔ _
    rw [ih]
    simp only [mem_insert, List.mem_cons]
    constructor
    · rintro ((h | h) | h) <;> simp [h]
    · rintro (h | h | h) <;> simp [h]

def ofList (tags : List Tag) : TagSet :=
  (∅ : TagSet).extend tags

@[simp]
theorem mem_ofList {a : Tag} {tags : List Tag} : a ∈ ofList tags ↔ a ∈ tags := by
  simp [ofList, mem_extend]

def union (s t : TagSet) : TagSet :=
  s.extend t.toList

@[simp]
theorem mem_union {a : Tag} {s t : TagSet} : a ∈ s.union t ↔ a ∈ s ∨ a ∈ t :=
  mem_extend

/-- Increasing lists with the same members are equal. -/
theorem eq_of_pairwise_of_mem_iff {xs ys : List Tag} (hx : xs.Pairwise (· < ·))
    (hy : ys.Pairwise (· < ·)) (h : ∀ a, a ∈ xs ↔ a ∈ ys) : xs = ys := by
  induction xs generalizing ys with
  | nil =>
    cases ys with
    | nil => rfl
    | cons y ys => exact absurd ((h y).mpr (by simp)) List.not_mem_nil
  | cons x xs ih =>
    cases ys with
    | nil => exact absurd ((h x).mp (by simp)) List.not_mem_nil
    | cons y ys =>
      obtain ⟨hx₁, hx₂⟩ := List.pairwise_cons.mp hx
      obtain ⟨hy₁, hy₂⟩ := List.pairwise_cons.mp hy
      have hxy : x = y := by
        rcases List.mem_cons.mp ((h x).mp (by simp)) with e | e
        · exact e
        · rcases List.mem_cons.mp ((h y).mpr (by simp)) with e' | e'
          · exact e'.symm
          · exact absurd (Tag.lt_trans (hy₁ x e) (hx₁ y e')) (Tag.lt_irrefl y)
      subst hxy
      refine congrArg (x :: ·) (ih hx₂ hy₂ fun a => ⟨fun ha => ?_, fun ha => ?_⟩)
      · rcases List.mem_cons.mp ((h a).mp (List.mem_cons_of_mem x ha)) with rfl | ha'
        · exact absurd (hx₁ a ha) (Tag.lt_irrefl a)
        · exact ha'
      · rcases List.mem_cons.mp ((h a).mpr (List.mem_cons_of_mem x ha)) with rfl | ha'
        · exact absurd (hy₁ a ha) (Tag.lt_irrefl a)
        · exact ha'

theorem ext {s t : TagSet} (h : ∀ a, a ∈ s ↔ a ∈ t) : s = t := by
  have := eq_of_pairwise_of_mem_iff s.increasing t.increasing h
  cases s; cases t; simp_all

def Disjoint (s t : TagSet) : Prop := ∀ tag ∈ s.toList, tag ∉ t

instance (s t : TagSet) : Decidable (s.Disjoint t) :=
  inferInstanceAs (Decidable (∀ tag ∈ s.toList, tag ∉ t))

def meets (s t : TagSet) : Bool :=
  s.toList.any fun tag => decide (tag ∈ t)

/-- The tags by their texts, separated by comma and blank. -/
def display (s : TagSet) : String :=
  String.intercalate ", " (s.toList.map Tag.display)

/-- The tags of command line values: the comma separated pieces of each. -/
def ofValues (values : List String) : TagSet :=
  ofList ((values.flatMap Text.commaPieces).map Tag.str)

end TagSet
end TaskTags
