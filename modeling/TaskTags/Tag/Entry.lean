import TaskTags.Tag.Set

/-!
Entries of a tag declaration: one tag, or a list of tags. Flattening forgets the grouping.
-/

namespace TaskTags

inductive TagEntry where
  | single (tag : Tag)
  | list (tags : List Tag)
deriving DecidableEq, Inhabited

namespace TagEntry

def tags : TagEntry → List Tag
  | .single tag => [tag]
  | .list tags => tags

def allTags (entries : List TagEntry) : List Tag :=
  entries.flatMap tags

def flatten (entries : List TagEntry) : TagSet :=
  TagSet.ofList (allTags entries)

/-- The entries of a set: its tags one by one, in order. -/
def ofSet (s : TagSet) : List TagEntry :=
  s.toList.map single

@[simp]
theorem mem_flatten {tag : Tag} {entries : List TagEntry} :
    tag ∈ flatten entries ↔ ∃ entry ∈ entries, tag ∈ entry.tags := by
  simp [flatten, allTags]

theorem allTags_ofSet (s : TagSet) : allTags (ofSet s) = s.toList := by
  simp [allTags, ofSet, List.flatMap_map, tags]

@[simp]
theorem flatten_ofSet (s : TagSet) : flatten (ofSet s) = s :=
  TagSet.ext fun tag => by rw [flatten, allTags_ofSet, TagSet.mem_ofList, TagSet.mem_def]

end TagEntry
end TaskTags
