import TaskTags.Tag.Set

/-!
The decision whether a unit of work runs, from its tags and a filter of tags to run and tags to
skip. A unit without tags counts as one with the tag `untagged` alone.
-/

namespace TaskTags

structure TagFilter where
  only : TagSet
  skip : TagSet
deriving DecidableEq, Inhabited

namespace TagFilter

def untagged : TagSet := TagSet.ofList [Tag.untagged]

/-- The tags that a decision looks at. -/
def effective (own : TagSet) : TagSet :=
  if own.isEmpty then untagged else own

/-- Whether `tagged` stands for the unit. -/
def isTagged (tags : TagSet) : Bool :=
  tags ≠ untagged

/-- A unit is included if nothing is requested, if it is `always` to run, if it has a requested tag,
or if `all` or `tagged` is requested, stands for it, and it is not `never` to run. -/
def includes (only tags : TagSet) : Bool :=
  only.isEmpty || decide (Tag.always ∈ tags) ||
    (decide (Tag.all ∈ only) && decide (Tag.never ∉ tags)) ||
    tags.meets only ||
    (decide (Tag.tagged ∈ only) && isTagged tags && decide (Tag.never ∉ tags))

/-- A unit is excluded by `all` unless it is `always` to run and `always` is not skipped as well;
without `all`, by a tag of its own or by `tagged`. -/
def excludes (skip tags : TagSet) : Bool :=
  if Tag.all ∈ skip then
    decide (Tag.always ∉ tags) || decide (Tag.always ∈ skip)
  else
    tags.meets skip || (decide (Tag.tagged ∈ skip) && isTagged tags)

def runs (filter : TagFilter) (own : TagSet) : Bool :=
  let tags := effective own
  includes filter.only tags && !excludes filter.skip tags

/-- The tags of a unit for a decision. A unit may come without any set of tags. -/
def tagsOf : Option TagSet → TagSet
  | some own => effective own
  | none => untagged

/-- Whether a unit runs that may come without any set of tags. -/
def admits (filter : TagFilter) (own : Option TagSet) : Bool :=
  includes filter.only (tagsOf own) && !excludes filter.skip (tagsOf own)

@[simp]
theorem admits_some (filter : TagFilter) (own : TagSet) :
    filter.admits (some own) = filter.runs own := rfl

def empty : TagFilter := ⟨∅, ∅⟩

def isActive (filter : TagFilter) : Bool :=
  !filter.only.isEmpty || !filter.skip.isEmpty

def ofValues (only skip : List String) : TagFilter :=
  ⟨TagSet.ofValues only, TagSet.ofValues skip⟩

def withOnly (filter : TagFilter) (tags : List Tag) : TagFilter :=
  { filter with only := filter.only.extend tags }

def withSkip (filter : TagFilter) (tags : List Tag) : TagFilter :=
  { filter with skip := filter.skip.extend tags }

end TagFilter
end TaskTags
