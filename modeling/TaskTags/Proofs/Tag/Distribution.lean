import TaskTags.Proofs.Tag.Filter

/-!
# Filters tag by tag

A unit is included by a set of tags if it is by one of them, and excluded by a set if it is by one
of them and not spared. What spares a unit that is `always` to run is `all` among the skipped tags:
as long as `always` is not skipped too, no other skipped tag counts for such a unit.
-/

namespace TaskTags

namespace TagSet

variable {s t : TagSet} {tag : Tag}

theorem exists_mem_of_ne_empty (h : s ≠ ∅) : ∃ tag, tag ∈ s := by
  by_contra hnone
  apply h
  apply ext
  intro tag
  exact ⟨fun hmem => absurd ⟨tag, hmem⟩ hnone, fun hmem => absurd hmem not_mem_empty⟩

theorem ofList_singleton_ne_empty : ofList [tag] ≠ ∅ :=
  ne_empty_of_mem (mem_ofList.mpr (List.mem_singleton_self tag))

theorem exists_mem_singleton {p : Tag → Prop} :
    (∃ other ∈ ofList [tag], p other) ↔ p tag := by
  simp

theorem union_comm : s.union t = t.union s := by
  apply ext
  intro tag
  rw [mem_union, mem_union, or_comm]

theorem union_ne_empty (h : s ≠ ∅) : s.union t ≠ ∅ := by
  obtain ⟨tag, hmem⟩ := exists_mem_of_ne_empty h
  exact ne_empty_of_mem (mem_union.mpr (.inl hmem))

end TagSet

namespace TagFilter

/-- Whether a requested tag includes a unit on its own. -/
def Covers (tag : Tag) (tags : TagSet) : Prop :=
  Tag.always ∈ tags ∨ tag ∈ tags ∨
    (Tag.never ∉ tags ∧ (tag = Tag.all ∨ (tag = Tag.tagged ∧ tags ≠ untagged)))

/-- Whether a skipped tag excludes a unit on its own. -/
def Bars (tag : Tag) (tags : TagSet) : Prop :=
  if tag = Tag.all then Tag.always ∉ tags else tag ∈ tags ∨ (tag = Tag.tagged ∧ tags ≠ untagged)

/-- Whether a unit is spared because `all` is skipped, but `always` is not. -/
def Spares (skip tags : TagSet) : Prop :=
  Tag.all ∈ skip ∧ Tag.always ∉ skip ∧ Tag.always ∈ tags

variable {only skip other tags : TagSet} {tag : Tag} {own : Option TagSet}

theorem bars_all_iff : Bars Tag.all tags ↔ Tag.always ∉ tags := by
  rw [Bars, if_pos rfl]

theorem bars_iff_of_ne_all (h : tag ≠ Tag.all) :
    Bars tag tags ↔ tag ∈ tags ∨ (tag = Tag.tagged ∧ tags ≠ untagged) := by
  rw [Bars, if_neg h]

theorem bars_always (h : Tag.always ∈ tags) : Bars Tag.always tags :=
  (bars_iff_of_ne_all (by decide)).mpr (.inl h)

theorem includes_iff_covers :
    includes only tags = true ↔ only = ∅ ∨ ∃ tag ∈ only, Covers tag tags := by
  rw [includes_iff]
  constructor
  · rintro (hempty | halways | ⟨hall, hnever⟩ | ⟨tag, hmem, hrequested⟩ | ⟨htagged, hne, hnever⟩)
    · exact .inl hempty
    · by_cases hempty : only = ∅
      · exact .inl hempty
      · obtain ⟨tag, hrequested⟩ := TagSet.exists_mem_of_ne_empty hempty
        exact .inr ⟨tag, hrequested, .inl halways⟩
    · exact .inr ⟨Tag.all, hall, .inr (.inr ⟨hnever, .inl rfl⟩)⟩
    · exact .inr ⟨tag, hrequested, .inr (.inl hmem)⟩
    · exact .inr ⟨Tag.tagged, htagged, .inr (.inr ⟨hnever, .inr ⟨rfl, hne⟩⟩)⟩
  · rintro (hempty | ⟨tag, hrequested, halways | hmem | ⟨hnever, rfl | ⟨rfl, hne⟩⟩⟩)
    · exact .inl hempty
    · exact .inr (.inl halways)
    · exact .inr (.inr (.inr (.inl ⟨tag, hmem, hrequested⟩)))
    · exact .inr (.inr (.inl ⟨hrequested, hnever⟩))
    · exact .inr (.inr (.inr (.inr ⟨hrequested, hne, hnever⟩)))

theorem excludes_iff :
    excludes skip tags = true ↔
      (Tag.all ∈ skip ∧ (Tag.always ∉ tags ∨ Tag.always ∈ skip)) ∨
      (Tag.all ∉ skip ∧ ((∃ tag ∈ tags, tag ∈ skip) ∨ (Tag.tagged ∈ skip ∧ tags ≠ untagged))) := by
  by_cases hall : Tag.all ∈ skip <;>
    simp only [excludes, isTagged, hall, if_true, if_false, Bool.or_eq_true, Bool.and_eq_true,
      decide_eq_true_eq, TagSet.meets_iff, not_true_eq_false, not_false_eq_true, true_and,
      false_and, or_false, false_or]

theorem excludes_iff_bars :
    excludes skip tags = true ↔ (∃ tag ∈ skip, Bars tag tags) ∧ ¬ Spares skip tags := by
  rw [excludes_iff]
  constructor
  · rintro (⟨hall, halways | hskipped⟩ | ⟨hall, hrest⟩)
    · exact ⟨⟨Tag.all, hall, bars_all_iff.mpr halways⟩, fun hspares => halways hspares.2.2⟩
    · refine ⟨?_, fun hspares => hspares.2.1 hskipped⟩
      by_cases halways : Tag.always ∈ tags
      · exact ⟨Tag.always, hskipped, bars_always halways⟩
      · exact ⟨Tag.all, hall, bars_all_iff.mpr halways⟩
    · refine ⟨?_, fun hspares => hall hspares.1⟩
      obtain ⟨tag, hmem, hskipped⟩ | ⟨hskipped, hne⟩ := hrest
      · have hother : tag ≠ Tag.all := fun heq => hall (heq ▸ hskipped)
        exact ⟨tag, hskipped, (bars_iff_of_ne_all hother).mpr (.inl hmem)⟩
      · exact ⟨Tag.tagged, hskipped, (bars_iff_of_ne_all (by decide)).mpr (.inr ⟨rfl, hne⟩)⟩
  · rintro ⟨⟨tag, hskipped, hbars⟩, hspares⟩
    by_cases hall : Tag.all ∈ skip
    · refine .inl ⟨hall, ?_⟩
      by_contra hneither
      obtain ⟨hmem, hnot⟩ := not_or.mp hneither
      exact hspares ⟨hall, hnot, not_not.mp hmem⟩
    · have hother : tag ≠ Tag.all := fun heq => hall (heq ▸ hskipped)
      refine .inr ⟨hall, ?_⟩
      obtain hmem | ⟨rfl, hne⟩ := (bars_iff_of_ne_all hother).mp hbars
      · exact .inl ⟨tag, hmem, hskipped⟩
      · exact .inr ⟨hskipped, hne⟩

theorem includes_singleton : includes (.ofList [tag]) tags = true ↔ Covers tag tags := by
  rw [includes_iff_covers, or_iff_right TagSet.ofList_singleton_ne_empty,
    TagSet.exists_mem_singleton]

/-- A single skipped tag spares no unit that it would exclude. -/
theorem excludes_singleton : excludes (.ofList [tag]) tags = true ↔ Bars tag tags := by
  rw [excludes_iff_bars, TagSet.exists_mem_singleton, and_iff_left_iff_imp]
  rintro hbars ⟨hall, -, halways⟩
  obtain rfl : Tag.all = tag := by simpa using hall
  exact bars_all_iff.mp hbars halways

theorem includes_empty : includes ∅ tags = true :=
  includes_iff.mpr (.inl rfl)

/-! ## Units with or without tags -/

theorem admits_eq_true_iff :
    admits ⟨only, skip⟩ own = true ↔
      includes only (tagsOf own) = true ∧ ¬ excludes skip (tagsOf own) = true := by
  rw [admits, Bool.and_eq_true, Bool.not_eq_true', Bool.not_eq_true]

theorem admits_without_skip : admits ⟨only, ∅⟩ own = includes only (tagsOf own) := by
  rw [admits, excludes_empty]
  exact Bool.and_true _

theorem admits_without_only_iff :
    admits ⟨∅, skip⟩ own = true ↔ ¬ excludes skip (tagsOf own) = true := by
  rw [admits_eq_true_iff, and_iff_right includes_empty]

theorem admits_without_only_eq_false_iff :
    admits ⟨∅, skip⟩ own = false ↔ excludes skip (tagsOf own) = true := by
  rw [← Bool.not_eq_true, admits_without_only_iff, not_not]

/-- Only the tags of a unit that comes with some decide whether it is `always` to run. -/
theorem always_mem_tagsOf :
    Tag.always ∈ tagsOf own ↔ ∃ tags, own = some tags ∧ Tag.always ∈ tags := by
  have hnot : Tag.always ∉ untagged := by decide
  cases own with
  | none => simp [tagsOf, hnot]
  | some tags =>
      by_cases hempty : tags = ∅
      · subst hempty
        simp [tagsOf, effective, TagSet.isEmpty_iff, hnot]
      · have hfull : ¬ tags.isEmpty = true := fun h => hempty (TagSet.isEmpty_iff.mp h)
        simp [tagsOf, effective, hfull]

theorem excludes_of_always (hskipped : Tag.always ∈ skip) (halways : Tag.always ∈ tags) :
    excludes skip tags = true := by
  rw [excludes_iff_bars]
  exact ⟨⟨Tag.always, hskipped, bars_always halways⟩, fun hspares => hspares.2.1 hskipped⟩

/-- A tag of one set bars the unit from both sets if it does from their union: where its own set
spares the unit, `always` is in the other one. -/
theorem excludes_or_of_bars (hskipped : tag ∈ skip) (hbars : Bars tag tags)
    (hunion : ¬ Spares (skip.union other) tags) :
    excludes skip tags = true ∨ excludes other tags = true := by
  by_cases hspares : Spares skip tags
  · obtain ⟨hall, hnot, halways⟩ := hspares
    refine .inr (excludes_of_always ?_ halways)
    by_contra hother
    apply hunion
    refine ⟨TagSet.mem_union.mpr (.inl hall), ?_, halways⟩
    rw [TagSet.mem_union]
    exact not_or.mpr ⟨hnot, hother⟩
  · exact .inl (excludes_iff_bars.mpr ⟨⟨tag, hskipped, hbars⟩, hspares⟩)

theorem excludes_union_iff :
    excludes (skip.union other) tags = true ↔
      (excludes skip tags = true ∨ excludes other tags = true) ∧
        ¬ Spares (skip.union other) tags := by
  constructor
  · intro h
    obtain ⟨⟨tag, hmem, hbars⟩, hspares⟩ := excludes_iff_bars.mp h
    refine ⟨?_, hspares⟩
    obtain hskipped | hskipped := TagSet.mem_union.mp hmem
    · exact excludes_or_of_bars hskipped hbars hspares
    · rw [TagSet.union_comm] at hspares
      exact (excludes_or_of_bars hskipped hbars hspares).symm
  · rintro ⟨hexcluded, hspares⟩
    refine excludes_iff_bars.mpr ⟨?_, hspares⟩
    obtain h | h := hexcluded
    · obtain ⟨⟨tag, hskipped, hbars⟩, -⟩ := excludes_iff_bars.mp h
      exact ⟨tag, TagSet.mem_union.mpr (.inl hskipped), hbars⟩
    · obtain ⟨⟨tag, hskipped, hbars⟩, -⟩ := excludes_iff_bars.mp h
      exact ⟨tag, TagSet.mem_union.mpr (.inr hskipped), hbars⟩

/-- A further skipped tag saves an excluded unit if it is `all` and the unit is spared by that. -/
theorem excludes_insert_iff (h : excludes skip tags = true) :
    excludes (skip.insert tag) tags = true ↔
      ¬ (tag = Tag.all ∧ Tag.always ∉ skip ∧ Tag.always ∈ tags) := by
  obtain ⟨⟨barring, hskipped, hbars⟩, hspares⟩ := excludes_iff_bars.mp h
  have hstill : ∃ other ∈ skip.insert tag, Bars other tags :=
    ⟨barring, TagSet.mem_insert.mpr (.inr hskipped), hbars⟩
  rw [excludes_iff_bars, and_iff_right hstill, not_iff_not]
  constructor
  · rintro ⟨hall, hnot, halways⟩
    rw [TagSet.mem_insert, not_or] at hnot
    obtain heq | hmem := TagSet.mem_insert.mp hall
    · exact ⟨heq.symm, hnot.2, halways⟩
    · exact absurd ⟨hmem, hnot.2, halways⟩ hspares
  · rintro ⟨rfl, hnot, halways⟩
    refine ⟨TagSet.mem_insert.mpr (.inl rfl), ?_, halways⟩
    rw [TagSet.mem_insert, not_or]
    exact ⟨by decide, hnot⟩

/-! ## Requested tags -/

theorem admits_iff_of_only_ne_empty (h : only ≠ ∅) :
    admits ⟨only, skip⟩ own = true ↔
      (∃ tag ∈ only, Covers tag (tagsOf own)) ∧ admits ⟨∅, skip⟩ own = true := by
  rw [admits_eq_true_iff, admits_without_only_iff, includes_iff_covers, or_iff_right h]

theorem admits_single_iff : admits ⟨.ofList [tag], ∅⟩ own = true ↔ Covers tag (tagsOf own) := by
  rw [admits_without_skip, includes_singleton]

theorem admits_mono (h : only ≠ ∅) (hsub : ∀ tag ∈ only, tag ∈ other)
    (hruns : admits ⟨only, skip⟩ own = true) : admits ⟨other, skip⟩ own = true := by
  obtain ⟨⟨tag, hrequested, hcovers⟩, hskip⟩ := (admits_iff_of_only_ne_empty h).mp hruns
  have hother : other ≠ ∅ := TagSet.ne_empty_of_mem (hsub tag hrequested)
  exact (admits_iff_of_only_ne_empty hother).mpr ⟨⟨tag, hsub tag hrequested, hcovers⟩, hskip⟩

theorem admits_union_iff (honly : only ≠ ∅) (hother : other ≠ ∅) :
    admits ⟨only.union other, skip⟩ own = true ↔
      admits ⟨only, skip⟩ own = true ∨ admits ⟨other, skip⟩ own = true := by
  rw [admits_iff_of_only_ne_empty (TagSet.union_ne_empty honly), admits_iff_of_only_ne_empty honly,
    admits_iff_of_only_ne_empty hother, ← or_and_right]
  simp only [TagSet.mem_union, or_and_right, exists_or]

theorem tagsOf_some_empty : tagsOf (some ∅) = untagged := rfl

theorem tagsOf_some_untagged : tagsOf (some untagged) = untagged := rfl

/-- A unit runs if one of the requested tags includes it and the skipped ones leave it, whatever the
other part of the filter is. Units without tags are those with the tag `untagged` alone. -/
theorem admits_distributes_over_only (own : Option TagSet) :
    (∀ only skip, only ≠ ∅ →
      (admits ⟨only, skip⟩ own = true ↔
        (∃ tag ∈ only, admits ⟨.ofList [tag], ∅⟩ own = true) ∧
          admits ⟨∅, skip⟩ own = true)) ∧
    (∀ filter, admits filter none = admits filter (some ∅) ∧
      admits filter (some ∅) = admits filter (some untagged)) ∧
    (∀ (s t : String) (skip : List String), TagSet.ofValues [s] ≠ ∅ → TagSet.ofValues [t] ≠ ∅ →
      (admits (ofValues [s ++ "," ++ t] skip) own = true ↔
        admits (ofValues [s] skip) own = true ∨ admits (ofValues [t] skip) own = true)) ∧
    (∀ only more skip, only ≠ ∅ → (∀ tag ∈ only, tag ∈ more) →
      admits ⟨only, skip⟩ own = true → admits ⟨more, skip⟩ own = true) ∧
    ∀ only skip, admits ⟨only, skip⟩ own = true → admits ⟨only, ∅⟩ own = true := by
  refine ⟨?_, ?_, ?_, ?_, ?_⟩
  · intro only skip hne
    rw [admits_iff_of_only_ne_empty hne]
    simp only [admits_single_iff]
  · intro filter
    rw [admits, admits, admits, tagsOf_some_empty, tagsOf_some_untagged]
    exact ⟨rfl, rfl⟩
  · intro s t skip hs ht
    rw [ofValues, TagSet.ofValues_comma, admits_union_iff hs ht]
    rfl
  · intro only more skip hne hsub hruns
    exact admits_mono hne hsub hruns
  · intro only skip hruns
    rw [admits_without_skip]
    exact (admits_eq_true_iff.mp hruns).1

/-- A unit that is `never` to run unless `web` is requested runs by `--tags db,web`, not by
`--tags db`. -/
theorem admits_distributes_over_only_web :
    let own := some (TagSet.ofList [Tag.never, .str "web"])
    admits ⟨.ofList [.str "web"], .ofList [Tag.always]⟩ own = true ∧
      admits ⟨.ofList [.str "web", Tag.tagged], .ofList [Tag.always]⟩ own = true ∧
      admits (ofValues ["db,web"] ["always"]) own = true ∧
      admits (ofValues ["db"] ["always"]) own = false := by
  intro own
  obtain ⟨hsplit, -, hunion, hmono, -⟩ := admits_distributes_over_only own
  have hweb : admits ⟨.ofList [.str "web"], .ofList [Tag.always]⟩ own = true :=
    (hsplit _ _ (by decide)).mpr ⟨⟨.str "web", by decide, by decide⟩, by decide⟩
  refine ⟨hweb, ?_, ?_, by decide⟩
  · exact hmono _ _ _ (by decide) (by decide) hweb
  · exact (hunion "db" "web" ["always"] (by decide) (by decide)).mpr (.inr hweb)

/-! ## Skipped tags -/

theorem not_excludes_iff :
    ¬ excludes skip tags = true ↔
      (∀ tag ∈ skip, ¬ excludes (.ofList [tag]) tags = true) ∨ Spares skip tags := by
  simp only [excludes_singleton]
  rw [excludes_iff_bars, not_and_or, not_not, not_exists]
  simp only [not_and]

theorem spares_tagsOf_iff :
    Spares skip (tagsOf own) ↔
      Tag.all ∈ skip ∧ Tag.always ∉ skip ∧ ∃ tags, own = some tags ∧ Tag.always ∈ tags := by
  rw [Spares, always_mem_tagsOf]

/-- A unit is left by a set of skipped tags if each of them leaves it, or if it is `always` to run
and spared because `all` is skipped, but `always` is not. -/
theorem admits_distributes_over_skip (own : Option TagSet) :
    (∀ skip, admits ⟨∅, skip⟩ own = true ↔
      (∀ tag ∈ skip, admits ⟨∅, .ofList [tag]⟩ own = true) ∨
        (Tag.all ∈ skip ∧ Tag.always ∉ skip ∧ ∃ tags, own = some tags ∧ Tag.always ∈ tags)) ∧
    (∀ s t : String, admits (ofValues [] [s ++ "," ++ t]) own = false ↔
      (admits (ofValues [] [s]) own = false ∨ admits (ofValues [] [t]) own = false) ∧
        ¬ (Tag.all ∈ TagSet.ofValues [s ++ "," ++ t] ∧
          Tag.always ∉ TagSet.ofValues [s ++ "," ++ t] ∧
          ∃ tags, own = some tags ∧ Tag.always ∈ tags)) ∧
    ∀ skip tag, admits ⟨∅, skip⟩ own = false →
      (admits ⟨∅, skip.insert tag⟩ own = false ↔
        ¬ (tag = Tag.all ∧ Tag.always ∉ skip ∧ ∃ tags, own = some tags ∧ Tag.always ∈ tags)) := by
  refine ⟨?_, ?_, ?_⟩
  · intro skip
    rw [admits_without_only_iff, not_excludes_iff, spares_tagsOf_iff]
    simp only [admits_without_only_iff]
  · intro s t
    have hskip : ∀ value, ofValues [] [value] = ⟨∅, TagSet.ofValues [value]⟩ := fun _ => rfl
    rw [← spares_tagsOf_iff, hskip, hskip, hskip, TagSet.ofValues_comma]
    simp only [admits_without_only_eq_false_iff]
    exact excludes_union_iff
  · intro skip tag hskipped
    rw [admits_without_only_eq_false_iff] at hskipped ⊢
    rw [excludes_insert_iff hskipped, always_mem_tagsOf]

theorem admits_distributes_over_skip_web :
    let own := some (TagSet.ofList [Tag.always, .str "web"])
    let skip := TagSet.ofList [.str "web"]
    admits ⟨∅, skip⟩ own = false ∧ admits ⟨∅, skip.insert (.str "db")⟩ own = false ∧
      admits ⟨∅, skip.insert Tag.all⟩ own = true := by
  intro own skip
  obtain ⟨-, -, hinsert⟩ := admits_distributes_over_skip own
  have hskipped : admits ⟨∅, skip⟩ own = false := by decide
  refine ⟨hskipped, (hinsert skip (.str "db") hskipped).mpr (by decide), ?_⟩
  rw [← Bool.not_eq_false, hinsert skip Tag.all hskipped, not_not]
  exact ⟨rfl, by decide, _, rfl, by decide⟩

/-- By `--skip-tags web` a unit that is `always` to run is skipped, by `--skip-tags all,web` not. -/
theorem not_admits_distributes_over_skip_web :
    let own := some (TagSet.ofList [Tag.always, .str "web"])
    let skip := TagSet.ofList [Tag.all, .str "web"]
    admits ⟨∅, skip⟩ own = true ∧ ¬ ∀ tag ∈ skip, admits ⟨∅, .ofList [tag]⟩ own = true := by
  intro own skip
  refine ⟨by decide, ?_⟩
  intro heach
  have hweb : admits ⟨∅, .ofList [.str "web"]⟩ own = true := heach (.str "web") (by decide)
  exact absurd hweb (by decide)

end TagFilter
end TaskTags
