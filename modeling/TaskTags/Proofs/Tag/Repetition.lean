import TaskTags.Proofs.Tag.Plain
import TaskTags.Proofs.Tag.Resolution

/-!
# Resolving again

What a chain is resolved to is templated like any declaration when it is resolved once more. Tags
without a template mark stay. A tag that a variable has left a mark in stands for something again,
so that resolving twice is the same as resolving once only where the first time leaves no mark.
-/

namespace TaskTags

namespace TagEntry

variable {vars : Bindings} {set : TagSet} {entries : List TagEntry} {tag : Tag}

theorem on_ofSet (vars : Bindings) (set : TagSet) :
    Templater.on vars (ofSet set) = set.toList.mapM (Tag.resolve vars) := by
  rw [Templater.on, ofSet, List.mapM_map]
  rfl

/-- The tags of a set can be templated if those with a mark can: any other stands for itself. -/
theorem on_ofSet_succeeds_iff :
    (∃ entries, Templater.on vars (ofSet set) = .ok entries) ↔
      ∀ tag ∈ set, ¬ tag.Plain → ∃ entry, tag.resolve vars = .ok entry := by
  rw [on_ofSet, Except.mapM_succeeds_iff]
  constructor
  · intro h tag hmem _
    exact h tag hmem
  · intro h tag hmem
    by_cases hplain : tag.Plain
    · exact ⟨_, Tag.resolve_of_plain hplain vars⟩
    · exact h tag hmem hplain

theorem mem_flatten_of_on_ofSet (h : Templater.on vars (ofSet set) = .ok entries) :
    tag ∈ flatten entries ↔
      (tag ∈ set ∧ tag.Plain) ∨
        ∃ marked ∈ set, ¬ marked.Plain ∧
          ∃ entry, marked.resolve vars = .ok entry ∧ tag ∈ entry.tags := by
  rw [on_ofSet] at h
  simp only [mem_flatten, Except.mem_of_mapM h, ← TagSet.mem_def]
  constructor
  · rintro ⟨entry, ⟨source, hsource, hresolve⟩, htag⟩
    by_cases hplain : source.Plain
    · obtain rfl := Except.ok.inj ((Tag.resolve_of_plain hplain vars).symm.trans hresolve)
      obtain rfl := List.mem_singleton.mp htag
      exact .inl ⟨hsource, hplain⟩
    · exact .inr ⟨source, hsource, hplain, entry, hresolve, htag⟩
  · rintro (⟨hmem, hplain⟩ | ⟨marked, hmarked, -, entry, hresolve, htag⟩)
    · have hresolve := Tag.resolve_of_plain hplain vars
      exact ⟨.single tag, ⟨tag, hmem, hresolve⟩, List.mem_singleton_self tag⟩
    · exact ⟨entry, ⟨marked, hmarked, hresolve⟩, htag⟩

end TagEntry

namespace TagScope

variable {vars : Bindings} {s s' : TagScope}

/-- A scope whose tags are those of a set resolves if the tags with a mark can be templated. -/
theorem exists_resolvesTo_on_iff (hset : s.tags = TagEntry.ofSet s.tagSet) :
    (∃ s', s.ResolvesTo (Templater.on vars) s') ↔
      ∀ tag ∈ s.tagSet, ¬ tag.Plain → ∃ entry, tag.resolve vars = .ok entry := by
  rw [exists_resolvesTo_iff, ← TagEntry.on_ofSet_succeeds_iff, ← hset, or_iff_right_iff_imp]
  intro hnil
  rw [hnil]
  exact ⟨[], rfl⟩

theorem ResolvesTo.mem_tagSet_iff (hset : s.tags = TagEntry.ofSet s.tagSet)
    (h : s.ResolvesTo (Templater.on vars) s') (tag : Tag) :
    tag ∈ s'.tagSet ↔
      (tag ∈ s.tagSet ∧ tag.Plain) ∨
        ∃ marked ∈ s.tagSet, ¬ marked.Plain ∧
          ∃ entry, marked.resolve vars = .ok entry ∧ tag ∈ entry.tags := by
  cases h with
  | untagged hnil =>
      have hempty : s.tagSet = ∅ := by
        rw [tagSet, hnil]
        rfl
      simp [hempty]
  | @tagged entries _ hentries =>
      rw [hset] at hentries
      rw [← TagEntry.mem_flatten_of_on_ofSet hentries]
      show tag ∈ TagEntry.flatten (TagEntry.ofSet (TagEntry.flatten entries)) ↔ _
      rw [TagEntry.flatten_ofSet]

theorem resolvesTo_self_of_plain (hset : s.tags = TagEntry.ofSet s.tagSet)
    (hplain : ∀ tag ∈ s.tagSet, tag.Plain) : s.ResolvesTo (Templater.on vars) s := by
  by_cases hnil : s.tags = []
  · exact .untagged hnil
  · have hentries : TagEntry.Plain s.tags := by
      rw [hset, TagEntry.Plain, TagEntry.allTags_ofSet]
      exact hplain
    have hself : { s with tags := (TagEntry.flatten s.tags).toList.map TagEntry.single } = s := by
      obtain ⟨kind, name, tags⟩ := s
      exact congrArg (TagScope.mk kind name) hset.symm
    have hresolves := ResolvesTo.tagged hnil (Templater.on_of_plain hentries vars)
    rwa [hself] at hresolves

end TagScope

namespace TagChain

/-- Resolving a resolved chain once more, under whatever variables, keeps the tags without a mark
and replaces each one with a mark by what it stands for. It fails if one of those cannot be
templated, and changes nothing if there are none. -/
theorem resolve_again {vars : Bindings} {chain settled : TagChain}
    (h : chain.resolve (Templater.on vars) = (settled, .ok ())) (later : Bindings) :
    ((∀ s ∈ settled, ∀ tag ∈ s.tagSet, tag.Plain) →
      settled.resolve (Templater.on later) = (settled, .ok ())) ∧
    ((settled.resolve (Templater.on later)).2 = .ok () ↔
      ∀ s ∈ settled, ∀ tag ∈ s.tagSet, ¬ tag.Plain → ∃ entry, tag.resolve later = .ok entry) ∧
    ∀ again, settled.resolve (Templater.on later) = (again, .ok ()) →
      List.Forall₂ (fun s s' : TagScope => s'.construct = s.construct ∧
        s'.tags = TagEntry.ofSet s'.tagSet ∧
        ∀ tag, tag ∈ s'.tagSet ↔
          (tag ∈ s.tagSet ∧ tag.Plain) ∨
            ∃ marked ∈ s.tagSet, ¬ marked.Plain ∧
              ∃ entry, marked.resolve later = .ok entry ∧ tag ∈ entry.tags) settled again := by
  have hset := tags_eq_of_resolve h
  refine ⟨?_, ?_, ?_⟩
  · intro hplain
    rw [resolve_eq_ok_iff, List.forall₂_same]
    intro s hs
    exact TagScope.resolvesTo_self_of_plain (hset s hs) (hplain s hs)
  · rw [resolve_succeeds_iff]
    exact forall₂_congr fun s hs => TagScope.exists_resolvesTo_on_iff (hset s hs)
  · intro again hagain
    have hresolves := (List.forall₂_and_left _ _).mpr ⟨hset, resolve_eq_ok_iff.mp hagain⟩
    apply hresolves.imp
    rintro s s' ⟨htags, hscope⟩
    exact ⟨hscope.construct_eq, hscope.tags_eq, hscope.mem_tagSet_iff htags⟩

/-- Once resolved, the chain stays as it is even where the variable is not defined any more. -/
theorem resolve_again_zone :
    let chain : TagChain :=
      [⟨.task, "install", [.single (.str "{{ zone }}"), .single (.str "web")]⟩,
        ⟨.block, "group", []⟩, ⟨.play, "site", [.list [.str "{{ zone }}", .int 7]]⟩]
    let settled : TagChain :=
      [⟨.task, "install", [.single (.str "db"), .single (.str "web")]⟩,
        ⟨.block, "group", []⟩, ⟨.play, "site", [.single (.int 7), .single (.str "db")]⟩]
    chain.resolve (Templater.on [("zone", .str "db")]) = (settled, .ok ()) ∧
      settled.resolve (Templater.on []) = (settled, .ok ()) := by
  intro chain settled
  have hsettled : chain.resolve (Templater.on [("zone", .str "db")]) = (settled, .ok ()) :=
    resolve_eq_ok_of_toOption (by decide +kernel) (by decide +kernel)
  have hplain : ∀ s ∈ settled, ∀ tag ∈ s.tagSet.toList, tag.Plain := by
    decide +kernel
  exact ⟨hsettled, (resolve_again hsettled []).1 hplain⟩

/-- A variable whose value is a template again: the tag comes to that template, and to what it
stands for, or to an error, when it is resolved again under the same variables. -/
theorem not_resolve_again_host :
    let chain (tag : String) : TagChain := [⟨.task, "install", [.single (.str tag)]⟩]
    let zone : String × Json := ("zone", .str "{{ host }}")
    let host : String × Json := ("host", .str "db")
    (chain "{{ zone }}").resolve (Templater.on [zone, host]) = (chain "{{ host }}", .ok ()) ∧
      (chain "{{ host }}").resolve (Templater.on [zone, host]) = (chain "db", .ok ()) ∧
      (chain "{{ zone }}").resolve (Templater.on [zone]) = (chain "{{ host }}", .ok ()) ∧
      (chain "{{ host }}").resolve (Templater.on [zone])
        = (chain "{{ host }}", .error (.template "{{ host }}" .undefinedValue)) ∧
      chain "{{ host }}" ≠ chain "db" := by
  intro chain zone host
  refine ⟨?_, ?_, ?_, ?_, by decide⟩
  · exact resolve_eq_ok_of_toOption (by decide +kernel) (by decide +kernel)
  · exact resolve_eq_ok_of_toOption (by decide +kernel) (by decide +kernel)
  · exact resolve_eq_ok_of_toOption (by decide +kernel) (by decide +kernel)
  · apply Prod.ext
    · decide +kernel
    · apply Except.error?_eq_some_iff.mp
      decide +kernel

end TagChain
end TaskTags
