import TaskTags.Proofs.Playbook.Deletion

/-!
# The tags of a play

The tags that a selection reports for a play are what its tasks leave of the declaration. The first
task that resolves it templates it under the variables of its own place, and each later one does so
with the tags that are left, under the variables of its place.
-/

namespace TaskTags

/-- The variables of a play on their own, with the extra ones over them. -/
def Play.context (extraVars : Bindings) (play : Play) : Bindings :=
  SelectionRules.layer [play.declared.vars, extraVars]

namespace Leaf

/-- Tags of a play as a task resolves them once more. -/
def retag (extraVars : Bindings) (tags : TagSet) (leaf : Leaf) : Except Error TagSet :=
  (Templater.on (leaf.context extraVars) (TagEntry.ofSet tags)).map TagEntry.flatten

/-- Without variables of its own and of the blocks around it, a task sees those of its play. -/
theorem context_eq_play {play : Play} {leaf : Leaf} (hmem : leaf ∈ play.leaves)
    (hown : leaf.declared.vars = []) (hblocks : ∀ block ∈ leaf.blocks, block.declared.vars = [])
    (extraVars : Bindings) : leaf.context extraVars = play.context extraVars := by
  have hempty : (leaf.blocks.map (·.declared.vars)).flatten = [] := by
    rw [List.flatten_eq_nil_iff]
    exact List.forall_mem_map.mpr hblocks
  rw [context_eq_layer, Play.context, around, List.map_cons, Play.play_of_mem_leaves hmem, hown]
  simp only [SelectionRules.layer, List.cons_append, List.flatten_cons, List.flatten_append, hempty,
    List.nil_append]

end Leaf

variable {rules : SelectionRules} {play : Play} {p : PlaySelection} {before after : List Leaf}
  {leaf : Leaf}

theorem Leaf.foldlM_settle_ofSet (hon : rules.templater = Templater.on) (leaves : List Leaf)
    (tags : TagSet) :
    leaves.foldlM (fun entries leaf => leaf.settle rules entries) (TagEntry.ofSet tags)
      = ((leaves.filter (·.resolves rules.inherit)).foldlM (Leaf.retag rules.extraVars) tags).map
          TagEntry.ofSet := by
  -- Settled entries are those of a set, so the next task finds a set again.
  induction leaves generalizing tags with
  | nil => rfl
  | cons leaf rest ih =>
      rw [List.foldlM_cons]
      by_cases hresolves : leaf.resolves rules.inherit = true
      · rw [List.filter_cons_of_pos hresolves, List.foldlM_cons, settle_of_resolves hresolves, hon,
          TagEntry.settle_on, retag]
        cases Templater.on (leaf.context rules.extraVars) (TagEntry.ofSet tags) with
        | error e => rfl
        | ok resolved => exact ih (TagEntry.flatten resolved)
      · rw [List.filter_cons_of_neg hresolves, settle_of_not_resolves hresolves, Except.ok_bind]
        exact ih tags

theorem Leaf.foldlM_settle_of_not_resolves {leaves : List Leaf}
    (h : ∀ leaf ∈ leaves, leaf.resolves rules.inherit = false) (entries : List TagEntry) :
    leaves.foldlM (fun entries leaf => leaf.settle rules entries) entries = .ok entries := by
  induction leaves with
  | nil => rfl
  | cons leaf rest ih =>
      have hleaf := ne_true_of_eq_false (h leaf List.mem_cons_self)
      rw [List.foldlM_cons, settle_of_not_resolves hleaf, Except.ok_bind]
      exact ih fun leaf' hleaf' => h leaf' (List.mem_cons_of_mem leaf hleaf')

namespace Play

theorem entriesAfter_of_select (h : play.select rules = .ok p) :
    ∃ entries, Enclosure.entriesAfter rules play.leaves ⟨play.declared, 0⟩ = .ok entries ∧
      p.tags = TagEntry.flatten entries := by
  rw [select_eq] at h
  obtain ⟨tasks, -, h⟩ := Except.bind_eq_ok_iff.mp h
  obtain ⟨entries, hentries, h⟩ := Except.bind_eq_ok_iff.mp h
  cases h
  exact ⟨entries, hentries, rfl⟩

theorem tags_of_plain (hon : rules.templater = Templater.on) (h : play.select rules = .ok p)
    (hplain : TagEntry.Plain play.declared.tags) :
    p.tags = TagEntry.flatten play.declared.tags := by
  obtain ⟨entries, hentries, hp⟩ := entriesAfter_of_select h
  obtain ⟨final, hfinal, -, hflatten⟩ := Enclosure.entriesAfter_append_of_preserves
    (SelectionRules.preserves_plain hon) (e := ⟨play.declared, 0⟩) Enclosure.entriesAfter_nil hplain
    play.leaves
  rw [List.nil_append] at hfinal
  obtain rfl := Except.ok.inj (hentries.symm.trans hfinal)
  rw [hp, hflatten]

theorem tags_of_first (hon : rules.templater = Templater.on) (h : play.select rules = .ok p)
    (hleaves : play.leaves = before ++ leaf :: after)
    (hbefore : ∀ earlier ∈ before, earlier.resolves rules.inherit = false)
    (hresolves : leaf.resolves rules.inherit = true) :
    ∃ entries, Templater.on (leaf.context rules.extraVars) play.declared.tags = .ok entries ∧
      (after.filter (·.resolves rules.inherit)).foldlM (Leaf.retag rules.extraVars)
        (TagEntry.flatten entries) = .ok p.tags := by
  obtain ⟨final, hfinal, hp⟩ := entriesAfter_of_select h
  rw [Enclosure.entriesAfter, hleaves, List.drop_zero, List.foldlM_append,
    Leaf.foldlM_settle_of_not_resolves hbefore, Except.ok_bind, List.foldlM_cons,
    Leaf.settle_of_resolves hresolves, hon, TagEntry.settle_on] at hfinal
  obtain ⟨settled, hsettled, hrest⟩ := Except.bind_eq_ok_iff.mp hfinal
  obtain ⟨entries, hentries, rfl⟩ := Except.map_eq_ok_iff.mp hsettled
  rw [Leaf.foldlM_settle_ofSet hon] at hrest
  obtain ⟨tags, htags, rfl⟩ := Except.map_eq_ok_iff.mp hrest
  rw [TagEntry.flatten_ofSet] at hp
  exact ⟨entries, hentries, hp ▸ htags⟩

theorem foldlM_retag_of_plain {extraVars : Bindings} {tags : TagSet}
    (h : TagEntry.Plain (TagEntry.ofSet tags)) (leaves : List Leaf) :
    leaves.foldlM (Leaf.retag extraVars) tags = .ok tags := by
  induction leaves with
  | nil => rfl
  | cons leaf rest ih =>
      rw [List.foldlM_cons, Leaf.retag, Templater.on_of_plain h, Except.ok_map,
        TagEntry.flatten_ofSet, Except.ok_bind]
      exact ih

end Play

/-- A plain declaration is reported as it is. Any other comes to what the first task that resolves
it makes of it, resolved once more by each such task behind it; what is plain by then stays so. -/
theorem Playbook.play_tags_of_select {playbook : Playbook} {plays : List PlaySelection}
    {filter : TagFilter} {extraVars : Bindings} {inherit : Bool}
    (h : playbook.select ⟨filter, Templater.on, extraVars, inherit⟩ = .ok plays) :
    List.Forall₂ (fun play p =>
      (TagEntry.Plain play.declared.tags → ∃ entries,
        Templater.on (play.context extraVars) play.declared.tags = .ok entries ∧
        p.tags = TagEntry.flatten entries) ∧
      ∀ before leaf after, play.leaves = before ++ leaf :: after →
        (∀ earlier ∈ before, earlier.resolves inherit = false) → leaf.resolves inherit = true →
        ∃ entries, Templater.on (leaf.context extraVars) play.declared.tags = .ok entries ∧
          (after.filter (·.resolves inherit)).foldlM (Leaf.retag extraVars)
            (TagEntry.flatten entries) = .ok p.tags ∧
          (TagEntry.Plain entries → p.tags = TagEntry.flatten entries) ∧
          (leaf.declared.vars = [] → (∀ block ∈ leaf.blocks, block.declared.vars = []) →
            leaf.context extraVars = play.context extraVars)) playbook plays := by
  rw [Playbook.select, Except.mapM_eq_ok_iff] at h
  apply h.imp
  intro play p hp
  constructor
  · intro hplain
    exact ⟨_, Templater.on_of_plain hplain _, Play.tags_of_plain rfl hp hplain⟩
  · intro before leaf after hleaves hbefore hresolves
    obtain ⟨entries, hentries, hlater⟩ := Play.tags_of_first rfl hp hleaves hbefore hresolves
    refine ⟨entries, hentries, hlater, ?_, ?_⟩
    · intro hplain
      rw [Play.foldlM_retag_of_plain (TagEntry.plain_ofSet_flatten hplain)] at hlater
      exact (Except.ok.inj hlater).symm
    · intro hown hblocks
      have hmem : leaf ∈ play.leaves := by
        rw [hleaves]
        exact List.mem_append_right before List.mem_cons_self
      exact Leaf.context_eq_play hmem hown hblocks extraVars

theorem Playbook.play_tags_of_select_zoned :
    let play := Play.zoned [("zone", .str "a")]
    ∃ p, Playbook.select ⟨.empty, Templater.on, [], false⟩ [play] = .ok [p] ∧
      p.tags = TagSet.ofList [.str "b"] := by
  intro play
  let rules : SelectionRules := ⟨.empty, Templater.on, [], false⟩
  have hsome : (Playbook.select rules [play]).toOption.isSome = true := by decide +kernel
  obtain ⟨plays, hplays⟩ := Option.isSome_iff_exists.mp hsome
  rw [Except.toOption_eq_some_iff] at hplays
  obtain ⟨first, rest, hleaves, hfirst, hentries⟩ : ∃ first rest,
      play.leaves = [] ++ first :: rest ∧ first.resolves false = true ∧
        Templater.on (first.context []) play.declared.tags = .ok [.single (.str "b")] := by
    refine ⟨_, _, rfl, rfl, Except.toOption_eq_some_iff.mp ?_⟩
    decide +kernel
  obtain ⟨p, others, ⟨-, hp⟩, hothers, rfl⟩ :=
    List.forall₂_cons_left_iff.mp (play_tags_of_select hplays)
  obtain rfl := List.forall₂_nil_left_iff.mp hothers
  obtain ⟨entries, hentries', -, htags, -⟩ := hp [] first rest hleaves nofun hfirst
  obtain rfl := Except.ok.inj (hentries.symm.trans hentries')
  exact ⟨p, hplays, htags (by decide)⟩

/-- Under the variables of the play the declaration comes to other tags. -/
theorem Playbook.play_tags_not_of_play_zoned :
    let play := Play.zoned [("zone", .str "a")]
    (∀ inherit, ∃ plays, Playbook.select ⟨.empty, Templater.on, [], inherit⟩ [play] = .ok plays ∧
      plays.map (·.tags) = [TagSet.ofList [.str "b"]]) ∧
    ∃ entries, Templater.on (play.context []) play.declared.tags = .ok entries ∧
      TagEntry.flatten entries = TagSet.ofList [.str "a"] ∧
      TagEntry.flatten entries ≠ TagSet.ofList [.str "b"] := by
  intro play
  have htags : ∀ inherit,
      (Playbook.select ⟨.empty, Templater.on, [], inherit⟩ [play]).toOption.map
          (List.map (·.tags)) = some [TagSet.ofList [.str "b"]] := by
    decide +kernel
  have hentries : Templater.on (play.context []) play.declared.tags
      = .ok [.single (.str "a")] := by
    apply Except.toOption_eq_some_iff.mp
    decide +kernel
  constructor
  · intro inherit
    obtain ⟨plays, hplays, hmap⟩ := Option.map_eq_some_iff.mp (htags inherit)
    exact ⟨plays, Except.toOption_eq_some_iff.mp hplays, hmap⟩
  · exact ⟨_, hentries, by decide, by decide⟩

end TaskTags
