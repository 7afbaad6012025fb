import TaskTags.Proofs.Playbook.Place
import TaskTags.Proofs.Playbook.PlayTags
import TaskTags.Proofs.Tag.Range

/-!
# The range of the tags of a playbook

All declarations of a playbook that is loaded have tags in range, at any depth. Selecting its tasks
resolves these declarations, so that the tags of plays and tasks are in range as well.
-/

namespace TaskTags

open Yaml (Value)

/-- A node in which all declarations have tags in range. -/
inductive TaskNode.InRange : TaskNode → Prop
  | task {d : Declared} {action : Option String} (tags : TagEntry.InRange d.tags) :
      InRange (.task d action)
  | block {d : Declared} {body rescue always : List TaskNode} (tags : TagEntry.InRange d.tags)
      (inBody : ∀ node ∈ body, InRange node) (inRescue : ∀ node ∈ rescue, InRange node)
      (inAlways : ∀ node ∈ always, InRange node) : InRange (.block d body rescue always)

structure Play.InRange (play : Play) : Prop where
  tags : TagEntry.InRange play.declared.tags
  nodes : ∀ s, ∀ node ∈ play.nodes s, node.InRange

structure Leaf.InRange (leaf : Leaf) : Prop where
  tags : TagEntry.InRange leaf.declared.tags
  around : ∀ e ∈ leaf.around, TagEntry.InRange e.declared.tags

/-! ## Loading -/

theorem Declared.inRange_of_ofFields {name : String} {entries : List (Value × Value)} {d : Declared}
    (h : ofFields name entries = .ok d) : TagEntry.InRange d.tags := by
  obtain ⟨tags, htags, h⟩ := Except.bind_eq_ok_iff.mp h
  obtain ⟨vars, -, h⟩ := Except.bind_eq_ok_iff.mp h
  obtain rfl := Except.ok.inj h
  exact (TagEntry.ofDeclaration_eq_ok_iff.mp htags).inRange

namespace TaskNode

theorem inRange_of_value (v : Value) :
    (∀ owner node, ofValue owner v = .ok node → node.InRange) ∧
      ∀ owner nodes, listOfValue owner v = .ok nodes → ∀ node ∈ nodes, node.InRange := by
  apply valueInduction (fun v => ∀ owner node, ofValue owner v = .ok node → node.InRange)
    (fun v => ∀ owner nodes, listOfValue owner v = .ok nodes → ∀ node ∈ nodes, node.InRange)
  · intro v ih owner node h
    cases hmap : v.asMap? with
    | none =>
        obtain ⟨place, hplace⟩ : ∃ place, ofValue owner v = .error place := by
          rw [ofValue]
          split
          · exact ⟨_, rfl⟩
          · next hsome => simp [hmap] at hsome
        rw [hplace] at h
        cases h
    | some entries =>
        cases hkind : hasKey entries "block" with
        | false =>
            rw [ofValue_of_task owner hmap hkind] at h
            obtain ⟨d, hd, h⟩ := Except.bind_eq_ok_iff.mp h
            obtain rfl := Except.ok.inj h
            exact .task (Declared.inRange_of_ofFields hd)
        | true =>
            rw [ofValue_of_block owner hmap hkind] at h
            obtain ⟨d, hd, h⟩ := Except.bind_eq_ok_iff.mp h
            obtain ⟨body, hbody, h⟩ := Except.bind_eq_ok_iff.mp h
            obtain ⟨rescue, hrescue, h⟩ := Except.bind_eq_ok_iff.mp h
            obtain ⟨always, halways, h⟩ := Except.bind_eq_ok_iff.mp h
            obtain rfl := Except.ok.inj h
            exact .block (Declared.inRange_of_ofFields hd) (ih entries hmap _ _ _ hbody)
              (ih entries hmap _ _ _ hrescue) (ih entries hmap _ _ _ halways)
  · intro v ih owner nodes h
    rcases list_cases v with rfl | ⟨items, rfl⟩ | ⟨-, -, herror⟩
    · rw [listOfValue] at h
      obtain rfl := Except.ok.inj h
      exact List.forall_mem_nil _
    · rw [listOfValue_list] at h
      intro node hnode
      obtain ⟨item, hitem, hitemNode⟩ := (Except.mem_of_mapM h).mp hnode
      exact ih items rfl item hitem owner node hitemNode
    · rw [herror] at h
      cases h

end TaskNode

theorem Play.inRange_of_ofValue {number : Nat} {v : Value} {play : Play}
    (h : ofValue number v = .ok play) : play.InRange := by
  rw [ofValue] at h
  split at h
  · cases h
  · next entries _ =>
    obtain ⟨d, hd, h⟩ := Except.bind_eq_ok_iff.mp h
    obtain ⟨preTasks, hpreTasks, h⟩ := Except.bind_eq_ok_iff.mp h
    obtain ⟨tasks, htasks, h⟩ := Except.bind_eq_ok_iff.mp h
    obtain ⟨postTasks, hpostTasks, h⟩ := Except.bind_eq_ok_iff.mp h
    obtain ⟨handlers, hhandlers, h⟩ := Except.bind_eq_ok_iff.mp h
    obtain rfl := Except.ok.inj h
    refine ⟨Declared.inRange_of_ofFields hd, fun s => ?_⟩
    cases s with
    | preTasks => exact (TaskNode.inRange_of_value _).2 _ _ hpreTasks
    | tasks => exact (TaskNode.inRange_of_value _).2 _ _ htasks
    | postTasks => exact (TaskNode.inRange_of_value _).2 _ _ hpostTasks
    | handlers => exact (TaskNode.inRange_of_value _).2 _ _ hhandlers

namespace Playbook

theorem inRange_of_ofPlays {number : Nat} {items : List Value} {playbook : Playbook}
    (h : ofPlays number items = .ok playbook) : ∀ play ∈ playbook, play.InRange := by
  induction items generalizing number playbook with
  | nil =>
      obtain rfl := Except.ok.inj h
      exact List.forall_mem_nil _
  | cons v rest ih =>
      obtain ⟨play, hplay, h⟩ := Except.bind_eq_ok_iff.mp h
      obtain ⟨plays, hplays, h⟩ := Except.bind_eq_ok_iff.mp h
      obtain rfl := Except.ok.inj h
      exact List.forall_mem_cons.mpr ⟨Play.inRange_of_ofValue hplay, ih hplays⟩

theorem inRange_of_ofValue {v : Value} {playbook : Playbook} (h : ofValue v = .ok playbook) :
    ∀ play ∈ playbook, play.InRange := by
  cases v with
  | null =>
      obtain rfl := Except.ok.inj h
      exact List.forall_mem_nil _
  | list items => exact inRange_of_ofPlays h
  | bool | num | str | map | tagged => cases h

end Playbook

/-! ## Selecting -/

/-- The tasks in nodes in range are, if the blocks around the nodes are. -/
theorem TaskNode.inRange_of_mem_leavesOf {s : Section} {play : Declared} {blocks : List Enclosure}
    {n : Nat} {nodes : List TaskNode} (hplay : TagEntry.InRange play.tags)
    (hblocks : ∀ e ∈ blocks, TagEntry.InRange e.declared.tags)
    (hnodes : ∀ node ∈ nodes, node.InRange) :
    ∀ leaf ∈ leavesOf s play blocks n nodes, leaf.InRange := by
  induction nodes using TaskNode.listInduction generalizing blocks n with
  | nil => exact List.forall_mem_nil _
  | task d action rest ih =>
      obtain ⟨htask, hrest⟩ := List.forall_mem_cons.mp hnodes
      rw [leavesOf, leaves, List.forall_mem_append, List.forall_mem_singleton]
      cases htask with
      | task htags =>
          exact ⟨⟨htags, List.forall_mem_cons.mpr ⟨hplay, hblocks⟩⟩, ih hblocks hrest⟩
  | block d body rescue always rest hbody hrescue halways hrest =>
      obtain ⟨hblock, hnodes⟩ := List.forall_mem_cons.mp hnodes
      cases hblock with
      | block htags hbodyNodes hrescueNodes halwaysNodes =>
          have hinner : ∀ e ∈ blocks ++ [⟨d, n⟩], TagEntry.InRange e.declared.tags := by
            rw [List.forall_mem_append, List.forall_mem_singleton]
            exact ⟨hblocks, htags⟩
          rw [leavesOf, leaves]
          simp only [List.forall_mem_append]
          exact ⟨⟨⟨hbody hinner hbodyNodes, hrescue hinner hrescueNodes⟩,
            halways hinner halwaysNodes⟩, hrest hblocks hnodes⟩

theorem Play.InRange.of_mem_leaves {play : Play} (h : play.InRange) :
    ∀ leaf ∈ play.leaves, leaf.InRange := by
  intro leaf hleaf
  obtain ⟨s, -, hleaf⟩ := List.mem_flatMap.mp hleaf
  exact TaskNode.inRange_of_mem_leavesOf h.tags (List.forall_mem_nil _) (h.nodes s) leaf hleaf

variable {rules : SelectionRules} {entries settled : List TagEntry} {earlier : List Leaf}
  {leaf : Leaf}

theorem TagEntry.InRange.leafSettle (hon : rules.templater = Templater.on)
    (hrange : TagEntry.InRange entries) (h : leaf.settle rules entries = .ok settled) :
    TagEntry.InRange settled := by
  by_cases hresolves : leaf.resolves rules.inherit = true
  · rw [Leaf.settle_of_resolves hresolves, hon] at h
    exact hrange.settle h
  · rw [Leaf.settle_of_not_resolves hresolves] at h
    obtain rfl := Except.ok.inj h
    exact hrange

theorem Enclosure.inRange_entriesAfter (hon : rules.templater = Templater.on) {e : Enclosure}
    (hrange : TagEntry.InRange e.declared.tags) (h : e.entriesAfter rules earlier = .ok entries) :
    TagEntry.InRange entries := by
  -- On the tasks that lie in the enclosure, from the first one on.
  rw [entriesAfter] at h
  generalize e.declared.tags = declared at hrange h
  generalize earlier.drop e.start = inside at h
  induction inside generalizing declared with
  | nil =>
      obtain rfl := Except.ok.inj h
      exact hrange
  | cons leaf rest ih =>
      rw [List.foldlM_cons] at h
      obtain ⟨settled, hsettled, h⟩ := Except.bind_eq_ok_iff.mp h
      exact ih settled (hrange.leafSettle hon hsettled) h

namespace Leaf

theorem inRange_of_tagsOf (hon : rules.templater = Templater.on) {e : Enclosure}
    (hrange : TagEntry.InRange e.declared.tags) {tags : TagSet}
    (h : leaf.tagsOf rules earlier e = .ok tags) : ∀ tag ∈ tags, tag.InRange := by
  obtain ⟨settled, hsettled, rfl⟩ := Except.map_eq_ok_iff.mp h
  obtain ⟨entries, hentries, hsettled⟩ := Except.bind_eq_ok_iff.mp hsettled
  have hentriesRange := e.inRange_entriesAfter hon hrange hentries
  exact fun tag => (hentriesRange.leafSettle hon hsettled).of_mem_flatten

theorem InRange.of_mem_outerTags (hon : rules.templater = Templater.on) (hrange : leaf.InRange)
    {outer : List TagSet} (h : leaf.outerTags rules earlier = .ok outer) :
    ∀ tags ∈ outer, ∀ tag ∈ tags, tag.InRange := by
  by_cases hresolves : leaf.resolves rules.inherit = true
  · rw [outerTags_of_resolves hresolves] at h
    intro tags htags
    obtain ⟨e, he, htagsOf⟩ := (Except.mem_of_mapM h).mp htags
    exact inRange_of_tagsOf hon (hrange.around e (List.mem_reverse.mp he)) htagsOf
  · rw [outerTags_of_not_resolves hresolves] at h
    obtain rfl := Except.ok.inj h
    exact List.forall_mem_nil _

theorem InRange.outcome (hon : rules.templater = Templater.on) (hrange : leaf.InRange)
    {t : TaskSelection} (h : leaf.outcome rules earlier = .ok t) : ∀ tag ∈ t.tags, tag.InRange := by
  obtain ⟨own, hown, h⟩ := Except.bind_eq_ok_iff.mp h
  obtain ⟨outer, houter, h⟩ := Except.bind_eq_ok_iff.mp h
  obtain rfl := Except.ok.inj h
  obtain ⟨settled, hsettled, rfl⟩ := Except.map_eq_ok_iff.mp hown
  have hownRange := hrange.tags.leafSettle hon hsettled
  intro tag htag
  have hmem : tag ∈ if rules.inherit then (TagEntry.flatten settled).union (TagSet.unions outer)
      else TagEntry.flatten settled := htag
  split at hmem
  · rcases TagSet.mem_union.mp hmem with hmem | hmem
    · exact hownRange.of_mem_flatten hmem
    · obtain ⟨tags, htags, hmem⟩ := TagSet.mem_unions.mp hmem
      exact hrange.of_mem_outerTags hon houter tags htags tag hmem
  · exact hownRange.of_mem_flatten hmem

theorem forall_of_outcomes {P : TaskSelection → Prop} {leaves : List Leaf} {ts : List TaskSelection}
    (hP : ∀ leaf ∈ leaves, ∀ earlier t, leaf.outcome rules earlier = .ok t → P t)
    (h : outcomes rules earlier leaves = .ok ts) : ∀ t ∈ ts, P t := by
  induction leaves generalizing earlier ts with
  | nil =>
      obtain rfl := Except.ok.inj h
      exact List.forall_mem_nil _
  | cons leaf rest ih =>
      obtain ⟨t, ht, h⟩ := Except.bind_eq_ok_iff.mp h
      obtain ⟨us, hus, h⟩ := Except.bind_eq_ok_iff.mp h
      obtain rfl := Except.ok.inj h
      obtain ⟨hleaf, hrest⟩ := List.forall_mem_cons.mp hP
      exact List.forall_mem_cons.mpr ⟨hleaf _ _ ht, ih hrest hus⟩

end Leaf

/-- The tags of a selection are in range if those of its play are. -/
theorem Play.InRange.select {play : Play} {p : PlaySelection} (hrange : play.InRange)
    (hon : rules.templater = Templater.on) (h : play.select rules = .ok p) :
    (∀ tag ∈ p.tags, tag.InRange) ∧ ∀ t ∈ p.tasks, ∀ tag ∈ t.tags, tag.InRange := by
  constructor
  · obtain ⟨entries, hentries, htags⟩ := play.entriesAfter_of_select h
    rw [htags]
    intro tag
    exact (Enclosure.inRange_entriesAfter hon hrange.tags hentries).of_mem_flatten
  · refine Leaf.forall_of_outcomes (fun leaf hleaf earlier t ht => ?_) (play.outcomes_of_select h)
    exact (hrange.of_mem_leaves leaf hleaf).outcome hon ht

end TaskTags
