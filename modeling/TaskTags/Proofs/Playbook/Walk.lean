import TaskTags.Proofs.Playbook.Outcome

/-!
# The walk through a play

A walk keeps the chain of scopes around its place and rewrites it at each task. What it selects is
what becomes of the tasks in turn: the chain holds at every place what the tasks so far have left of
the declarations around it, and each step keeps this.
-/

namespace TaskTags

namespace Walk

/-- The tags that a task is decided on: with those of the scopes around it when they count. -/
def reported (rules : SelectionRules) (chain : TagChain) : TagSet :=
  if rules.inherit then chain.allTags else chain.ownTags

/-- The scopes of a task and those around it, settled if the task has them resolved. -/
def settled (rules : SelectionRules) (s : Section) (d : Declared) (w : Walk) :
    Except Error TagChain :=
  if s = .handlers || rules.inherit || !d.tags.isEmpty then
    (w.open .task d).chain.mapM
      (TagScope.settle (rules.templater ((w.open .task d).templateVars rules)))
  else .ok (w.open .task d).chain

/-- The three ways to decide a task differ in when they resolve and in which tags count. -/
theorem task_eq (rules : SelectionRules) (s : Section) (d : Declared) (action : Option String)
    (w : Walk) :
    w.task rules s d action = (w.settled rules s d).map fun chain =>
      { w with
        chain := chain.tail
        tasks := w.tasks ++ [⟨d.name, action, s, w.blocks, reported rules chain,
          s = .handlers || rules.filter.runs (reported rules chain)⟩] } := by
  have hchain : (w.open .task d).chain = ⟨.task, d.name, d.tags⟩ :: w.chain := rfl
  rw [task, settled, hchain]
  generalize rules.templater ((w.open .task d).templateVars rules) = template
  -- A task that is no handler and has no tags of its own resolves nothing when only its own count.
  by_cases hresolves : s = .handlers ∨ rules.inherit = true ∨ d.tags ≠ []
  · have hcond : (decide (s = .handlers) || rules.inherit || !d.tags.isEmpty) = true := by
      simpa [or_assoc] using hresolves
    rw [if_pos hcond]
    rcases TagChain.resolve_cases template (⟨.task, d.name, d.tags⟩ :: w.chain) with
      ⟨chain, hsettled, hresolve⟩ | ⟨e, hsettled, hresolve⟩
    · rw [hsettled]
      by_cases hs : s = .handlers
      · simp [hs, hresolve, close, reported, Walk.open]
      by_cases hinherit : rules.inherit = true
      · simp [hs, hinherit, TagChain.decideAll, hresolve, close, reported, Walk.open]
      have htags : d.tags ≠ [] := by simpa [hs, hinherit] using hresolves
      simp [hs, hinherit, htags, TagChain.decideOwn, TagScope.hasTags, hresolve, close, reported,
        Walk.open]
    · rw [hsettled]
      by_cases hs : s = .handlers
      · simp [hs, hresolve]
      by_cases hinherit : rules.inherit = true
      · simp [hs, hinherit, TagChain.decideAll, hresolve]
      have htags : d.tags ≠ [] := by simpa [hs, hinherit] using hresolves
      simp [hs, hinherit, htags, TagChain.decideOwn, TagScope.hasTags, hresolve]
  · obtain ⟨hs, hinherit, htags⟩ : s ≠ .handlers ∧ rules.inherit = false ∧ d.tags = [] := by
      simpa using hresolves
    simp [hs, hinherit, htags, TagChain.decideOwn, TagScope.hasTags, close, reported, Walk.open]

/-- A walk stands at a place after some tasks of its play: its chain holds what they have left of
the declarations around the place. -/
structure At (rules : SelectionRules) (play : Declared) (blocks : List Enclosure)
    (earlier : List Leaf) (w : Walk) : Prop where
  started : ∀ e ∈ blocks, e.start ≤ earlier.length
  chain : List.Forall₂ (fun (e : Enclosure) (scope : TagScope) =>
    e.entriesAfter rules earlier = .ok scope.tags) (⟨play, 0⟩ :: blocks).reverse w.chain
  vars : w.vars = ((⟨play, 0⟩ :: blocks).map (·.declared.vars)).reverse
  names : w.blocks = blocks.map (·.declared.name)

namespace At

variable {rules : SelectionRules} {play : Declared} {blocks : List Enclosure}
  {earlier : List Leaf} {w : Walk}

theorem templateVars (h : w.At rules play blocks earlier) (s : Section) (d : Declared)
    (action : Option String) :
    (w.open .task d).templateVars rules
      = Leaf.context rules.extraVars ⟨s, play, blocks, d, action⟩ := by
  rw [Leaf.context_eq_layer, Walk.templateVars, Walk.open, h.vars]
  simp [Leaf.around]

/-- At its place a task settles the scopes around it as it settles the entries in them. -/
theorem settled (h : w.At rules play blocks earlier) (s : Section) (d : Declared)
    (action : Option String) :
    w.settled rules s d = (w.open .task d).chain.mapM
      (Leaf.settleScope rules ⟨s, play, blocks, d, action⟩) := by
  rw [Walk.settled, h.templateVars s d action]
  by_cases hresolves : Leaf.resolves rules.inherit ⟨s, play, blocks, d, action⟩ = true
  · have hsettle : Leaf.settleScope rules ⟨s, play, blocks, d, action⟩ = TagScope.settle
        (rules.templater (Leaf.context rules.extraVars ⟨s, play, blocks, d, action⟩)) := by
      funext scope
      rw [Leaf.settleScope, Leaf.settle_of_resolves hresolves, TagScope.settle]
    rw [hsettle]
    exact if_pos hresolves
  · have hsettle : Leaf.settleScope rules ⟨s, play, blocks, d, action⟩ = pure := by
      funext scope
      rw [Leaf.settleScope, Leaf.settle_of_not_resolves hresolves]
      rfl
    rw [hsettle, List.mapM_pure, List.map_id']
    exact if_neg hresolves

theorem mapM_around (h : w.At rules play blocks earlier) (leaf : Leaf) :
    (⟨play, 0⟩ :: blocks).reverse.mapM (leaf.tagsOf rules earlier)
      = (w.chain.mapM (leaf.settleScope rules)).map (List.map TagScope.tagSet) := by
  have hchain := h.chain
  generalize (⟨play, 0⟩ :: blocks).reverse = es, w.chain = chain at hchain
  induction hchain with
  | nil => rfl
  | @cons e scope es chain he _ ih =>
      rw [List.mapM_cons, List.mapM_cons, ih, Leaf.tagsOf, he, Except.ok_bind, Leaf.settleScope]
      cases leaf.settle rules scope.tags with
      | error err => rfl
      | ok tags => cases chain.mapM (leaf.settleScope rules) <;> rfl

theorem reported_cons (rules : SelectionRules) (scope : TagScope) (outer : TagChain) :
    reported rules (scope :: outer) = if rules.inherit then
      scope.tagSet.union (TagSet.unions (outer.map TagScope.tagSet)) else scope.tagSet := by
  have hall : TagChain.allTags (scope :: outer)
      = scope.tagSet.union (TagSet.unions (outer.map TagScope.tagSet)) := by
    rw [TagChain.allTags, List.flatMap_cons, TagEntry.flatten_append, List.flatMap_def,
      TagEntry.flatten_flatten, List.map_map]
    rfl
  rw [reported, hall, TagChain.ownTags]

/-- A task comes to what its walk selects. -/
theorem outcome_eq (h : w.At rules play blocks earlier) (s : Section) (d : Declared)
    (action : Option String) :
    Leaf.outcome rules earlier ⟨s, play, blocks, d, action⟩
      = (w.settled rules s d).map fun chain =>
          Leaf.toSelection rules.filter ⟨s, play, blocks, d, action⟩ (reported rules chain) := by
  by_cases hresolves : Leaf.resolves rules.inherit ⟨s, play, blocks, d, action⟩ = true
  · rw [h.settled s d action, Leaf.outcome, Leaf.outerTags_of_resolves hresolves, Leaf.around,
      h.mapM_around, Walk.open, List.mapM_cons, Leaf.settleScope]
    cases Leaf.settle rules ⟨s, play, blocks, d, action⟩ d.tags with
    | error e => rfl
    | ok own =>
        cases w.chain.mapM (Leaf.settleScope rules ⟨s, play, blocks, d, action⟩) with
        | error e => rfl
        | ok outer =>
            simp only [Except.ok_bind, Except.ok_map, pure, Except.pure, reported_cons]
            rfl
  · have hsettled : w.settled rules s d = .ok (⟨.task, d.name, d.tags⟩ :: w.chain) :=
      if_neg hresolves
    rw [hsettled, Except.ok_map, reported_cons, Leaf.outcome,
      Leaf.outerTags_of_not_resolves hresolves, Leaf.settle_of_not_resolves hresolves,
      Leaf.inherit_of_not_resolves hresolves]
    rfl

/-- After a task the chain holds what it has made of the declarations around it. -/
theorem close (h : w.At rules play blocks earlier) {s : Section} {d : Declared}
    {action : Option String} {chain : TagChain} (hchain : w.settled rules s d = .ok chain)
    (tasks : List TaskSelection) :
    Walk.At rules play blocks (earlier ++ [⟨s, play, blocks, d, action⟩])
      { w with chain := chain.tail, tasks := tasks } := by
  rw [h.settled s d action, Except.mapM_eq_ok_iff, Walk.open, List.forall₂_cons_left_iff] at hchain
  obtain ⟨own, outer, -, houter, rfl⟩ := hchain
  refine ⟨fun e he => ?_, ?_, h.vars, h.names⟩
  · rw [List.length_append]
    exact Nat.le_add_right_of_le (h.started e he)
  · have hstart : ∀ e ∈ (⟨play, 0⟩ :: blocks : List Enclosure).reverse,
        e.start ≤ earlier.length := by
      intro e he
      rcases List.mem_cons.mp (List.mem_reverse.mp he) with rfl | he
      · exact Nat.zero_le _
      · exact h.started e he
    have hbefore := h.chain
    generalize (⟨play, 0⟩ :: blocks : List Enclosure).reverse = es at hbefore hstart
    show List.Forall₂ _ es outer
    generalize w.chain = scopes at hbefore houter
    induction hbefore generalizing outer with
    | nil => cases houter; exact .nil
    | @cons e scope es scopes he _ ih =>
        obtain ⟨scope', outer', hscope, houter', rfl⟩ := List.forall₂_cons_left_iff.mp houter
        obtain ⟨tags, htags, rfl⟩ := Except.map_eq_ok_iff.mp hscope
        refine .cons ?_ (ih outer' (fun e' he' => hstart e' (List.mem_cons_of_mem e he')) houter')
        rw [Enclosure.entriesAfter_append (hstart e List.mem_cons_self), he]
        exact htags

theorem enter (h : w.At rules play blocks earlier) (d : Declared) :
    Walk.At rules play (blocks ++ [⟨d, earlier.length⟩]) earlier
      { w.open .block d with blocks := w.blocks ++ [d.name] } := by
  refine ⟨fun e he => ?_, ?_, ?_, ?_⟩
  · rcases List.mem_append.mp he with he | he
    · exact h.started e he
    · exact Nat.le_of_eq (congrArg Enclosure.start (List.mem_singleton.mp he))
  · rw [← List.cons_append, List.reverse_append, List.reverse_singleton, List.singleton_append]
    exact .cons (Enclosure.entriesAfter_of_length_le (Nat.le_refl _)) h.chain
  · rw [Walk.open, h.vars, ← List.cons_append, List.map_append, List.reverse_append]
    rfl
  · rw [h.names, List.map_append]
    rfl

theorem leave {e : Enclosure} (h : w.At rules play (blocks ++ [e]) earlier) :
    Walk.At rules play blocks earlier
      { w.close with blocks := blocks.map (·.declared.name) } := by
  have hchain := h.chain
  rw [← List.cons_append, List.reverse_append, List.reverse_singleton, List.singleton_append,
    List.forall₂_cons_left_iff] at hchain
  obtain ⟨scope, scopes, -, hscopes, hw⟩ := hchain
  refine ⟨fun e' he' => h.started e' (List.mem_append_left _ he'), ?_, ?_, rfl⟩
  · rw [Walk.close, hw]
    exact hscopes
  · rw [Walk.close, h.vars, ← List.cons_append, List.map_append, List.reverse_append]
    rfl

end At

/-- A step of a walk does to it what becomes of some tasks, `n` tasks of the play being in front of
them: it selects them and goes on to the place behind them, or fails as they do. -/
def Visits (rules : SelectionRules) (play : Declared) (blocks : List Enclosure) (n : Nat)
    (leaves : List Leaf) (step : Walk → Except Error Walk) : Prop :=
  ∀ earlier w, earlier.length = n → w.At rules play blocks earlier →
    match Leaf.outcomes rules earlier leaves with
    | .error e => step w = .error e
    | .ok ts => ∃ w', step w = .ok w' ∧ w'.At rules play blocks (earlier ++ leaves) ∧
        w'.tasks = w.tasks ++ ts

namespace Visits

variable {rules : SelectionRules} {play : Declared} {blocks : List Enclosure} {n : Nat}

theorem nil : Visits rules play blocks n [] .ok := by
  intro earlier w _ hw
  exact ⟨w, rfl, by rwa [List.append_nil], (List.append_nil _).symm⟩

theorem append {xs ys : List Leaf} {f g : Walk → Except Error Walk}
    (hf : Visits rules play blocks n xs f) (hg : Visits rules play blocks (n + xs.length) ys g) :
    Visits rules play blocks n (xs ++ ys) fun w => f w >>= g := by
  intro earlier w hlength hw
  have hfirst := hf earlier w hlength hw
  rw [Leaf.outcomes_append]
  cases hxs : Leaf.outcomes rules earlier xs with
  | error e =>
      rw [hxs] at hfirst
      simp [hfirst]
  | ok ts =>
      rw [hxs] at hfirst
      obtain ⟨w₁, hw₁, hat₁, htasks₁⟩ := hfirst
      have hsecond := hg (earlier ++ xs) w₁ (by rw [List.length_append, hlength]) hat₁
      simp only [hw₁, Except.ok_bind]
      cases hys : Leaf.outcomes rules (earlier ++ xs) ys with
      | error e =>
          rw [hys] at hsecond
          exact hsecond
      | ok us =>
          rw [hys] at hsecond
          obtain ⟨w₂, hw₂, hat₂, htasks₂⟩ := hsecond
          exact ⟨w₂, hw₂, by rwa [← List.append_assoc],
            by rw [htasks₂, htasks₁, List.append_assoc]⟩

theorem task (s : Section) (d : Declared) (action : Option String) :
    Visits rules play blocks n [⟨s, play, blocks, d, action⟩] (Walk.task rules s d action) := by
  intro earlier w _ hw
  rw [Leaf.outcomes_singleton, hw.outcome_eq, Walk.task_eq]
  cases hchain : w.settled rules s d with
  | error e => rfl
  | ok chain =>
      refine ⟨_, rfl, hw.close hchain _, ?_⟩
      simp only [Leaf.toSelection, hw.names]

theorem block {d : Declared} {body rescue always : List Leaf}
    {f g h : Walk → Except Error Walk}
    (hbody : Visits rules play (blocks ++ [⟨d, n⟩]) n body f)
    (hrescue : Visits rules play (blocks ++ [⟨d, n⟩]) (n + body.length) rescue g)
    (halways : Visits rules play (blocks ++ [⟨d, n⟩]) (n + body.length + rescue.length) always h) :
    Visits rules play blocks n (body ++ rescue ++ always) fun w => do
      let inner ← f { w.open .block d with blocks := w.blocks ++ [d.name] }
      let inner ← g inner
      let inner ← h inner
      return { inner.close with blocks := w.blocks } := by
  intro earlier w hlength hw
  subst hlength
  -- The three parts are one step from the place that the block opens.
  have hparts := (hbody.append hrescue).append (by rwa [List.length_append, ← Nat.add_assoc])
  have hinner := hparts earlier _ rfl (hw.enter d)
  cases hts : Leaf.outcomes rules earlier (body ++ rescue ++ always) with
  | error e =>
      rw [hts] at hinner
      simp only [← bind_assoc, hinner, Except.error_bind]
  | ok ts =>
      rw [hts] at hinner
      obtain ⟨w', hw', hat, htasks⟩ := hinner
      refine ⟨{ w'.close with blocks := w.blocks }, ?_, ?_, htasks⟩
      · simp only [← bind_assoc, hw', Except.ok_bind]
        rfl
      · rw [hw.names]
        exact hat.leave

theorem walkAll (s : Section) (nodes : List TaskNode) :
    Visits rules play blocks n (TaskNode.leavesOf s play blocks n nodes)
      (TaskNode.walkAll rules s nodes) := by
  induction nodes using TaskNode.listInduction generalizing blocks n with
  | nil => exact nil
  | task d action rest ih => exact (task s d action).append ih
  | block d body rescue always rest hbody hrescue halways hrest =>
      refine (Visits.block hbody ?_ ?_).append ?_
      · rw [TaskNode.length_leavesOf]
        exact hrescue
      · rw [TaskNode.length_leavesOf, TaskNode.length_leavesOf]
        exact halways
      · simp only [List.length_append, TaskNode.length_leavesOf]
        exact hrest

theorem sections (p : Play) :
    Visits rules p.declared [] 0 p.leaves fun w =>
      Section.all.foldlM (fun w s => TaskNode.walkAll rules s (p.nodes s) w) w := by
  have hwalk : (fun w => Section.all.foldlM (fun w s => TaskNode.walkAll rules s (p.nodes s) w) w)
      = fun w => ((TaskNode.walkAll rules .preTasks p.preTasks w
          >>= TaskNode.walkAll rules .tasks p.tasks)
          >>= TaskNode.walkAll rules .postTasks p.postTasks)
          >>= TaskNode.walkAll rules .handlers p.handlers := by
    funext w
    simp [Section.all, Play.nodes]
  rw [p.leaves_eq_append, hwalk]
  refine (((walkAll .preTasks p.preTasks).append ?_).append ?_).append ?_
  all_goals
    simp only [List.length_append, TaskNode.length_leavesOf, Nat.zero_add]
    exact walkAll _ _

end Visits

theorem at_start (rules : SelectionRules) (d : Declared) :
    Walk.At rules d [] [] ⟨[⟨.play, d.name, d.tags⟩], [d.vars], [], []⟩ :=
  ⟨nofun, .cons rfl .nil, rfl, rfl⟩

end Walk

/-- A selection decides the tasks of a play in turn; the tags of the play are those that all of them
have left of its declaration. -/
theorem Play.select_eq (rules : SelectionRules) (play : Play) :
    play.select rules = (do
      let tasks ← Leaf.outcomes rules [] play.leaves
      let tags ← Enclosure.entriesAfter rules play.leaves ⟨play.declared, 0⟩
      return ⟨play.declared.name, TagEntry.flatten tags, tasks⟩) := by
  have hvisits := @Walk.Visits.sections rules play [] _ rfl
    (Walk.at_start rules play.declared)
  rw [Play.select]
  cases houtcomes : Leaf.outcomes rules [] play.leaves with
  | error e =>
      simp only [houtcomes] at hvisits
      rw [hvisits]
      rfl
  | ok ts =>
      simp only [houtcomes] at hvisits
      obtain ⟨w, hw, hat, htasks⟩ := hvisits
      obtain ⟨scope, scopes, htags, -, hchain⟩ := List.forall₂_cons_left_iff.mp hat.chain
      rw [List.nil_append] at htags
      simp only [hw, Except.ok_bind, hchain, htasks, htags]
      rfl

theorem Play.outcomes_of_select {rules : SelectionRules} {play : Play} {p : PlaySelection}
    (h : play.select rules = .ok p) : Leaf.outcomes rules [] play.leaves = .ok p.tasks := by
  rw [select_eq] at h
  obtain ⟨ts, hts, h⟩ := Except.bind_eq_ok_iff.mp h
  obtain ⟨tags, -, h⟩ := Except.bind_eq_ok_iff.mp h
  cases h
  exact hts

end TaskTags
