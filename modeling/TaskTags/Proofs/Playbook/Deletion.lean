import TaskTags.Proofs.Playbook.Preserved
import TaskTags.Proofs.Playbook.Thin

/-!
# Selections with tasks left out

A task that is resolved leaves the declarations around it resolved under its own variables, and
later tasks find them so. Leaving a task out can therefore change the tags of later tasks or make
the selection fail; it does neither where it leaves the declarations around the others undisturbed.
-/

namespace TaskTags

variable {rules : SelectionRules} {keep : Nat → Bool}

namespace Leaf

/-- The kept ones of the first tasks of a play, as tasks of what is left of it. -/
def keptOf (keep : Nat → Bool) (leaves : List Leaf) : List Leaf :=
  (kept keep 0 leaves).map (renumber keep)

variable {leaf : Leaf} {leaves : List Leaf}

theorem length_keptOf : (keptOf keep leaves).length = TaskTags.renumber keep leaves.length := by
  rw [keptOf, List.length_map, length_kept]

theorem keptOf_append (xs ys : List Leaf) :
    keptOf keep (xs ++ ys) = keptOf keep xs ++ (kept keep xs.length ys).map (renumber keep) := by
  rw [keptOf, kept_append, Nat.zero_add, List.map_append, keptOf]

theorem keptOf_append_of_keep (h : keep leaves.length = true) (rest : List Leaf) :
    keptOf keep (leaves ++ leaf :: rest)
      = keptOf keep leaves ++
          leaf.renumber keep :: (kept keep (leaves.length + 1) rest).map (renumber keep) := by
  rw [keptOf_append, kept, if_pos h, List.map_cons]

theorem keptOf_append_of_not_keep (h : keep leaves.length ≠ true) :
    keptOf keep (leaves ++ [leaf]) = keptOf keep leaves := by
  rw [keptOf_append, kept, if_neg h, kept, List.map_nil, List.append_nil]

theorem context_renumber (extraVars : Bindings) :
    (leaf.renumber keep).context extraVars = leaf.context extraVars := by
  rw [context, context, renumber, List.foldl_map]
  rfl

@[simp]
theorem settle_renumber : (leaf.renumber keep).settle rules = leaf.settle rules := by
  funext entries
  rw [settle, settle, context_renumber]
  rfl

theorem toSelection_renumber (filter : TagFilter) :
    (leaf.renumber keep).toSelection filter = leaf.toSelection filter := by
  funext tags
  rw [toSelection, toSelection, renumber, List.map_map]
  rfl

theorem around_renumber :
    (leaf.renumber keep).around = leaf.around.map (Enclosure.renumber keep) := rfl

/-- A task makes some tags of entries, and nothing in them is a template any more. -/
def SettlesTo (rules : SelectionRules) (entries : List TagEntry) (tags : TagSet) (leaf : Leaf) :
    Prop :=
  ∃ settled, leaf.settle rules entries = .ok settled ∧ TagEntry.Plain settled ∧
    TagEntry.flatten settled = tags

theorem SettlesTo.of_context_eq {other : Leaf} {entries : List TagEntry} {tags : TagSet}
    (h : leaf.SettlesTo rules entries tags) (hleaf : leaf.resolves rules.inherit = true)
    (hother : other.resolves rules.inherit = true)
    (hcontext : other.context rules.extraVars = leaf.context rules.extraVars) :
    other.SettlesTo rules entries tags := by
  rwa [SettlesTo, settle_of_resolves hother, hcontext, ← settle_of_resolves hleaf]

theorem SettlesTo.renumber {entries : List TagEntry} {tags : TagSet}
    (h : leaf.SettlesTo rules entries tags) :
    (leaf.renumber keep).SettlesTo rules entries tags := by
  rwa [SettlesTo, settle_renumber]

end Leaf

namespace Enclosure

variable {e : Enclosure} {seen gap before : List Leaf} {leaf : Leaf} {entries : List TagEntry}
  {tags : TagSet}

/-- No task that resolves the declaration is left out of the given ones. -/
def KeepsResolving (rules : SelectionRules) (keep : Nat → Bool) (seen : List Leaf)
    (e : Enclosure) : Prop :=
  ∀ n leaf, seen[n]? = some leaf → e.start ≤ n → leaf.resolves rules.inherit = true → keep n = true

/-- A declaration around a task is undisturbed by what is left out in front of the task. -/
inductive Undisturbed (rules : SelectionRules) (keep : Nat → Bool) (before : List Leaf)
    (leaf : Leaf) (e : Enclosure) : Prop
  /-- No task that resolves the declaration is left out. -/
  | kept (kept : e.KeepsResolving rules keep before)
  /-- None is left out before the declaration has become plain. -/
  | plain (seen later : List Leaf) {entries : List TagEntry} (split : before = seen ++ later)
      (kept : e.KeepsResolving rules keep seen) (reached : e.entriesAfter rules seen = .ok entries)
      (plain : TagEntry.Plain entries)
  /-- None is left out up to some point. From there up to a task that is kept, which may be the task
  in question, all that resolve the declaration make the same tags of what it is at that point. -/
  | agreeing (seen gap later : List Leaf) {first : Leaf} {entries : List TagEntry} {tags : TagSet}
      (split : before ++ [leaf] = seen ++ gap ++ first :: later) (start : e.start ≤ seen.length)
      (kept : e.KeepsResolving rules keep seen) (reached : e.entriesAfter rules seen = .ok entries)
      (agree : ∀ other ∈ gap, other.resolves rules.inherit = true →
        other.SettlesTo rules entries tags)
      (keepsFirst : keep (seen ++ gap).length = true)
      (settles : first.SettlesTo rules entries tags)

theorem undisturbed_of_plain (h : TagEntry.Plain e.declared.tags) :
    e.Undisturbed rules keep before leaf :=
  .plain [] before rfl nofun entriesAfter_nil h

/-- Where all tasks that resolve a declaration see the same variables and it becomes plain, any of
them may be left out in front of the last one. -/
theorem undisturbed_of_context_eq (hstart : e.start ≤ before.length)
    (hkeep : keep before.length = true) (hresolves : leaf.resolves rules.inherit = true)
    (hsettles : leaf.SettlesTo rules e.declared.tags tags)
    (h : ∀ other ∈ before.drop e.start, other.resolves rules.inherit = true →
      other.context rules.extraVars = leaf.context rules.extraVars) :
    e.Undisturbed rules keep before leaf := by
  have hlength : (before.take e.start).length = e.start := List.length_take_of_le hstart
  have hsplit : before.take e.start ++ before.drop e.start = before := List.take_append_drop _ _
  refine .agreeing (before.take e.start) (before.drop e.start) [] ?_ hlength.ge ?_
    (entriesAfter_of_length_le hlength.le) ?_ ?_ hsettles
  · rw [hsplit]
  · -- No task of the enclosure is among the first ones.
    intro n other hother hn
    have hlt := (List.getElem?_eq_some_iff.mp hother).1
    rw [hlength] at hlt
    exact absurd hn (Nat.not_le_of_lt hlt)
  · exact fun other hother hother' =>
      hsettles.of_context_eq hresolves hother' (h other hother hother')
  · rw [hsplit]
    exact hkeep

theorem start_renumber_le (h : e.start ≤ seen.length) :
    (e.renumber keep).start ≤ (Leaf.keptOf keep seen).length := by
  rw [Leaf.length_keptOf]
  exact renumber_mono h

/-- A declaration stands the same after the kept tasks as after all. -/
theorem entriesAfter_keptOf (h : e.KeepsResolving rules keep seen) :
    (e.renumber keep).entriesAfter rules (Leaf.keptOf keep seen) = e.entriesAfter rules seen := by
  -- The last task is kept, does not resolve the declaration, or lies in front of the enclosure.
  induction seen using List.reverseRecOn with
  | nil =>
      rw [entriesAfter_nil]
      exact entriesAfter_nil
  | append_singleton seen leaf ih =>
      have hseen : e.KeepsResolving rules keep seen := by
        intro n other hother
        refine h n other ?_
        rw [List.getElem?_append_left (List.getElem?_eq_some_iff.mp hother).1]
        exact hother
      have hleaf := h seen.length leaf List.getElem?_concat_length
      by_cases hstart : e.start ≤ seen.length
      · rw [entriesAfter_append hstart, ← ih hseen]
        by_cases hkeep : keep seen.length = true
        · rw [Leaf.keptOf_append_of_keep hkeep]
          exact (entriesAfter_append (start_renumber_le hstart)).trans
            (by rw [Leaf.settle_renumber])
        · have hresolves : ¬ leaf.resolves rules.inherit = true := fun hr => hkeep (hleaf hstart hr)
          have hsettle : leaf.settle rules = pure := by
            funext entries
            exact Leaf.settle_of_not_resolves hresolves
          rw [Leaf.keptOf_append_of_not_keep hkeep, hsettle, bind_pure]
      · have hlength : (seen ++ [leaf]).length ≤ e.start := by
          rw [List.length_append, List.length_singleton]
          omega
        have hlength' : (Leaf.keptOf keep (seen ++ [leaf])).length ≤ (e.renumber keep).start := by
          rw [Leaf.length_keptOf]
          exact renumber_mono hlength
        rw [entriesAfter_of_length_le hlength, entriesAfter_of_length_le hlength']
        rfl

/-- After tasks that make the same tags of a declaration it is as before or plain with them. -/
theorem entriesAfter_append_of_settlesTo (hon : rules.templater = Templater.on)
    (hstart : e.start ≤ seen.length) (hreached : e.entriesAfter rules seen = .ok entries)
    (h : ∀ other ∈ gap, other.resolves rules.inherit = true →
      other.SettlesTo rules entries tags) :
    ∃ last, e.entriesAfter rules (seen ++ gap) = .ok last ∧
      (last = entries ∨ TagEntry.Plain last ∧ TagEntry.flatten last = tags) := by
  induction gap using List.reverseRecOn with
  | nil => exact ⟨entries, by rwa [List.append_nil], .inl rfl⟩
  | append_singleton gap leaf ih =>
      obtain ⟨last, hlast, hcases⟩ := ih fun other hother => h other (List.mem_append_left _ hother)
      have hstart' := hstart.trans (List.sublist_append_left seen gap).length_le
      rw [← List.append_assoc, entriesAfter_append hstart', hlast, Except.ok_bind]
      by_cases hresolves : leaf.resolves rules.inherit = true
      · rcases hcases with rfl | ⟨hplain, hflatten⟩
        · obtain ⟨settled, hsettle, hsettled⟩ := h leaf (by simp) hresolves
          exact ⟨settled, hsettle, .inr hsettled⟩
        · obtain ⟨settled, hsettle, hsettled, hsame⟩ :=
            SelectionRules.preserves_plain hon leaf last hplain
          exact ⟨settled, hsettle, .inr ⟨hsettled, hsame.trans hflatten⟩⟩
      · exact ⟨last, Leaf.settle_of_not_resolves hresolves, hcases⟩

/-- Once one of these tasks resolves the declaration it has these tags for all tasks behind. -/
theorem map_entriesAfter_of_settlesTo (hon : rules.templater = Templater.on)
    (hstart : e.start ≤ seen.length) (hreached : e.entriesAfter rules seen = .ok entries)
    (h : ∀ other ∈ gap, other.resolves rules.inherit = true → other.SettlesTo rules entries tags)
    {first : Leaf} (hfirst : first.SettlesTo rules entries tags) (later : List Leaf) :
    (e.entriesAfter rules (seen ++ gap ++ first :: later)).map TagEntry.flatten = .ok tags := by
  have hpreserves := SelectionRules.preserves_plain hon
  obtain ⟨last, hlast, hcases⟩ := entriesAfter_append_of_settlesTo hon hstart hreached h
  have hsettles : first.SettlesTo rules last tags := by
    rcases hcases with rfl | ⟨hplain, rfl⟩
    · exact hfirst
    · exact hpreserves first last hplain
  obtain ⟨settled, hsettle, hplain, rfl⟩ := hsettles
  have hstart' := hstart.trans (List.sublist_append_left seen gap).length_le
  have hafter : e.entriesAfter rules (seen ++ gap ++ [first]) = .ok settled := by
    rw [entriesAfter_append hstart', hlast]
    exact hsettle
  obtain ⟨final, hfinal, -, hflatten⟩ :=
    entriesAfter_append_of_preserves hpreserves hafter hplain later
  rw [← List.append_cons] at hfinal
  rw [hfinal, Except.ok_map, hflatten]

/-- An undisturbed declaration comes to the same tags at a task that is kept. -/
theorem tagsOf_keptOf (hon : rules.templater = Templater.on) (hkeep : keep before.length = true)
    (h : e.Undisturbed rules keep before leaf) :
    (leaf.renumber keep).tagsOf rules (Leaf.keptOf keep before) (e.renumber keep)
      = leaf.tagsOf rules before e := by
  cases h with
  | kept h => rw [Leaf.tagsOf, Leaf.tagsOf, entriesAfter_keptOf h, Leaf.settle_renumber]
  | plain seen later split kept reached plain =>
      have hpreserves := SelectionRules.preserves_plain hon
      have hreached := (entriesAfter_keptOf kept).trans reached
      rw [split, Leaf.keptOf_append, Leaf.tagsOf_append_of_preserves hpreserves reached plain,
        Leaf.tagsOf_append_of_preserves hpreserves hreached plain]
  | @agreeing seen gap later first entries tags split start kept reached agree keepsFirst settles =>
      have hlength := congrArg List.length split
      simp only [List.length_append, List.length_cons, List.length_nil] at hlength
      have hstart : e.start ≤ before.length := by omega
      have hgap : ∀ other ∈ (TaskTags.kept keep seen.length gap).map (Leaf.renumber keep),
          other.resolves rules.inherit = true → other.SettlesTo rules entries tags := by
        intro other hother hresolves
        obtain ⟨leaf, hleaf, rfl⟩ := List.mem_map.mp hother
        exact (agree leaf (mem_of_mem_kept hleaf) hresolves).renumber
      have hkept : Leaf.keptOf keep before ++ [leaf.renumber keep]
          = Leaf.keptOf keep (before ++ [leaf]) := by
        rw [Leaf.keptOf_append_of_keep hkeep]
        rfl
      rw [Leaf.tagsOf_eq hstart, Leaf.tagsOf_eq (start_renumber_le hstart), hkept, split,
        Leaf.keptOf_append_of_keep keepsFirst, Leaf.keptOf_append,
        map_entriesAfter_of_settlesTo hon start reached agree settles,
        map_entriesAfter_of_settlesTo hon (start_renumber_le start)
          ((entriesAfter_keptOf kept).trans reached) hgap settles.renumber]

end Enclosure

namespace Leaf

variable {leaf : Leaf} {before : List Leaf}

/-- A kept task comes to the same if the declarations around it are undisturbed or if it does not
resolve them. -/
theorem outcome_keptOf (hon : rules.templater = Templater.on) (hkeep : keep before.length = true)
    (h : leaf.resolves rules.inherit = true →
      ∀ e ∈ leaf.around, e.Undisturbed rules keep before leaf) :
    (leaf.renumber keep).outcome rules (keptOf keep before) = leaf.outcome rules before := by
  have houter : (leaf.renumber keep).outerTags rules (keptOf keep before)
      = leaf.outerTags rules before := by
    by_cases hresolves : leaf.resolves rules.inherit = true
    · have hresolves' : (leaf.renumber keep).resolves rules.inherit = true := hresolves
      rw [outerTags_of_resolves hresolves, outerTags_of_resolves hresolves', around_renumber,
        ← List.map_reverse, List.mapM_map]
      exact Except.mapM_congr fun e he =>
        Enclosure.tagsOf_keptOf hon hkeep (h hresolves e (List.mem_reverse.mp he))
    · have hresolves' : ¬ (leaf.renumber keep).resolves rules.inherit = true := hresolves
      rw [outerTags_of_not_resolves hresolves, outerTags_of_not_resolves hresolves']
  rw [outcome, outcome, settle_renumber, houter, toSelection_renumber]
  rfl

theorem outcome_of_not_inherit (hinherit : rules.inherit = false) {t : TaskSelection}
    (h : leaf.outcome rules before = .ok t) :
    ((leaf.settle rules leaf.declared.tags).map TagEntry.flatten).map
      (leaf.toSelection rules.filter) = .ok t := by
  rw [outcome, hinherit] at h
  obtain ⟨own, hown, h⟩ := Except.bind_eq_ok_iff.mp h
  obtain ⟨outer, -, h⟩ := Except.bind_eq_ok_iff.mp h
  rw [hown]
  exact h

end Leaf

namespace Play

variable {play : Play}

/-- The declaration of a play is resolved by tasks that are decided. -/
theorem entriesAfter_of_outcomes {leaves : List Leaf} {ts : List TaskSelection}
    (hplay : ∀ leaf ∈ leaves, leaf.play = play.declared)
    (h : Leaf.outcomes rules [] leaves = .ok ts) :
    ∃ entries, Enclosure.entriesAfter rules leaves ⟨play.declared, 0⟩ = .ok entries := by
  induction leaves using List.reverseRecOn generalizing ts with
  | nil => exact ⟨_, Enclosure.entriesAfter_nil⟩
  | append_singleton leaves leaf ih =>
      rw [Enclosure.entriesAfter_append (Nat.zero_le _)]
      by_cases hresolves : leaf.resolves rules.inherit = true
      · obtain ⟨t, -, ht⟩ := Leaf.outcome_of_outcomes h
        obtain ⟨own, -, ht⟩ := Except.bind_eq_ok_iff.mp ht
        obtain ⟨outer, houter, -⟩ := Except.bind_eq_ok_iff.mp ht
        rw [Leaf.outerTags_of_resolves hresolves] at houter
        have hmem : ⟨play.declared, 0⟩ ∈ leaf.around.reverse := by
          rw [List.mem_reverse, Leaf.around, hplay leaf (by simp)]
          exact List.mem_cons_self
        obtain ⟨tags, htags⟩ := Except.exists_ok_of_mapM houter hmem
        obtain ⟨entries, hentries, -⟩ := Except.map_eq_ok_iff.mp htags
        exact ⟨entries, hentries⟩
      · rw [Leaf.outcomes_append] at h
        obtain ⟨us, hus, -⟩ := Except.bind_eq_ok_iff.mp h
        have hleaves : ∀ other ∈ leaves, other.play = play.declared :=
          fun other hother => hplay other (List.mem_append_left _ hother)
        obtain ⟨entries, hentries⟩ := ih hleaves hus
        rw [hentries]
        exact ⟨entries, Leaf.settle_of_not_resolves hresolves⟩

theorem select_ok_of_outcomes {ts : List TaskSelection}
    (h : Leaf.outcomes rules [] play.leaves = .ok ts) : ∃ p, play.select rules = .ok p := by
  obtain ⟨entries, hentries⟩ := entriesAfter_of_outcomes (fun _ => play_of_mem_leaves) h
  rw [select_eq, h, hentries]
  exact ⟨_, rfl⟩

theorem select_thin_task (hon : rules.templater = Templater.on) {p p' : PlaySelection}
    (hp : play.select rules = .ok p) (hp' : (play.thin keep).select rules = .ok p')
    {before after : List Leaf} {leaf : Leaf} (hsplit : play.leaves = before ++ leaf :: after)
    (hkeep : keep before.length = true)
    (h : rules.inherit = false ∨ ∀ e ∈ leaf.around, e.Undisturbed rules keep before leaf) :
    ∃ t, p.tasks[before.length]? = some t ∧ p'.tasks[renumber keep before.length]? = some t := by
  have hts := outcomes_of_select hp
  have hts' := outcomes_of_select hp'
  rw [hsplit] at hts
  rw [leaves_thin, hsplit, ← Leaf.keptOf, Leaf.keptOf_append_of_keep hkeep] at hts'
  obtain ⟨t, ht, hleaf⟩ := Leaf.outcome_of_outcomes hts
  obtain ⟨t', ht', hleaf'⟩ := Leaf.outcome_of_outcomes hts'
  rw [List.nil_append] at hleaf hleaf'
  rw [Leaf.length_keptOf] at ht'
  have hsame : t' = t := by
    rcases h with hinherit | h
    · have hown := Leaf.outcome_of_not_inherit hinherit hleaf
      have hown' := Leaf.outcome_of_not_inherit hinherit hleaf'
      rw [Leaf.settle_renumber, Leaf.toSelection_renumber] at hown'
      exact Except.ok.inj (hown'.symm.trans hown)
    · rw [Leaf.outcome_keptOf hon hkeep fun _ => h, hleaf] at hleaf'
      exact (Except.ok.inj hleaf').symm
  exact ⟨t, ht, hsame ▸ ht'⟩

theorem select_thin_ok (hon : rules.templater = Templater.on) {p : PlaySelection}
    (hp : play.select rules = .ok p)
    (h : ∀ before leaf after, play.leaves = before ++ leaf :: after → keep before.length = true →
      leaf.resolves rules.inherit = true →
        ∀ e ∈ leaf.around, e.Undisturbed rules keep before leaf) :
    ∃ p', (play.thin keep).select rules = .ok p' := by
  have hts := outcomes_of_select hp
  have houtcomes : ∃ ts', Leaf.outcomes rules [] (play.thin keep).leaves = .ok ts' := by
    refine Leaf.outcomes_ok fun before' leaf' after' hsplit' => ?_
    -- A task of what is left is a kept task of the play, behind the kept ones in front of it.
    rw [leaves_thin] at hsplit'
    obtain ⟨front, back, hkept, rfl, hback⟩ := List.map_eq_append_iff.mp hsplit'
    obtain ⟨leaf, after, rfl, rfl, rfl⟩ := List.map_eq_cons_iff.mp hback
    obtain ⟨before, rest, hsplit, hkeep, rfl⟩ := exists_of_kept_eq_append hkept
    rw [Nat.zero_add] at hkeep
    rw [hsplit] at hts
    obtain ⟨t, -, ht⟩ := Leaf.outcome_of_outcomes hts
    refine ⟨t, ?_⟩
    have hsame := Leaf.outcome_keptOf hon hkeep (h before leaf rest hsplit hkeep)
    rw [List.nil_append] at ht ⊢
    exact hsame.trans ht
  obtain ⟨ts', hts'⟩ := houtcomes
  exact select_ok_of_outcomes hts'

end Play

def PlaySelection.taskAt (plays : List PlaySelection) (play task : Nat) : Option TaskSelection :=
  plays[play]?.bind fun p => p.tasks[task]?

namespace Playbook

variable {front back : List Play} {play : Play}

theorem select_append_cons_eq_ok_iff {plays : List PlaySelection} :
    Playbook.select rules (front ++ play :: back) = .ok plays ↔
      ∃ fronts p backs, plays = fronts ++ p :: backs ∧ Playbook.select rules front = .ok fronts ∧
        play.select rules = .ok p ∧ Playbook.select rules back = .ok backs := by
  simp only [Playbook.select, List.mapM_append, List.mapM_cons, Except.bind_eq_ok_iff]
  constructor
  · rintro ⟨fronts, hfronts, ps, ⟨p, hp, backs, hbacks, hps⟩, hplays⟩
    cases hps
    cases hplays
    exact ⟨fronts, p, backs, rfl, hfronts, hp, hbacks⟩
  · rintro ⟨fronts, p, backs, rfl, hfronts, hp, hbacks⟩
    exact ⟨fronts, hfronts, p :: backs, ⟨p, hp, backs, hbacks, rfl⟩, rfl⟩

theorem length_of_select {playbook : Playbook} {plays : List PlaySelection}
    (h : playbook.select rules = .ok plays) : plays.length = playbook.length :=
  (Except.mapM_eq_ok_iff.mp h).length_eq.symm

theorem taskAt_of_select {fronts backs : List PlaySelection} {p : PlaySelection} {i : Nat}
    (h : Playbook.select rules front = .ok fronts) :
    PlaySelection.taskAt (fronts ++ p :: backs) front.length i = p.tasks[i]? := by
  rw [← length_of_select h, PlaySelection.taskAt, List.getElem?_append_right (Nat.le_refl _),
    Nat.sub_self]
  rfl

/-- After a selection that succeeds, take some tasks of a play out of its playbook. If the selection
succeeds again, every kept task is selected as before when tags are not inherited, and else when the
declarations around it are undisturbed. It does succeed when those are that kept tasks resolve. -/
theorem select_with_tasks_left_out (hon : rules.templater = Templater.on) (keep : Nat → Bool)
    {plays : List PlaySelection} (h : Playbook.select rules (front ++ play :: back) = .ok plays) :
    (∀ plays', Playbook.select rules (front ++ play.thin keep :: back) = .ok plays' →
      ∀ before leaf after, play.leaves = before ++ leaf :: after → keep before.length = true →
        (rules.inherit = false ∨ ∀ e ∈ leaf.around, e.Undisturbed rules keep before leaf) →
        ∃ t, PlaySelection.taskAt plays front.length before.length = some t ∧
          PlaySelection.taskAt plays' front.length (renumber keep before.length) = some t) ∧
    ((∀ before leaf after, play.leaves = before ++ leaf :: after → keep before.length = true →
        leaf.resolves rules.inherit = true →
          ∀ e ∈ leaf.around, e.Undisturbed rules keep before leaf) →
      ∃ plays', Playbook.select rules (front ++ play.thin keep :: back) = .ok plays') := by
  obtain ⟨fronts, p, backs, rfl, hfronts, hp, hbacks⟩ := select_append_cons_eq_ok_iff.mp h
  constructor
  · intro plays' hplays' before leaf after hsplit hkeep hundisturbed
    obtain ⟨fronts', p', backs', rfl, hfronts', hp', -⟩ := select_append_cons_eq_ok_iff.mp hplays'
    obtain ⟨t, ht, ht'⟩ := play.select_thin_task hon hp hp' hsplit hkeep hundisturbed
    refine ⟨t, ?_, ?_⟩
    · rw [taskAt_of_select hfronts, ht]
    · rw [taskAt_of_select hfronts', ht']
  · intro hundisturbed
    obtain ⟨p', hp'⟩ := play.select_thin_ok hon hp hundisturbed
    exact ⟨_, select_append_cons_eq_ok_iff.mpr ⟨fronts, p', backs, rfl, hfronts, hp', hbacks⟩⟩

end Playbook

/-- A play with a template around three tasks. The first has a value of its own of the variable. -/
def Play.zoned (vars : Bindings) : Play where
  declared := ⟨"site", [.single (.str "{{ zone }}")], vars⟩
  hosts := none
  preTasks := []
  tasks := [
    .task ⟨"first", [.single (.str "x")], [("zone", .str "b")]⟩ none,
    .task ⟨"second", [.single (.str "y")], []⟩ none,
    .task ⟨"third", [.single (.str "z")], []⟩ none]
  postTasks := []
  handlers := []

/-- The second and third task find the declaration around them resolved by the first one. -/
theorem Play.undisturbed_zoned :
    let rules : SelectionRules := ⟨.empty, Templater.on, [], true⟩
    let play := Play.zoned [("zone", .str "a")]
    ∀ before leaf after, play.leaves = before ++ leaf :: after → ∀ e ∈ leaf.around,
      e.Undisturbed rules (· != 1) before leaf := by
  intro rules play before leaf after hsplit e he
  obtain ⟨first, second, third, hleaves, haround, hfirst⟩ : ∃ first second third,
      play.leaves = [first, second, third] ∧
        (∀ leaf ∈ [first, second, third], leaf.around = [⟨play.declared, 0⟩]) ∧
        Enclosure.entriesAfter rules [first] ⟨play.declared, 0⟩ = .ok [.single (.str "b")] := by
    refine ⟨_, _, _, rfl, by simp [Leaf.around], Except.toOption_eq_some_iff.mp ?_⟩
    decide +kernel
  rw [hleaves] at hsplit
  have hleaf : leaf ∈ [first, second, third] := by rw [hsplit]; simp
  rw [haround leaf hleaf, List.mem_singleton] at he
  subst he
  cases before with
  | nil => exact .kept fun n other hother => by cases hother
  | cons head rest =>
      obtain ⟨rfl, -⟩ := List.cons.inj hsplit
      refine .plain [first] rest rfl ?_ hfirst (by decide)
      intro n other hother _ _
      cases n with
      | zero => rfl
      | succ n => cases hother

/-- A play with a template around two tasks that see the same variables. -/
def Play.alike : Play where
  declared := ⟨"site", [.single (.str "{{ zone }}")], [("zone", .str "a")]⟩
  hosts := none
  preTasks := []
  tasks := [.task ⟨"first", [.single (.str "x")], []⟩ none,
    .task ⟨"second", [.single (.str "y")], []⟩ none]
  postTasks := []
  handlers := []

/-- The second task makes the same of the declaration around it as the first one does. -/
theorem Play.undisturbed_alike :
    let rules : SelectionRules := ⟨.empty, Templater.on, [], true⟩
    ∀ before leaf after, Play.alike.leaves = before ++ leaf :: after →
      (before.length != 0) = true →
        ∀ e ∈ leaf.around, e.Undisturbed rules (· != 0) before leaf := by
  intro rules before leaf after hsplit hkeep e he
  obtain ⟨first, second, hleaves, haround, hcontext, hresolves, hsettle⟩ : ∃ first second,
      Play.alike.leaves = [first, second] ∧ second.around = [⟨Play.alike.declared, 0⟩] ∧
        first.context rules.extraVars = second.context rules.extraVars ∧
        second.resolves rules.inherit = true ∧
        second.settle rules Play.alike.declared.tags = .ok [.single (.str "a")] := by
    refine ⟨_, _, rfl, rfl, rfl, rfl, Except.toOption_eq_some_iff.mp ?_⟩
    decide +kernel
  rw [hleaves] at hsplit
  obtain ⟨rfl, rfl⟩ : before = [first] ∧ leaf = second := by
    rcases before with _ | ⟨head, _ | ⟨next, rest⟩⟩
    · cases hkeep
    · cases hsplit
      exact ⟨rfl, rfl⟩
    · simp at hsplit
  rw [haround, List.mem_singleton] at he
  subst he
  have hsettles : leaf.SettlesTo rules Play.alike.declared.tags (TagSet.ofList [.str "a"]) :=
    ⟨_, hsettle, by decide, by decide⟩
  refine Enclosure.undisturbed_of_context_eq (Nat.zero_le _) hkeep hresolves hsettles ?_
  have hbefore : ∀ other ∈ [first], other.resolves rules.inherit = true →
      other.context rules.extraVars = leaf.context rules.extraVars :=
    List.forall_mem_singleton.mpr fun _ => hcontext
  exact hbefore

/-- The third task comes to the same without the second one, and in the play with two tasks alike
the second one does without the first one. -/
theorem Playbook.select_zoned_without_second :
    let rules : SelectionRules := ⟨.empty, Templater.on, [], true⟩
    let play := Play.zoned [("zone", .str "a")]
    (∃ plays plays', Playbook.select rules [play] = .ok plays ∧
      Playbook.select rules [play.thin (· != 1)] = .ok plays' ∧
      ∃ t, PlaySelection.taskAt plays 0 2 = some t ∧ PlaySelection.taskAt plays' 0 1 = some t) ∧
    ∃ plays plays', Playbook.select rules [Play.alike] = .ok plays ∧
      Playbook.select rules [Play.alike.thin (· != 0)] = .ok plays' ∧
      ∃ t, PlaySelection.taskAt plays 0 1 = some t ∧ PlaySelection.taskAt plays' 0 0 = some t := by
  intro rules play
  constructor
  · have hsome : (Playbook.select rules ([] ++ play :: [])).toOption.isSome = true := by
      decide +kernel
    obtain ⟨plays, hplays⟩ := Option.isSome_iff_exists.mp hsome
    rw [Except.toOption_eq_some_iff] at hplays
    obtain ⟨hsame, hok⟩ := Playbook.select_with_tasks_left_out rfl (· != 1) hplays
    obtain ⟨left, hleft⟩ := hok fun before leaf after hsplit _ _ =>
      Play.undisturbed_zoned before leaf after hsplit
    obtain ⟨first, second, third, hleaves⟩ :
        ∃ first second third, play.leaves = [first, second] ++ third :: [] := ⟨_, _, _, rfl⟩
    exact ⟨plays, left, hplays, hleft, hsame left hleft [first, second] third [] hleaves rfl
      (.inr (Play.undisturbed_zoned _ _ _ hleaves))⟩
  · have hsome : (Playbook.select rules ([] ++ Play.alike :: [])).toOption.isSome = true := by
      decide +kernel
    obtain ⟨plays, hplays⟩ := Option.isSome_iff_exists.mp hsome
    rw [Except.toOption_eq_some_iff] at hplays
    obtain ⟨hsame, hok⟩ := Playbook.select_with_tasks_left_out rfl (· != 0) hplays
    obtain ⟨left, hleft⟩ := hok fun before leaf after hsplit hkeep _ =>
      Play.undisturbed_alike before leaf after hsplit hkeep
    obtain ⟨first, second, hleaves⟩ :
        ∃ first second, Play.alike.leaves = [first] ++ second :: [] := ⟨_, _, rfl⟩
    exact ⟨plays, left, hplays, hleft, hsame left hleft [first] second [] hleaves rfl
      (.inr (Play.undisturbed_alike _ _ _ hleaves rfl))⟩

/-- The tags of the tasks of a selection that succeeds, with the decisions on them. -/
def Playbook.decisions (rules : SelectionRules) (playbook : Playbook) :
    Option (List (List (TagSet × Bool))) :=
  (playbook.select rules).toOption.map (List.map fun p => p.tasks.map fun t => (t.tags, t.selected))

/-- Without its first task the play resolves its declaration under its own variables, so that the
other tasks have other tags and are selected. Without a variable of its own the selection fails,
even if tags are not inherited. -/
theorem Playbook.select_zoned_without_first :
    let filter : TagFilter := ⟨TagSet.ofList [.str "a"], ∅⟩
    let tags := fun zone task => TagSet.ofList [.str zone, .str task]
    let inheriting : SelectionRules := ⟨filter, Templater.on, [], true⟩
    let own : SelectionRules := ⟨filter, Templater.on, [], false⟩
    Playbook.decisions inheriting [Play.zoned [("zone", .str "a")]]
        = some [[(tags "b" "x", false), (tags "b" "y", false), (tags "b" "z", false)]] ∧
      Playbook.decisions inheriting [(Play.zoned [("zone", .str "a")]).thin (· != 0)]
        = some [[(tags "a" "y", true), (tags "a" "z", true)]] ∧
      (Playbook.decisions own [Play.zoned []]).isSome = true ∧
      Playbook.decisions own [(Play.zoned []).thin (· != 0)] = none := by
  decide +kernel

end TaskTags
