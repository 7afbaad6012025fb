import Mathlib.Data.List.Induction
import TaskTags.Proofs.Playbook.Walk
import TaskTags.Proofs.Tag.Plain

/-!
# Declarations that keep their tags

Where resolving changes no tags of a kind of declarations, a task does not see what others have made
of such declarations around it.
-/

namespace TaskTags

/-- Entries of a kind stay of it when they are settled, and keep their tags. -/
def SelectionRules.Preserves (rules : SelectionRules) (P : List TagEntry → Prop) : Prop :=
  ∀ (leaf : Leaf) (entries : List TagEntry), P entries →
    ∃ settled, leaf.settle rules entries = .ok settled ∧ P settled ∧
      TagEntry.flatten settled = TagEntry.flatten entries

def Leaf.tagsAround (leaf : Leaf) : TagSet :=
  TagEntry.flatten (leaf.around.flatMap (·.declared.tags))

variable {rules : SelectionRules} {P : List TagEntry → Prop}

namespace SelectionRules

/-- It is enough that entries keep their tags when they are resolved. -/
theorem preserves_of_settle
    (h : ∀ vars entries, P entries → ∃ settled,
      TagEntry.settle (rules.templater vars) entries = .ok settled ∧ P settled ∧
        TagEntry.flatten settled = TagEntry.flatten entries) : rules.Preserves P := by
  intro leaf entries hP
  by_cases hresolves : leaf.resolves rules.inherit = true
  · rw [Leaf.settle_of_resolves hresolves]
    exact h _ entries hP
  · rw [Leaf.settle_of_not_resolves hresolves]
    exact ⟨entries, rfl, hP, rfl⟩

theorem preserves_off (hoff : rules.templater = Templater.off) :
    rules.Preserves fun _ => True := by
  refine preserves_of_settle fun vars entries _ => ?_
  by_cases hentries : entries = []
  · subst hentries
    exact ⟨[], TagEntry.settle_nil, trivial, rfl⟩
  · rw [TagEntry.settle_of_ne_nil hentries, hoff]
    exact ⟨_, rfl, trivial, TagEntry.flatten_ofSet _⟩

theorem preserves_plain (hon : rules.templater = Templater.on) :
    rules.Preserves TagEntry.Plain := by
  refine preserves_of_settle fun vars entries h => ?_
  rw [hon]
  exact TagEntry.settle_of_plain h vars

end SelectionRules

namespace Enclosure

variable {e : Enclosure} {entries : List TagEntry}

/-- Once a declaration is of a kind that keeps its tags, no further task changes them. -/
theorem entriesAfter_append_of_preserves (hpreserves : rules.Preserves P) {earlier : List Leaf}
    (hbefore : e.entriesAfter rules earlier = .ok entries) (h : P entries) (later : List Leaf) :
    ∃ final, e.entriesAfter rules (earlier ++ later) = .ok final ∧ P final ∧
      TagEntry.flatten final = TagEntry.flatten entries := by
  induction later using List.reverseRecOn with
  | nil => exact ⟨entries, by rwa [List.append_nil], h, rfl⟩
  | append_singleton later leaf ih =>
      obtain ⟨last, hlast, hP, hsame⟩ := ih
      rw [← List.append_assoc]
      by_cases hstart : e.start ≤ (earlier ++ later).length
      · obtain ⟨final, hsettle, hfinal, hflatten⟩ := hpreserves leaf last hP
        refine ⟨final, ?_, hfinal, hflatten.trans hsame⟩
        rw [entriesAfter_append hstart, hlast]
        exact hsettle
      · refine ⟨last, ?_, hP, hsame⟩
        rw [entriesAfter_append_of_lt (Nat.lt_of_not_le hstart), hlast]

end Enclosure

namespace Leaf

variable {leaf : Leaf}

theorem tagsOf_append_of_preserves (hpreserves : rules.Preserves P) {earlier : List Leaf}
    {e : Enclosure} {entries : List TagEntry} (hbefore : e.entriesAfter rules earlier = .ok entries)
    (h : P entries) (later : List Leaf) :
    leaf.tagsOf rules (earlier ++ later) e = .ok (TagEntry.flatten entries) := by
  obtain ⟨last, hlast, hP, hsame⟩ :=
    Enclosure.entriesAfter_append_of_preserves hpreserves hbefore h later
  obtain ⟨final, hfinal, -, hflatten⟩ := hpreserves leaf last hP
  rw [tagsOf, hlast, Except.ok_bind, hfinal, Except.ok_map, hflatten, hsame]

theorem tagsOf_of_preserves (hpreserves : rules.Preserves P) (earlier : List Leaf) {e : Enclosure}
    (h : P e.declared.tags) :
    leaf.tagsOf rules earlier e = .ok (TagEntry.flatten e.declared.tags) :=
  tagsOf_append_of_preserves hpreserves Enclosure.entriesAfter_nil h earlier

theorem outerTags_of_preserves (hpreserves : rules.Preserves P) (earlier : List Leaf)
    (h : ∀ e ∈ leaf.around, P e.declared.tags) (hresolves : leaf.resolves rules.inherit = true) :
    ∃ outer, leaf.outerTags rules earlier = .ok outer ∧ TagSet.unions outer = leaf.tagsAround := by
  refine ⟨leaf.around.reverse.map fun e => TagEntry.flatten e.declared.tags, ?_, ?_⟩
  · rw [outerTags_of_resolves hresolves, Except.mapM_congr fun e he =>
      tagsOf_of_preserves hpreserves earlier (h e (List.mem_reverse.mp he))]
    exact List.mapM_pure
  · refine TagSet.ext fun tag => ?_
    rw [tagsAround, List.flatMap_def, TagEntry.flatten_flatten, List.map_map]
    simp

/-- With such declarations around it a task comes to what its own declaration does, whatever tasks
are in front of it. -/
theorem outcome_of_preserves (hpreserves : rules.Preserves P) (earlier : List Leaf)
    (h : ∀ e ∈ leaf.around, P e.declared.tags) :
    leaf.outcome rules earlier
      = ((leaf.settle rules leaf.declared.tags).map TagEntry.flatten).map fun own =>
          leaf.toSelection rules.filter
            (if rules.inherit then own.union leaf.tagsAround else own) := by
  rw [outcome]
  cases leaf.settle rules leaf.declared.tags with
  | error e => rfl
  | ok own =>
      by_cases hresolves : leaf.resolves rules.inherit = true
      · obtain ⟨outer, houter, hsame⟩ := outerTags_of_preserves hpreserves earlier h hresolves
        rw [houter, ← hsame]
        rfl
      · rw [outerTags_of_not_resolves hresolves, inherit_of_not_resolves hresolves]
        rfl

theorem outcomes_eq_mapM {step : Leaf → Except Error TaskSelection} {earlier leaves : List Leaf}
    (h : ∀ leaf ∈ leaves, ∀ earlier, leaf.outcome rules earlier = step leaf) :
    outcomes rules earlier leaves = leaves.mapM step := by
  induction leaves generalizing earlier with
  | nil => rfl
  | cons leaf rest ih =>
      rw [outcomes, List.mapM_cons, h leaf List.mem_cons_self,
        ih fun leaf' hleaf' => h leaf' (List.mem_cons_of_mem leaf hleaf')]

end Leaf

/-- A play whose declarations outside of tasks keep their tags is decided task by task. -/
theorem Play.select_of_preserves (hpreserves : rules.Preserves P) {play : Play}
    (hplay : P play.declared.tags)
    (hblocks : ∀ leaf ∈ play.leaves, ∀ e ∈ leaf.blocks, P e.declared.tags) :
    play.select rules = (do
      let tasks ← play.leaves.mapM fun leaf =>
        ((leaf.settle rules leaf.declared.tags).map TagEntry.flatten).map fun own =>
          leaf.toSelection rules.filter (if rules.inherit then own.union leaf.tagsAround else own)
      return ⟨play.declared.name, TagEntry.flatten play.declared.tags, tasks⟩) := by
  have haround : ∀ leaf ∈ play.leaves, ∀ e ∈ leaf.around, P e.declared.tags := by
    intro leaf hleaf e he
    rcases List.mem_cons.mp he with rfl | he
    · rw [Play.play_of_mem_leaves hleaf]
      exact hplay
    · exact hblocks leaf hleaf e he
  obtain ⟨entries, hentries, -, hflatten⟩ := Enclosure.entriesAfter_append_of_preserves hpreserves
    (e := ⟨play.declared, 0⟩) Enclosure.entriesAfter_nil hplay play.leaves
  rw [List.nil_append] at hentries
  rw [select_eq, Leaf.outcomes_eq_mapM fun leaf hleaf earlier =>
    leaf.outcome_of_preserves hpreserves earlier (haround leaf hleaf), hentries]
  simp only [Except.ok_bind, hflatten]

end TaskTags
