import TaskTags.Proofs.Tag.Expansion
import TaskTags.Proofs.Tag.Resolution

/-!
# Grouping of tags

A templater works on tags one after the other, whether they stand alone or in lists, so that a chain
resolves in the same way however the tags of its scopes are grouped. An entry without a template
mark stays as it is between any others.
-/

namespace TaskTags

variable {vars : Bindings}

namespace TagEntry

theorem settle_congr {xs ys : List TagEntry} (h : allTags xs = allTags ys) :
    settle (Templater.on vars) xs = settle (Templater.on vars) ys := by
  have hsame : (Templater.on vars xs).map allTags = (Templater.on vars ys).map allTags := by
    rw [map_allTags_on, map_allTags_on, h]
  rw [settle_on, settle_on]
  cases hx : Templater.on vars xs <;> cases hy : Templater.on vars ys <;> rw [hx, hy] at hsame
  · simpa using hsame
  · simp at hsame
  · simp at hsame
  · simp only [Except.ok_map, Except.ok.injEq] at hsame
    simp only [Except.ok_map, flatten, hsame]

/-- A plain entry is neither changed by the entries around it nor changes what becomes of them. -/
theorem on_around_plain {entry : TagEntry} (h : ∀ tag ∈ entry.tags, tag.Plain)
    (before after : List TagEntry) :
    Templater.on vars (before ++ entry :: after) = do
      let before ← Templater.on vars before
      let after ← Templater.on vars after
      return before ++ entry :: after := by
  simp only [Templater.on]
  rw [List.mapM_append, List.mapM_cons, resolve_of_plain h]
  cases before.mapM (resolve vars) <;> cases after.mapM (resolve vars) <;> rfl

end TagEntry

/-- Two scopes of one construct with the same tags in the same order. -/
structure TagScope.Regroups (s s' : TagScope) : Prop where
  construct : s.construct = s'.construct
  tags : TagEntry.allTags s.tags = TagEntry.allTags s'.tags

theorem TagScope.Regroups.settle_eq {s s' : TagScope} (h : s.Regroups s') :
    s.settle (Templater.on vars) = s'.settle (Templater.on vars) := by
  obtain ⟨kind, name, tags⟩ := s
  obtain ⟨kind', name', tags'⟩ := s'
  obtain ⟨rfl, rfl⟩ := Prod.mk.inj h.construct
  exact congrArg (Except.map _) (TagEntry.settle_congr h.tags)

namespace TagChain

/-- Two chains of the same scopes whose declarations differ at most in how they group their tags. -/
def Regroups : TagChain → TagChain → Prop :=
  List.Forall₂ TagScope.Regroups

variable {chain regrouped : TagChain}

theorem Regroups.mapM_settle_eq (h : chain.Regroups regrouped) :
    chain.mapM (TagScope.settle (Templater.on vars))
      = regrouped.mapM (TagScope.settle (Templater.on vars)) := by
  induction h with
  | nil => rfl
  | cons hs _ ih => rw [List.mapM_cons, List.mapM_cons, hs.settle_eq, ih]

theorem Regroups.resolve_cases (h : chain.Regroups regrouped) (vars : Bindings) :
    (∃ e, (chain.resolve (Templater.on vars)).2 = .error e ∧
      (regrouped.resolve (Templater.on vars)).2 = .error e) ∨
    (∃ settled, chain.resolve (Templater.on vars) = (settled, .ok ()) ∧
      regrouped.resolve (Templater.on vars) = (settled, .ok ())) := by
  obtain ⟨settled, hsettled, hresolve⟩ | ⟨e, he, hresolve⟩ :=
    TagChain.resolve_cases (Templater.on vars) chain
  · rw [h.mapM_settle_eq] at hsettled
    exact .inr ⟨settled, hresolve, resolve_of_mapM_eq_ok hsettled⟩
  · rw [h.mapM_settle_eq] at he
    exact .inl ⟨e, hresolve, resolve_of_mapM_eq_error he⟩

/-- Chains that differ in how they group their tags resolve to the same scopes or fail with the same
error, and are decided alike under every filter. Between whatever other entries it stands, an entry
without a template mark is templated to itself. -/
theorem resolve_regrouped (h : chain.Regroups regrouped) (vars : Bindings) :
    let template := Templater.on vars
    ((∃ e, (chain.resolve template).2 = .error e ∧ (regrouped.resolve template).2 = .error e) ∨
      (∃ settled, chain.resolve template = (settled, .ok ()) ∧
        regrouped.resolve template = (settled, .ok ()))) ∧
    (∀ filter, (chain.decideAll template filter).2 = (regrouped.decideAll template filter).2) ∧
    (∀ before entry after, (∀ tag ∈ entry.tags, tag.Plain) →
      template (before ++ entry :: after) = do
        let before ← template before
        let after ← template after
        return before ++ entry :: after) := by
  intro template
  have hcases := h.resolve_cases vars
  refine ⟨hcases, fun filter => ?_, fun before entry after hentry =>
    TagEntry.on_around_plain hentry before after⟩
  obtain ⟨e, hchain, hregrouped⟩ | ⟨settled, hchain, hregrouped⟩ := hcases
  · simp only [decideAll, template, hchain, hregrouped, Except.error_map]
  · simp only [decideAll, template, hchain, hregrouped]

/-- The tags of a list variable come to the same however they are grouped, and a block with an empty
list to the same as one without tags. -/
theorem resolve_regrouped_extra :
    let chain : TagChain :=
      [⟨.task, "install", [.single (.str "{{ extra }}"), .single (.int 7)]⟩, ⟨.block, "group", []⟩,
        ⟨.play, "site", [.list [.str "web", .str "{{ zone }}"]]⟩]
    let regrouped : TagChain :=
      [⟨.task, "install", [.list [.str "{{ extra }}"], .list [], .list [.int 7]]⟩,
        ⟨.block, "group", [.list []]⟩,
        ⟨.play, "site", [.single (.str "web"), .single (.str "{{ zone }}")]⟩]
    let settled : TagChain :=
      [⟨.task, "install", [.single (.int 7), .single (.str "a"), .single (.str "b")]⟩,
        ⟨.block, "group", []⟩, ⟨.play, "site", [.single (.str "db"), .single (.str "web")]⟩]
    let vars : Bindings := [("zone", .str "db"), ("extra", .arr [.str "b", .str "a"])]
    chain.Regroups regrouped ∧ chain.resolve (Templater.on vars) = (settled, .ok ()) ∧
      regrouped.resolve (Templater.on vars) = (settled, .ok ()) := by
  intro chain regrouped settled vars
  have hregroups : chain.Regroups regrouped :=
    .cons ⟨rfl, rfl⟩ (.cons ⟨rfl, rfl⟩ (.cons ⟨rfl, rfl⟩ .nil))
  have hsettled : chain.resolve (Templater.on vars) = (settled, .ok ()) :=
    resolve_eq_ok_of_toOption (by decide +kernel) (by decide +kernel)
  refine ⟨hregroups, hsettled, ?_⟩
  obtain ⟨e, hfails, -⟩ | ⟨settled', hsettled', hregrouped⟩ := (resolve_regrouped hregroups vars).1
  · rw [hsettled] at hfails
    cases hfails
  · rw [hsettled] at hsettled'
    rw [hregrouped, ← hsettled']

end TagChain
end TaskTags
