import TaskTags.Proofs.Tag.Settle

/-!
# What resolving leaves of a chain

Resolving a chain and deciding on it change nothing but the tags of its scopes. A resolution that
stops has resolved the scopes inside of the one that fails, and has left this one and those around
it as they were.
-/

namespace TaskTags

variable {template : List TagEntry → Except Error (List TagEntry)}

namespace TagScope

/-- What a scope stands for, without its tags. -/
def construct (s : TagScope) : ScopeKind × String := (s.kind, s.name)

/-- A scope without tags is left as it is. Any other gets the tags that its entries are templated
and flattened to, one by one by increasing tag. -/
inductive ResolvesTo (template : List TagEntry → Except Error (List TagEntry)) (s : TagScope) :
    TagScope → Prop
  | untagged (h : s.tags = []) : ResolvesTo template s s
  | tagged {entries : List TagEntry} (hne : s.tags ≠ []) (h : template s.tags = .ok entries) :
      ResolvesTo template s
        { s with tags := (TagEntry.flatten entries).toList.map TagEntry.single }

variable {s s' : TagScope} {e : Error}

theorem ResolvesTo.construct_eq (h : s.ResolvesTo template s') : s'.construct = s.construct := by
  cases h <;> rfl

/-- Resolved tags are those of a set, so that flattening and listing them changes nothing. -/
theorem ResolvesTo.tags_eq (h : s.ResolvesTo template s') :
    s'.tags = TagEntry.ofSet s'.tagSet := by
  cases h with
  | untagged hnil =>
      rw [tagSet, hnil]
      rfl
  | tagged hne htemplate => exact congrArg TagEntry.ofSet (TagEntry.flatten_ofSet _).symm

theorem settle_eq_ok_iff : s.settle template = .ok s' ↔ s.ResolvesTo template s' := by
  obtain ⟨kind, name, tags⟩ := s
  by_cases hne : tags = []
  · subst hne
    constructor
    · intro h
      cases h
      exact .untagged rfl
    · rintro (- | ⟨hne, -⟩)
      · rfl
      · exact absurd rfl hne
  · rw [settle, TagEntry.settle_of_ne_nil hne]
    constructor
    · intro h
      obtain ⟨settled, hsettled, rfl⟩ := Except.map_eq_ok_iff.mp h
      obtain ⟨entries, hentries, rfl⟩ := Except.map_eq_ok_iff.mp hsettled
      exact .tagged hne hentries
    · rintro (hnil | ⟨-, hentries⟩)
      · exact absurd hnil hne
      · rw [hentries]
        rfl

theorem settle_eq_error_iff :
    s.settle template = .error e ↔ s.tags ≠ [] ∧ template s.tags = .error e := by
  obtain ⟨kind, name, tags⟩ := s
  by_cases hne : tags = []
  · subst hne
    constructor
    · intro h
      cases h
    · rintro ⟨hne, -⟩
      exact absurd rfl hne
  · rw [settle, TagEntry.settle_of_ne_nil hne]
    cases template tags <;> simp [hne]

theorem exists_resolvesTo_iff :
    (∃ s', s.ResolvesTo template s') ↔ s.tags = [] ∨ ∃ entries, template s.tags = .ok entries := by
  constructor
  · rintro ⟨s', hnil | ⟨-, hentries⟩⟩
    · exact .inl hnil
    · exact .inr ⟨_, hentries⟩
  · rintro (hnil | ⟨entries, hentries⟩)
    · exact ⟨s, .untagged hnil⟩
    · by_cases hnil : s.tags = []
      · exact ⟨s, .untagged hnil⟩
      · exact ⟨_, .tagged hnil hentries⟩

end TagScope

namespace TagChain

/-- Resolving a chain stops at a scope with an error: the scopes inside of it are resolved, it and
those around it are as before. Scopes are counted from the innermost one. -/
structure StopsAt (template : List TagEntry → Except Error (List TagEntry))
    (chain after : TagChain) (e : Error) (i : Nat) : Prop where
  inside : List.Forall₂ (TagScope.ResolvesTo template) (chain.take i) (after.take i)
  fails : ∃ s, chain[i]? = some s ∧ s.tags ≠ [] ∧ template s.tags = .error e
  around : after.drop i = chain.drop i

variable {chain rest after : TagChain} {s s' : TagScope} {filter : TagFilter} {e : Error} {i : Nat}

theorem stopsAt_cons_zero_iff :
    StopsAt template (s :: rest) after e 0 ↔
      after = s :: rest ∧ s.tags ≠ [] ∧ template s.tags = .error e := by
  constructor
  · rintro ⟨-, ⟨first, hfirst, hfails⟩, haround⟩
    cases hfirst
    exact ⟨haround, hfails⟩
  · rintro ⟨rfl, hfails⟩
    exact ⟨.nil, ⟨s, rfl, hfails⟩, rfl⟩

theorem stopsAt_cons_succ_iff :
    StopsAt template (s :: rest) (s' :: after) e (i + 1) ↔
      s.ResolvesTo template s' ∧ StopsAt template rest after e i := by
  constructor
  · rintro ⟨hinside, hfails, haround⟩
    obtain ⟨hs, hrest⟩ := List.forall₂_cons.mp hinside
    exact ⟨hs, hrest, hfails, haround⟩
  · rintro ⟨hs, hrest, hfails, haround⟩
    exact ⟨.cons hs hrest, hfails, haround⟩

theorem resolve_eq_ok_iff_mapM :
    resolve template chain = (after, .ok ()) ↔
      chain.mapM (TagScope.settle template) = .ok after := by
  refine ⟨fun h => ?_, resolve_of_mapM_eq_ok⟩
  obtain ⟨settled, hsettled, hresolve⟩ | ⟨e, -, hfails⟩ := resolve_cases template chain
  · obtain ⟨rfl, -⟩ := Prod.mk.inj (h.symm.trans hresolve)
    exact hsettled
  · rw [h] at hfails
    cases hfails

theorem resolve_eq_ok_of_toOption (hafter : (resolve template chain).1 = after)
    (hresult : (resolve template chain).2.toOption = some ()) :
    resolve template chain = (after, .ok ()) :=
  Prod.ext hafter (Except.toOption_eq_some_iff.mp hresult)

theorem resolve_eq_ok_iff :
    resolve template chain = (after, .ok ()) ↔
      List.Forall₂ (TagScope.ResolvesTo template) chain after := by
  have hsettle : TagScope.ResolvesTo template = fun s s' => s.settle template = .ok s' := by
    funext s s'
    exact propext TagScope.settle_eq_ok_iff.symm
  rw [hsettle, ← Except.mapM_eq_ok_iff, resolve_eq_ok_iff_mapM]

theorem resolve_succeeds_iff :
    (resolve template chain).2 = .ok () ↔ ∀ s ∈ chain, ∃ s', s.ResolvesTo template s' := by
  simp only [← TagScope.settle_eq_ok_iff]
  rw [← Except.mapM_succeeds_iff]
  constructor
  · intro h
    exact ⟨_, resolve_eq_ok_iff_mapM.mp (Prod.ext rfl h)⟩
  · rintro ⟨after, hafter⟩
    rw [resolve_of_mapM_eq_ok hafter]

theorem tags_eq_of_resolve (h : resolve template chain = (after, .ok ())) :
    ∀ s ∈ after, s.tags = TagEntry.ofSet s.tagSet := by
  intro s hs
  obtain ⟨source, -, hsource⟩ := (Except.mem_of_mapM (resolve_eq_ok_iff_mapM.mp h)).mp hs
  exact (TagScope.settle_eq_ok_iff.mp hsource).tags_eq

theorem map_construct_resolve (chain : TagChain) :
    (resolve template chain).1.map TagScope.construct = chain.map TagScope.construct := by
  induction chain with
  | nil => rfl
  | cons s rest ih =>
      rw [resolve_cons]
      cases hs : s.settle template with
      | error e => rfl
      | ok s' =>
          rw [List.map_cons, List.map_cons, ih,
            (TagScope.settle_eq_ok_iff.mp hs).construct_eq]

/-- A failing resolution stops at one scope. Its error is the first one from the inside, as the
scopes inside of it resolve and no such scope can be the one that fails. -/
theorem existsUnique_stopsAt (h : (resolve template chain).2 = .error e) :
    ∃! i, StopsAt template chain (resolve template chain).1 e i := by
  induction chain with
  | nil => cases h
  | cons s rest ih =>
      rw [resolve_cons] at h ⊢
      cases hs : s.settle template with
      | error e' =>
          simp only [hs] at h ⊢
          obtain rfl := Except.error.inj h
          refine ⟨0, stopsAt_cons_zero_iff.mpr ⟨rfl, TagScope.settle_eq_error_iff.mp hs⟩, ?_⟩
          intro i hi
          cases i with
          | zero => rfl
          | succ i =>
              have hresolves := (stopsAt_cons_succ_iff.mp hi).1
              rw [← TagScope.settle_eq_ok_iff, hs] at hresolves
              cases hresolves
      | ok s' =>
          simp only [hs] at h ⊢
          obtain ⟨i, hi, hunique⟩ := ih h
          refine ⟨i + 1, stopsAt_cons_succ_iff.mpr ⟨TagScope.settle_eq_ok_iff.mp hs, hi⟩, ?_⟩
          intro j hj
          cases j with
          | zero =>
              have hfails := (stopsAt_cons_zero_iff.mp hj).2
              rw [← TagScope.settle_eq_error_iff, hs] at hfails
              cases hfails
          | succ j => rw [hunique j (stopsAt_cons_succ_iff.mp hj).2]

/-- A unit without tags of its own is decided as it is. -/
theorem decideOwn_of_untagged (h : ∀ s ∈ chain.head?, s.tags = []) :
    decideOwn template filter chain = (chain, .ok (filter.runs ∅)) := by
  cases chain with
  | nil => rfl
  | cons s rest =>
      have hnil : s.tags = [] := h s rfl
      have hown : ownTags (s :: rest) = ∅ := by
        rw [ownTags, TagScope.tagSet, hnil]
        rfl
      have htags : (s :: rest : TagChain).head?.any TagScope.hasTags = false := by
        simp [TagScope.hasTags, hnil]
      rw [decideOwn, htags, ← hown]
      rfl

theorem decideOwn_cases (template : List TagEntry → Except Error (List TagEntry))
    (filter : TagFilter) (chain : TagChain) :
    decideOwn template filter chain = (chain, .ok (filter.runs (ownTags chain))) ∨
      decideOwn template filter chain = ((resolve template chain).1,
        (resolve template chain).2.map fun _ =>
          filter.runs (ownTags (resolve template chain).1)) := by
  by_cases htags : chain.head?.any TagScope.hasTags = true
  · right
    rw [decideOwn, if_pos htags]
  · left
    rw [decideOwn, if_neg htags]
    rfl

theorem map_construct_decideOwn (filter : TagFilter) (chain : TagChain) :
    (decideOwn template filter chain).1.map TagScope.construct
      = chain.map TagScope.construct := by
  obtain h | h := decideOwn_cases template filter chain
  · rw [h]
  · rw [h, map_construct_resolve]

theorem resolve_of_decideOwn_error (h : (decideOwn template filter chain).2 = .error e) :
    resolve template chain = ((decideOwn template filter chain).1, .error e) := by
  obtain hdecide | hdecide := decideOwn_cases template filter chain
  · rw [hdecide] at h
    cases h
  · rw [hdecide] at h ⊢
    exact Prod.ext rfl (Except.map_eq_error_iff.mp h)

theorem resolve_of_decideAll_error (h : (decideAll template filter chain).2 = .error e) :
    resolve template chain = ((decideAll template filter chain).1, .error e) :=
  Prod.ext rfl (Except.map_eq_error_iff.mp h)

/-- Resolving and deciding keep the scopes and change their tags alone. A resolution that succeeds
resolves every scope, one that fails stops at exactly one scope, and a decision fails only where it
does. Deciding a unit that has no tags by its own ones cannot fail and leaves the chain alone. -/
theorem resolve_frame (templater : Templater) (vars : Bindings) (filter : TagFilter)
    (chain : TagChain) :
    let template := templater vars
    let after := (chain.resolve template).1
    after.map TagScope.construct = chain.map TagScope.construct ∧
    (chain.decideOwn template filter).1.map TagScope.construct = chain.map TagScope.construct ∧
    (chain.decideAll template filter).1.map TagScope.construct = chain.map TagScope.construct ∧
    ((chain.resolve template).2 = .ok () →
      List.Forall₂ (TagScope.ResolvesTo template) chain after) ∧
    (∀ e, (chain.resolve template).2 = .error e → ∃! i, StopsAt template chain after e i) ∧
    (∀ e, (chain.decideOwn template filter).2 = .error e →
      (chain.resolve template).2 = .error e ∧ (chain.decideOwn template filter).1 = after) ∧
    (∀ e, (chain.decideAll template filter).2 = .error e →
      (chain.resolve template).2 = .error e ∧ (chain.decideAll template filter).1 = after) ∧
    ((∀ s ∈ chain.head?, s.tags = []) →
      chain.decideOwn template filter = (chain, .ok (filter.runs ∅))) := by
  intro template after
  refine ⟨map_construct_resolve chain, map_construct_decideOwn filter chain,
    map_construct_resolve chain, ?_, ?_, ?_, ?_, decideOwn_of_untagged⟩
  · intro hok
    exact resolve_eq_ok_iff.mp (Prod.ext rfl hok)
  · intro e hfails
    exact existsUnique_stopsAt hfails
  · intro e hfails
    obtain ⟨hstate, hresult⟩ := Prod.mk.inj (resolve_of_decideOwn_error hfails)
    exact ⟨hresult, hstate.symm⟩
  · intro e hfails
    obtain ⟨hstate, hresult⟩ := Prod.mk.inj (resolve_of_decideAll_error hfails)
    exact ⟨hresult, hstate.symm⟩

/-- The block fails with a role that is not defined. The task inside of it is resolved by then, the
play around it is not. -/
theorem resolve_frame_undefinedRole :
    let role := TagEntry.single (.str "{{ role }}")
    let zone := TagEntry.single (.str "{{ zone }}")
    let chain : TagChain :=
      [⟨.task, "install", [.list [.str "web", .str "db"], .single (.str "db")]⟩,
        ⟨.block, "group", []⟩, ⟨.block, "roles", [role]⟩, ⟨.play, "site", [zone]⟩]
    let template := Templater.on [("zone", .str "north")]
    let undefinedRole : Error := .template "{{ role }}" .undefinedValue
    (chain.decideAll template .empty).2 = .error undefinedRole ∧
      (∃! i, StopsAt template chain (chain.decideAll template .empty).1 undefinedRole i) ∧
      (chain.decideAll template .empty).1
        = [⟨.task, "install", [.single (.str "db"), .single (.str "web")]⟩,
          ⟨.block, "group", []⟩, ⟨.block, "roles", [role]⟩, ⟨.play, "site", [zone]⟩] := by
  intro role zone chain template undefinedRole
  obtain ⟨-, -, -, -, hstops, -, hdecide, -⟩ :=
    resolve_frame Templater.on [("zone", .str "north")] .empty chain
  have hfails : (chain.decideAll template .empty).2 = .error undefinedRole := by
    apply Except.error?_eq_some_iff.mp
    decide +kernel
  obtain ⟨hresult, hafter⟩ := hdecide undefinedRole hfails
  refine ⟨hfails, ?_, by decide +kernel⟩
  rw [hafter]
  exact hstops undefinedRole hresult

end TagChain
end TaskTags
