import TaskTags.Proofs.Except
import TaskTags.Tag.Chain

/-!
# Settled entries

Resolving a chain settles its scopes one by one: the entries of each become the tags that a template
makes of them. A chain is resolved when all of its scopes settle, and fails with the innermost scope
that does not.
-/

namespace TaskTags

/-- The tags that a template makes of entries, one by one. Without entries there is nothing to
template. -/
def TagEntry.settle (template : List TagEntry → Except Error (List TagEntry))
    (entries : List TagEntry) : Except Error (List TagEntry) :=
  if entries.isEmpty then .ok []
  else (template entries).map fun resolved => TagEntry.ofSet (TagEntry.flatten resolved)

def TagScope.settle (template : List TagEntry → Except Error (List TagEntry)) (s : TagScope) :
    Except Error TagScope :=
  (TagEntry.settle template s.tags).map fun tags => { s with tags }

namespace TagSet

def unions (sets : List TagSet) : TagSet :=
  sets.foldr union ∅

@[simp]
theorem mem_unions {tag : Tag} {sets : List TagSet} : tag ∈ unions sets ↔ ∃ s ∈ sets, tag ∈ s := by
  induction sets with
  | nil => simp [unions]
  | cons s sets ih =>
      rw [unions, List.foldr_cons, mem_union, ← unions, ih]
      simp

end TagSet

namespace TagEntry

variable {template : List TagEntry → Except Error (List TagEntry)} {entries : List TagEntry}

@[simp]
theorem settle_nil : settle template [] = .ok [] := rfl

theorem settle_of_ne_nil (h : entries ≠ []) :
    settle template entries
      = (template entries).map fun resolved => ofSet (flatten resolved) := by
  rw [settle, if_neg (by simpa using h)]

/-- Where there are no entries, the templater has nothing to do, so that settled entries are what it
makes of them in any case. -/
theorem settle_on (vars : Bindings) (entries : List TagEntry) :
    settle (Templater.on vars) entries
      = (Templater.on vars entries).map fun resolved => ofSet (flatten resolved) := by
  by_cases hentries : entries = []
  · subst hentries
    rfl
  · exact settle_of_ne_nil hentries

theorem mem_flatten_append {tag : Tag} {xs ys : List TagEntry} :
    tag ∈ flatten (xs ++ ys) ↔ tag ∈ flatten xs ∨ tag ∈ flatten ys := by
  simp only [mem_flatten, List.mem_append, or_and_right, exists_or]

theorem flatten_append (xs ys : List TagEntry) :
    flatten (xs ++ ys) = (flatten xs).union (flatten ys) :=
  TagSet.ext fun _ => by rw [mem_flatten_append, TagSet.mem_union]

theorem flatten_flatten (groups : List (List TagEntry)) :
    flatten groups.flatten = TagSet.unions (groups.map flatten) := by
  induction groups with
  | nil => rfl
  | cons entries groups ih => rw [List.flatten_cons, flatten_append, ih]; rfl

end TagEntry

namespace TagChain

variable {template : List TagEntry → Except Error (List TagEntry)} {chain settled : TagChain}

theorem resolve_cons (s : TagScope) (rest : TagChain) :
    resolve template (s :: rest) =
      match s.settle template with
      | .error e => (s :: rest, .error e)
      | .ok s' => (s' :: (resolve template rest).1, (resolve template rest).2) := by
  rw [resolve, TagScope.settle, TagScope.hasTags]
  cases htags : s.tags with
  | nil =>
      obtain ⟨kind, name, tags⟩ := s
      subst htags
      rfl
  | cons entry entries =>
      rw [TagEntry.settle_of_ne_nil (by simp)]
      cases template (entry :: entries) <;> simp

theorem resolve_of_mapM_eq_ok (h : chain.mapM (TagScope.settle template) = .ok settled) :
    resolve template chain = (settled, .ok ()) := by
  rw [Except.mapM_eq_ok_iff] at h
  induction h with
  | nil => rfl
  | cons hs _ ih => rw [resolve_cons, hs, ih]

theorem resolve_of_mapM_eq_error {e : Error}
    (h : chain.mapM (TagScope.settle template) = .error e) :
    (resolve template chain).2 = .error e := by
  induction chain with
  | nil => cases h
  | cons s rest ih =>
      rw [List.mapM_cons] at h
      rw [resolve_cons]
      cases hs : s.settle template with
      | error e' =>
          rw [hs, Except.error_bind, Except.error.injEq] at h
          rw [h]
      | ok s' =>
          refine ih ?_
          rw [hs, Except.ok_bind] at h
          cases hrest : rest.mapM (TagScope.settle template) with
          | error e' => simpa [hrest] using h
          | ok rest' => simp [hrest, pure, Except.pure] at h

theorem resolve_cases (template : List TagEntry → Except Error (List TagEntry))
    (chain : TagChain) :
    (∃ settled, chain.mapM (TagScope.settle template) = .ok settled ∧
      resolve template chain = (settled, .ok ())) ∨
    (∃ e, chain.mapM (TagScope.settle template) = .error e ∧
      (resolve template chain).2 = .error e) := by
  cases h : chain.mapM (TagScope.settle template) with
  | error e => exact .inr ⟨e, rfl, resolve_of_mapM_eq_error h⟩
  | ok settled => exact .inl ⟨settled, rfl, resolve_of_mapM_eq_ok h⟩

end TagChain
end TaskTags
