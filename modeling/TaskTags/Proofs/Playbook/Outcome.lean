import TaskTags.Proofs.Playbook.Leaf
import TaskTags.Proofs.Tag.Settle

/-!
# What becomes of a task

The tasks of a play decided one after another, without a walk: a declaration around a task stands
as the tasks in front of it have resolved it, each under the variables of its own place, and the
task resolves it once more.
-/

namespace TaskTags

namespace Leaf

/-- Whether a task has its declaration and those around it resolved. -/
def resolves (inherit : Bool) (leaf : Leaf) : Bool :=
  leaf.section = .handlers || inherit || !leaf.declared.tags.isEmpty

def settle (rules : SelectionRules) (leaf : Leaf) (entries : List TagEntry) :
    Except Error (List TagEntry) :=
  if leaf.resolves rules.inherit then
    TagEntry.settle (rules.templater (leaf.context rules.extraVars)) entries
  else .ok entries

theorem settle_of_resolves {rules : SelectionRules} {leaf : Leaf} {entries : List TagEntry}
    (h : leaf.resolves rules.inherit = true) :
    leaf.settle rules entries
      = TagEntry.settle (rules.templater (leaf.context rules.extraVars)) entries := by
  rw [settle, if_pos h]

theorem settle_of_not_resolves {rules : SelectionRules} {leaf : Leaf} {entries : List TagEntry}
    (h : ¬ leaf.resolves rules.inherit = true) : leaf.settle rules entries = .ok entries := by
  rw [settle, if_neg h]

theorem inherit_of_not_resolves {inherit : Bool} {leaf : Leaf}
    (h : ¬ leaf.resolves inherit = true) : inherit = false := by
  rw [resolves] at h
  cases inherit <;> simp_all

def settleScope (rules : SelectionRules) (leaf : Leaf) (scope : TagScope) : Except Error TagScope :=
  (leaf.settle rules scope.tags).map fun tags => { scope with tags }

end Leaf

/-- The entries of a play or a block after some tasks of the play. -/
def Enclosure.entriesAfter (rules : SelectionRules) (earlier : List Leaf) (e : Enclosure) :
    Except Error (List TagEntry) :=
  (earlier.drop e.start).foldlM (fun entries leaf => leaf.settle rules entries) e.declared.tags

namespace Leaf

/-- The tags that a declaration around a task comes to at it, after others of its play. -/
def tagsOf (rules : SelectionRules) (earlier : List Leaf) (leaf : Leaf) (e : Enclosure) :
    Except Error TagSet :=
  (e.entriesAfter rules earlier >>= leaf.settle rules).map TagEntry.flatten

/-- The tags that the declarations around a task come to at it, from the innermost one on, if the
task resolves them. -/
def outerTags (rules : SelectionRules) (earlier : List Leaf) (leaf : Leaf) :
    Except Error (List TagSet) :=
  if leaf.resolves rules.inherit then leaf.around.reverse.mapM (leaf.tagsOf rules earlier)
  else .ok []

/-- What becomes of a task after others of its play. Its own declaration is resolved before those
around it. -/
def outcome (rules : SelectionRules) (earlier : List Leaf) (leaf : Leaf) :
    Except Error TaskSelection := do
  let own ← (leaf.settle rules leaf.declared.tags).map TagEntry.flatten
  let outer ← leaf.outerTags rules earlier
  return leaf.toSelection rules.filter
    (if rules.inherit then own.union (TagSet.unions outer) else own)

/-- What becomes of tasks in turn, up to the first failure. -/
def outcomes (rules : SelectionRules) (earlier : List Leaf) :
    List Leaf → Except Error (List TaskSelection)
  | [] => .ok []
  | leaf :: rest => do
    let t ← leaf.outcome rules earlier
    return t :: (← outcomes rules (earlier ++ [leaf]) rest)

variable {rules : SelectionRules} {earlier : List Leaf} {leaf : Leaf}

theorem outerTags_of_resolves (h : leaf.resolves rules.inherit = true) :
    leaf.outerTags rules earlier = leaf.around.reverse.mapM (leaf.tagsOf rules earlier) := by
  rw [outerTags, if_pos h]

theorem outerTags_of_not_resolves (h : ¬ leaf.resolves rules.inherit = true) :
    leaf.outerTags rules earlier = .ok [] := by
  rw [outerTags, if_neg h]

theorem outcomes_append {xs ys : List Leaf} :
    outcomes rules earlier (xs ++ ys) = (do
      let ts ← outcomes rules earlier xs
      return ts ++ (← outcomes rules (earlier ++ xs) ys)) := by
  induction xs generalizing earlier with
  | nil => simp [outcomes]
  | cons x xs ih =>
      rw [List.cons_append, outcomes, outcomes, ih]
      simp [List.append_assoc]

@[simp]
theorem outcomes_singleton :
    outcomes rules earlier [leaf] = (leaf.outcome rules earlier).map ([·]) := by
  rw [outcomes]
  cases leaf.outcome rules earlier <;> rfl

theorem length_of_outcomes {leaves : List Leaf} {ts : List TaskSelection}
    (h : outcomes rules earlier leaves = .ok ts) : ts.length = leaves.length := by
  induction leaves generalizing earlier ts with
  | nil => cases h; rfl
  | cons leaf rest ih =>
      rw [outcomes] at h
      obtain ⟨t, -, h⟩ := Except.bind_eq_ok_iff.mp h
      obtain ⟨us, hus, h⟩ := Except.bind_eq_ok_iff.mp h
      cases h
      rw [List.length_cons, List.length_cons, ih hus]

theorem outcome_of_outcomes {before after : List Leaf} {ts : List TaskSelection}
    (h : outcomes rules earlier (before ++ leaf :: after) = .ok ts) :
    ∃ t, ts[before.length]? = some t ∧ leaf.outcome rules (earlier ++ before) = .ok t := by
  rw [outcomes_append, outcomes] at h
  obtain ⟨us, hus, h⟩ := Except.bind_eq_ok_iff.mp h
  obtain ⟨vs, hvs, h⟩ := Except.bind_eq_ok_iff.mp h
  obtain ⟨t, ht, hvs⟩ := Except.bind_eq_ok_iff.mp hvs
  obtain ⟨ws, -, hvs⟩ := Except.bind_eq_ok_iff.mp hvs
  cases h
  cases hvs
  refine ⟨t, ?_, ht⟩
  rw [← length_of_outcomes hus]
  rw [List.getElem?_append_right (Nat.le_refl _), Nat.sub_self]
  rfl

theorem outcomes_ok {leaves : List Leaf}
    (h : ∀ before leaf after, leaves = before ++ leaf :: after →
      ∃ t, leaf.outcome rules (earlier ++ before) = .ok t) :
    ∃ ts, outcomes rules earlier leaves = .ok ts := by
  induction leaves generalizing earlier with
  | nil => exact ⟨[], rfl⟩
  | cons leaf rest ih =>
      obtain ⟨t, ht⟩ := h [] leaf rest rfl
      rw [List.append_nil] at ht
      have hrest : ∀ before leaf' after, rest = before ++ leaf' :: after →
          ∃ t, leaf'.outcome rules (earlier ++ [leaf] ++ before) = .ok t := by
        rintro before leaf' after rfl
        rw [List.append_assoc]
        exact h (leaf :: before) leaf' after rfl
      obtain ⟨ts, hts⟩ := ih hrest
      refine ⟨t :: ts, ?_⟩
      rw [outcomes, ht, hts]
      rfl

end Leaf

namespace Enclosure

variable {rules : SelectionRules} {earlier : List Leaf} {leaf : Leaf} {e : Enclosure}

/-- In front of its first task an enclosure has the entries that it declares. -/
theorem entriesAfter_of_length_le (h : earlier.length ≤ e.start) :
    e.entriesAfter rules earlier = .ok e.declared.tags := by
  rw [entriesAfter, List.drop_eq_nil_of_le h]
  rfl

@[simp]
theorem entriesAfter_nil : e.entriesAfter rules [] = .ok e.declared.tags :=
  entriesAfter_of_length_le (Nat.zero_le _)

/-- A task in an enclosure settles its entries once more. -/
theorem entriesAfter_append (h : e.start ≤ earlier.length) :
    e.entriesAfter rules (earlier ++ [leaf])
      = e.entriesAfter rules earlier >>= leaf.settle rules := by
  rw [entriesAfter, List.drop_append_of_le_length h, List.foldlM_append]
  simp [entriesAfter]

theorem entriesAfter_append_of_lt (h : earlier.length < e.start) :
    e.entriesAfter rules (earlier ++ [leaf]) = e.entriesAfter rules earlier := by
  have hlength : (earlier ++ [leaf]).length ≤ e.start := by
    rw [List.length_append, List.length_singleton]
    exact h
  rw [entriesAfter_of_length_le hlength, entriesAfter_of_length_le (Nat.le_of_lt h)]

end Enclosure

/-- A task sees the declarations around it as they are after it. -/
theorem Leaf.tagsOf_eq {rules : SelectionRules} {earlier : List Leaf} {leaf : Leaf} {e : Enclosure}
    (h : e.start ≤ earlier.length) :
    leaf.tagsOf rules earlier e
      = (e.entriesAfter rules (earlier ++ [leaf])).map TagEntry.flatten := by
  rw [tagsOf, Enclosure.entriesAfter_append h]

end TaskTags
