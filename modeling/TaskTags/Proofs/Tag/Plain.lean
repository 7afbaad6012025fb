import Mathlib.Data.List.Infix
import TaskTags.Proofs.Tag.Settle

/-!
# Tags without template marks

A plain tag stands for itself under all variables, so that plain entries pass a templater unchanged
and keep their tags however often they are resolved.
-/

namespace TaskTags

/-- A tag without a template mark, that is, without a brace that a second brace, a percent sign or a
hash sign follows. -/
def Tag.Plain : Tag → Prop
  | .int _ => True
  | .str s => ∀ c ∈ ['{', '%', '#'], ¬ ['{', c] <:+: s.toList

instance Tag.decidablePlain : (tag : Tag) → Decidable tag.Plain
  | .int _ => .isTrue trivial
  | .str s => List.decidableBAll (fun c => ¬ ['{', c] <:+: s.toList) ['{', '%', '#']

/-- Entries without a template mark in any of their tags. -/
def TagEntry.Plain (entries : List TagEntry) : Prop :=
  ∀ tag ∈ TagEntry.allTags entries, tag.Plain

instance TagEntry.decidablePlain (entries : List TagEntry) : Decidable (TagEntry.Plain entries) :=
  List.decidableBAll Tag.Plain (allTags entries)

theorem Templater.pair_infix_cons_iff {a b x : Char} {rest : List Char} :
    [a, b] <:+: x :: rest ↔ (a = x ∧ rest.head? = some b) ∨ [a, b] <:+: rest := by
  rw [List.infix_cons_iff, List.cons_prefix_cons]
  cases rest with
  | nil => simp
  | cons y rest => simp [eq_comm]

theorem Templater.hasMark_iff {cs : List Char} :
    hasMark cs = true ↔ ∃ c ∈ ['{', '%', '#'], ['{', c] <:+: cs := by
  fun_induction hasMark cs with
  | case1 c rest ih =>
      simp only [pair_infix_cons_iff (x := '{'), List.head?_cons, Option.some.injEq, true_and,
        and_or_left, exists_or, ← ih]
      rw [Bool.or_eq_true, exists_eq_right']
      simp [or_assoc]
  | case2 x rest hne ih =>
      -- Here no pair starts with the first character.
      have hx : ∀ c, ¬ ('{' = x ∧ rest.head? = some c) := by
        rintro c ⟨rfl, hc⟩
        obtain ⟨rest', rfl⟩ := List.head?_eq_some_iff.mp hc
        exact hne c rest' rfl rfl
      simp only [pair_infix_cons_iff, hx, false_or, ih]
  | case3 => simp

theorem Tag.resolve_of_plain {tag : Tag} (h : tag.Plain) (vars : Bindings) :
    tag.resolve vars = .ok (.single tag) := by
  cases tag with
  | int n => rfl
  | str s =>
      have hmark : Templater.hasTemplate s = false := by
        rw [Templater.hasTemplate, Bool.eq_false_iff, Ne, Templater.hasMark_iff]
        rintro ⟨c, hc, hinfix⟩
        exact h c hc hinfix
      simp [resolve, hmark]

namespace TagEntry

theorem resolve_of_plain {entry : TagEntry} (h : ∀ tag ∈ entry.tags, tag.Plain)
    (vars : Bindings) : entry.resolve vars = .ok entry := by
  cases entry with
  | single tag => exact Tag.resolve_of_plain (h tag (List.mem_singleton_self tag)) vars
  | list tags =>
      have hresolved : tags.mapM (Tag.resolve vars) = .ok (tags.map single) := by
        rw [Except.mapM_eq_ok_iff, List.forall₂_map_right_iff, List.forall₂_same]
        exact fun tag htag => Tag.resolve_of_plain (h tag htag) vars
      have hsame : (tags.map single).flatMap TagEntry.tags = tags := by
        simp [List.flatMap_map, TagEntry.tags]
      rw [TagEntry.resolve, hresolved, Except.ok_bind, hsame]
      rfl

end TagEntry

/-- Plain entries pass a templater unchanged. -/
theorem Templater.on_of_plain {entries : List TagEntry} (h : TagEntry.Plain entries)
    (vars : Bindings) : Templater.on vars entries = .ok entries := by
  rw [on, Except.mapM_eq_ok_iff, List.forall₂_same]
  exact fun entry hentry => TagEntry.resolve_of_plain
    (fun tag htag => h tag (List.mem_flatMap.mpr ⟨entry, hentry, htag⟩)) vars

namespace TagEntry

variable {entries : List TagEntry}

theorem plain_ofSet_flatten (h : Plain entries) : Plain (ofSet (flatten entries)) := by
  intro tag htag
  rw [allTags_ofSet, ← TagSet.mem_def, flatten, TagSet.mem_ofList] at htag
  exact h tag htag

/-- Settled, plain entries are plain and have the same tags. -/
theorem settle_of_plain (h : Plain entries) (vars : Bindings) :
    ∃ settled, settle (Templater.on vars) entries = .ok settled ∧ Plain settled ∧
      flatten settled = flatten entries := by
  by_cases hentries : entries = []
  · subst hentries
    exact ⟨[], rfl, h, rfl⟩
  · refine ⟨ofSet (flatten entries), ?_, plain_ofSet_flatten h, flatten_ofSet _⟩
    rw [settle_of_ne_nil hentries, Templater.on_of_plain h]
    rfl

end TagEntry
end TaskTags
