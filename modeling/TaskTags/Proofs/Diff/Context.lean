import TaskTags.Proofs.Diff.Hunk

/-!
# Equal lines around changes

A hunk takes equal lines up to the radius in front of its first change and behind its last one, and
between two changes as many as do not end it.
-/

namespace TaskTags.Diff

/-- The marked lines of a block, in a change the deleted ones first. -/
def Block.marked : Block → List (Mark × String)
  | .same ls => ls.map (Mark.same, ·)
  | .change ds is => ds.map (Mark.deleted, ·) ++ is.map (Mark.inserted, ·)

def marked (bs : List Block) : List (Mark × String) :=
  bs.flatMap Block.marked

variable {bs : List Block} {r : Nat} {lines : List (Mark × String)}

theorem Hunk.lines_eq (h : Hunk) : h.lines = marked h.blocks := by
  rw [lines, marked]
  congr 1

theorem marked_nil : marked [] = [] := rfl

theorem marked_same (ls : List String) (bs : List Block) :
    marked (.same ls :: bs) = ls.map (Mark.same, ·) ++ marked bs :=
  List.flatMap_cons

theorem marked_change (ds is : List String) (bs : List Block) :
    marked (.change ds is :: bs)
      = (ds.map (Mark.deleted, ·) ++ is.map (Mark.inserted, ·)) ++ marked bs :=
  List.flatMap_cons

/-- The lines of blocks in one of the texts are those that are not marked for the other one. -/
theorem filter_marked (side : Side) (bs : List Block) :
    ((marked bs).filter fun l => l.1.isOf side).map Prod.snd = textOf side bs := by
  induction bs with
  | nil => rfl
  | cons b bs ih =>
      rw [textOf_cons, ← ih]
      cases b <;> cases side <;>
        simp [marked_same, marked_change, List.filter_map, Function.comp_def, Mark.isOf,
          Block.textOf, Block.oldLines, Block.newLines]

/-! ## Runs of equal lines -/

open Unified (contextRuns)

theorem contextRuns_same (ls : List String) :
    contextRuns (ls.map (Mark.same, ·)) = [ls.length] := by
  rw [contextRuns, List.splitOnP_eq_singleton (by simp), List.map_singleton, List.length_map]

theorem contextRuns_cons {l : Mark × String} (h : l.1 ≠ .same) (ls : List String)
    (lines : List (Mark × String)) :
    contextRuns (ls.map (Mark.same, ·) ++ l :: lines) = ls.length :: contextRuns lines := by
  have hsame : ∀ l ∈ ls.map (Mark.same, ·), (l.1 != Mark.same) = false := by simp
  have hsplit : (ls.map (Mark.same, ·) ++ l :: lines).splitOnP (fun l => l.1 != .same)
      = ls.map (Mark.same, ·) :: lines.splitOnP fun l => l.1 != .same :=
    List.splitOnP_append_cons_of_forall_mem hsame l (bne_iff_ne.mpr h) lines
  rw [contextRuns, hsplit, List.map_cons, List.length_map, contextRuns]

theorem contextRuns_ne_nil (lines : List (Mark × String)) : contextRuns lines ≠ [] :=
  mt List.map_eq_nil_iff.mp (List.splitOnP_ne_nil _ lines)

/-- The lines of a hunk up to its end, behind changed lines, and the layout behind them: two changes
have at most twice the radius of equal lines between them, and there are `r` equal lines at the end
unless it is the end of the texts. -/
def Trails (r : Nat) (lines : List (Mark × String)) (behind : Layout) : Prop :=
  ∃ inner trail, contextRuns lines = inner ++ [trail] ∧ (∀ n ∈ inner, n ≤ 2 * r) ∧ trail ≤ r ∧
    (trail = r ∨ behind = ⟨[], []⟩)

variable {behind : Layout}

theorem Trails.cons {l : Mark × String} (hl : l.1 ≠ .same) (ls : List String)
    (hls : ls.length ≤ 2 * r) (h : Trails r lines behind) :
    Trails r (ls.map (Mark.same, ·) ++ l :: lines) behind := by
  obtain ⟨inner, trail, hruns, hinner, htrail⟩ := h
  refine ⟨ls.length :: inner, trail, ?_, List.forall_mem_cons.mpr ⟨hls, hinner⟩, htrail⟩
  rw [contextRuns_cons hl, hruns, List.cons_append]

theorem Trails.of_cons {l : Mark × String} (hl : l.1 ≠ .same) (h : Trails r (l :: lines) behind) :
    Trails r lines behind := by
  obtain ⟨inner, trail, hruns, hinner, htrail⟩ := h
  have hcons : contextRuns (l :: lines) = 0 :: contextRuns lines := contextRuns_cons hl [] lines
  rw [hcons] at hruns
  cases inner with
  | nil => exact absurd (List.cons.inj hruns).2 (contextRuns_ne_nil lines)
  | cons n inner =>
      exact ⟨inner, trail, (List.cons.inj hruns).2, (List.forall_mem_cons.mp hinner).2, htrail⟩

theorem Trails.changes {changes : List (Mark × String)} (hchanges : ∀ l ∈ changes, l.1 ≠ .same)
    (h : Trails r lines behind) : Trails r (changes ++ lines) behind := by
  induction changes with
  | nil => exact h
  | cons l changes ih =>
      obtain ⟨hl, hchanges⟩ := List.forall_mem_cons.mp hchanges
      exact Trails.cons hl [] (Nat.zero_le _) (ih hchanges)

theorem mark_ne_same (ds is : List String) :
    ∀ l ∈ ds.map (Mark.deleted, ·) ++ is.map (Mark.inserted, ·), l.1 ≠ .same := by
  simp only [List.mem_append, List.mem_map]
  rintro l (⟨d, -, rfl⟩ | ⟨i, -, rfl⟩) <;> exact nofun

/-- A change starts with a changed line. -/
theorem exists_marked_takeHunk {ds is : List String} (h : Turns (.change ds is :: bs)) (r : Nat) :
    ∃ l lines, marked (takeHunk r (.change ds is :: bs)).blocks = l :: lines ∧ l.1 ≠ .same := by
  rw [takeHunk, marked_change]
  cases h with
  | change _ _ hlines =>
      have hne : ds.map (Mark.deleted, ·) ++ is.map (Mark.inserted, ·) ≠ [] := by
        simpa [List.append_eq_nil_iff] using hlines
      obtain ⟨l, rest, hcons⟩ := List.exists_cons_of_ne_nil hne
      rw [hcons]
      exact ⟨l, _, rfl, mark_ne_same ds is l (hcons ▸ List.mem_cons_self)⟩

theorem trails_takeHunk (h : Turns bs) :
    Trails r (marked (takeHunk r bs).blocks) (takeHunk r bs).layout := by
  fun_induction takeHunk r bs with
  | case1 => exact ⟨[], 0, rfl, List.forall_mem_nil _, Nat.zero_le r, .inr rfl⟩
  | case2 ls =>
      rw [marked_same, marked_nil, List.append_nil]
      refine ⟨[], (ls.take r).length, contextRuns_same _, List.forall_mem_nil _, ?_, ?_⟩
      · exact List.length_take_le r ls
      · rw [List.length_take]
        rcases Nat.le_total r ls.length with hle | hle
        · exact .inl (Nat.min_eq_left hle)
        · exact .inr (by rw [List.drop_of_length_le hle])
  | case3 ls rest hne next hmany gap lead ih =>
      rw [marked_same, marked_nil, List.append_nil]
      refine ⟨[], (ls.take r).length, contextRuns_same _, List.forall_mem_nil _, ?_, ?_⟩
      · exact List.length_take_le r ls
      · rw [List.length_take]
        omega
  | case4 ls rest hne next hfew ih =>
      obtain ⟨ds, is, rest', rfl⟩ := h.exists_change hne
      obtain ⟨l, lines, hcons, hl⟩ := exists_marked_takeHunk h.of_cons r
      have htrails := ih h.of_cons
      rw [marked_same, hcons]
      rw [hcons] at htrails
      -- The run in front of the next change is empty, and the kept lines take its place.
      exact (htrails.of_cons hl).cons hl ls (Nat.not_lt.mp hfew)
  | case5 ds is rest next ih =>
      rw [marked_change]
      exact (ih h.of_cons).changes (mark_ne_same ds is)

/-! ## Spaced hunks -/

/-- A hunk starts with `r` equal lines unless there are none left out in front of it. -/
def Part.Within (r : Nat) (part : Part) (behind : Layout) : Prop :=
  ∃ lead lines, contextRuns (marked part.blocks) = lead :: contextRuns lines ∧ lead ≤ r ∧
    (lead = r ∨ part.gap = []) ∧ Trails r lines behind

/-- Hunks with as many equal lines around their changes as they take; only the first one can be
where the texts start. -/
inductive Spaced (r : Nat) : List Part → List String → Prop
  | nil (rest : List String) : Spaced r [] rest
  | cons {part : Part} {parts : List Part} {rest : List String}
      (hpart : part.Within r ⟨parts, rest⟩) (hgaps : ∀ part ∈ parts, part.gap ≠ []) (hparts : Spaced r parts rest) :
      Spaced r (part :: parts) rest

/-- A hunk that starts with equal lines. -/
theorem within_same {ds is ls gap : List String} (h : Turns (.change ds is :: bs))
    (hlead : ls.length ≤ r) (hgap : ls.length = r ∨ gap = []) :
    Part.Within r ⟨gap, .same ls :: (takeHunk r (.change ds is :: bs)).blocks⟩
      (takeHunk r (.change ds is :: bs)).layout := by
  obtain ⟨l, lines, hcons, hl⟩ := exists_marked_takeHunk h r
  have htrails := trails_takeHunk h (r := r)
  rw [hcons] at htrails
  refine ⟨ls.length, lines, ?_, hlead, hgap, htrails.of_cons hl⟩
  rw [marked_same, hcons, contextRuns_cons hl]

theorem spaced_takeHunk (h : Turns bs) :
    (∀ part ∈ (takeHunk r bs).layout.parts, part.gap ≠ []) ∧
      Spaced r (takeHunk r bs).layout.parts (takeHunk r bs).layout.rest := by
  fun_induction takeHunk r bs with
  | case1 => exact ⟨List.forall_mem_nil _, .nil _⟩
  | case2 ls => exact ⟨List.forall_mem_nil _, .nil _⟩
  | case3 ls rest hne next hmany gap lead ih =>
      obtain ⟨ds, is, rest', rfl⟩ := h.exists_change hne
      obtain ⟨hgaps, hspaced⟩ := ih h.of_cons
      have hgap : gap ≠ [] := by
        apply List.ne_nil_of_length_pos
        rw [List.length_take, List.length_drop]
        omega
      have hlead : lead.length = r := by
        rw [List.length_drop]
        omega
      exact ⟨List.forall_mem_cons.mpr ⟨hgap, hgaps⟩,
        .cons (within_same h.of_cons (Nat.le_of_eq hlead) (.inl hlead)) hgaps hspaced⟩
  | case4 ls rest hne next hfew ih => exact ih h.of_cons
  | case5 ds is rest next ih => exact ih h.of_cons

theorem spaced_layout (h : Turns bs) : Spaced r (layout r bs).parts (layout r bs).rest := by
  fun_cases layout r bs with
  | case1 => exact .nil _
  | case2 ls => exact .nil _
  | case3 ls rest hne next gap lead =>
      obtain ⟨ds, is, rest', rfl⟩ := h.exists_change hne
      obtain ⟨hgaps, hspaced⟩ := spaced_takeHunk h.of_cons (r := r)
      have hlead : lead.length = ls.length - (ls.length - r) := List.length_drop
      have hgap : lead.length = r ∨ gap = [] := by
        rcases Nat.le_total r ls.length with hle | hle
        · exact .inl (hlead.trans (Nat.sub_sub_self hle))
        · exact .inr (by rw [show gap = ls.take (ls.length - r) from rfl, Nat.sub_eq_zero_of_le hle,
            List.take_zero])
      exact .cons (within_same h.of_cons (by omega) hgap) hgaps hspaced
  | case4 ds is rest next =>
      obtain ⟨hgaps, hspaced⟩ := spaced_takeHunk h.of_cons (r := r)
      obtain ⟨l, lines, hcons, hl⟩ := exists_marked_takeHunk h r
      have htrails := trails_takeHunk h (r := r)
      rw [hcons] at htrails
      have hruns : contextRuns (marked (takeHunk r (.change ds is :: rest)).blocks)
          = 0 :: contextRuns lines := by
        rw [hcons]
        exact contextRuns_cons hl [] lines
      exact .cons ⟨0, lines, hruns, Nat.zero_le r, .inr rfl, htrails.of_cons hl⟩ hgaps hspaced

theorem spaced_layoutOf (r : Nat) (xs ys : List String) :
    Spaced r (layoutOf r xs ys).parts (layoutOf r xs ys).rest :=
  spaced_layout (turns_layoutOf xs ys)

end TaskTags.Diff
