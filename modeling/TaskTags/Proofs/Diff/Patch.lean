import TaskTags.Proofs.Diff.Context

/-!
# The hunks between two texts are a patch

Hunks as their headers state them describe both texts, and applied to the old text they give the new
one.
-/

namespace TaskTags.Diff

open Unified (Describes InContext)

/-- A hunk with the ranges that its header states. -/
def Hunk.stated (h : Hunk) : Unified.Hunk :=
  ⟨Side.pick ⟨h.oldStart, h.oldCount⟩ ⟨h.newStart, h.newCount⟩, h.lines⟩

/-- A part as a hunk, behind given numbers of lines of both texts. -/
def Part.stated (start : Side → Nat) (part : Part) : Unified.Hunk :=
  ⟨fun side => ⟨start side + part.gap.length, (Diff.textOf side part.blocks).length⟩,
    marked part.blocks⟩

def Part.stop (start : Side → Nat) (part : Part) (side : Side) : Nat :=
  start side + (part.textOf side).length

def stated (start : Side → Nat) (parts : List Part) : List Unified.Hunk :=
  (place start parts).map Hunk.stated

variable {r : Nat} {start : Side → Nat} {texts : Side → List String} {part : Part}
  {parts : List Part} {rest : List String} {side : Side} {h : Unified.Hunk}

theorem stated_nil : stated start [] = [] := rfl

theorem stated_cons :
    stated start (part :: parts) = part.stated start :: stated (part.stop start) parts := by
  rw [stated, place, List.map_cons]
  congr 1
  rw [Hunk.stated, Part.stated, Hunk.lines_eq]
  congr 1
  funext side
  cases side <;> rfl

theorem Part.start_stated :
    ((part.stated start).ranges side).start = start side + part.gap.length := rfl

theorem Part.count_stated :
    ((part.stated start).ranges side).count = (Diff.textOf side part.blocks).length := rfl

theorem Part.textOf_stated : (part.stated start).textOf side = Diff.textOf side part.blocks :=
  filter_marked side part.blocks

theorem Part.stop_stated : ((part.stated start).ranges side).stop = part.stop start side := by
  rw [Part.stop, Part.textOf, List.length_append, ← Nat.add_assoc]
  rfl

/-! ## What the hunks say of the texts -/

/-- Behind some lines of the texts there are parts and the rest. -/
structure Stands (start : Side → Nat) (texts : Side → List String) (parts : List Part)
    (rest : List String) : Prop where
  le : ∀ side, start side ≤ (texts side).length
  drop : ∀ side, (texts side).drop (start side) = Layout.textOf side ⟨parts, rest⟩

theorem Stands.drop_gap (hstands : Stands start texts (part :: parts) rest) (side : Side) :
    (texts side).drop (start side + part.gap.length)
      = textOf side part.blocks ++ Layout.textOf side ⟨parts, rest⟩ := by
  rw [← List.drop_drop, hstands.drop, Layout.textOf_cons, List.drop_left]

theorem Stands.next (hstands : Stands start texts (part :: parts) rest) :
    Stands (part.stop start) texts parts rest := by
  refine ⟨fun side => ?_, fun side => ?_⟩
  · have hlength := congrArg List.length (hstands.drop side)
    have hle := hstands.le side
    simp only [Layout.textOf_cons, List.length_drop, List.length_append] at hlength
    rw [Part.stop, Part.textOf, List.length_append]
    omega
  · rw [Part.stop, Part.textOf, List.length_append, ← Nat.add_assoc, ← List.drop_drop,
      hstands.drop_gap, List.drop_left]

/-- A stated hunk is that of a part, and the texts go on with this part where it stands. -/
theorem exists_of_mem_stated (hstands : Stands start texts parts rest)
    (hmem : h ∈ stated start parts) :
    ∃ start part behind, h = part.stated start ∧ Stands start texts (part :: behind) rest := by
  induction parts generalizing start with
  | nil => exact absurd hmem List.not_mem_nil
  | cons part parts ih =>
      rw [stated_cons] at hmem
      rcases List.mem_cons.mp hmem with rfl | hmem
      · exact ⟨start, part, parts, rfl, hstands⟩
      · exact ih hstands.next hmem

theorem Stands.stop_le (hstands : Stands start texts (part :: parts) rest) (side : Side) :
    ((part.stated start).ranges side).stop ≤ (texts side).length := by
  rw [Part.stop_stated]
  exact hstands.next.le side

theorem Stands.shown (hstands : Stands start texts (part :: parts) rest) (side : Side) :
    ((texts side).drop ((part.stated start).ranges side).start).take
      ((part.stated start).ranges side).count = (part.stated start).textOf side := by
  rw [Part.textOf_stated, Part.start_stated, Part.count_stated, hstands.drop_gap, List.take_left]

theorem Part.length_textOf_stated :
    ((part.stated start).textOf side).length = ((part.stated start).ranges side).count := by
  rw [Part.textOf_stated, Part.count_stated]

theorem lt_stated (hgaps : ∀ part ∈ parts, part.gap ≠ []) (hmem : h ∈ stated start parts)
    (side : Side) : start side < (h.ranges side).start := by
  induction parts generalizing start with
  | nil => exact absurd hmem List.not_mem_nil
  | cons part parts ih =>
      obtain ⟨hgap, hgaps⟩ := List.forall_mem_cons.mp hgaps
      have hgap := List.length_pos_of_ne_nil hgap
      rw [stated_cons] at hmem
      rcases List.mem_cons.mp hmem with rfl | hmem
      · exact Nat.lt_add_of_pos_right hgap
      · exact Nat.lt_of_le_of_lt (Nat.le_add_right _ _) (ih hgaps hmem)

theorem ordered_stated (hspaced : Spaced r parts rest) (side : Side) :
    (stated start parts).Pairwise fun h h' => (h.ranges side).stop < (h'.ranges side).start := by
  induction hspaced generalizing start with
  | nil => exact .nil
  | cons hpart hgaps hparts ih =>
      rw [stated_cons]
      refine List.pairwise_cons.mpr ⟨fun h hmem => ?_, ih⟩
      rw [Part.stop_stated]
      exact lt_stated hgaps hmem side

theorem outside_stated (hstands : Stands start texts parts rest) (side : Side) :
    Unified.outside side (texts side) (start side) (stated start parts)
      = parts.map Part.gap ++ [rest] := by
  induction parts generalizing start with
  | nil =>
      rw [stated_nil, Unified.outside, hstands.drop]
      rfl
  | cons part parts ih =>
      rw [stated_cons, Unified.outside, Part.stop_stated, ih hstands.next, List.map_cons,
        List.cons_append]
      congr 1
      have hgap := hstands.drop side
      rw [Layout.textOf_cons] at hgap
      simp only [Part.stated]
      rw [List.drop_take, Nat.add_sub_cancel_left, hgap, List.take_left]

/-- In front of an end of the texts there is nothing left out. -/
theorem inContext_stated (hspaced : Spaced r parts rest) (hstands : Stands start texts parts rest)
    (hstart : (∀ side, start side = 0) ∨ ∀ part ∈ parts, part.gap ≠ [])
    (hmem : h ∈ stated start parts) : InContext r texts h := by
  induction hspaced generalizing start with
  | nil => exact absurd hmem List.not_mem_nil
  | @cons part parts rest hpart hgaps hparts ih =>
      rw [stated_cons] at hmem
      rcases List.mem_cons.mp hmem with rfl | hmem
      · obtain ⟨lead, lines, hruns, hlead, hfirst, htrails⟩ := hpart
        obtain ⟨inner, trail, htrails, hinner, htrail, hlast⟩ := htrails
        refine ⟨lead, inner, trail, ?_, hinner, hlead, ?_, htrail, ?_⟩
        · rw [← htrails, ← hruns]
          rfl
        · refine hfirst.imp_right fun hgap side => ?_
          have hzero : start side = 0 :=
            hstart.elim (fun hstart => hstart side) fun hgaps =>
              absurd hgap (hgaps part List.mem_cons_self)
          simp only [Part.stated]
          rw [hzero, hgap, List.length_nil]
        · refine hlast.imp_right fun hbehind side => ?_
          obtain ⟨rfl, rfl⟩ := Layout.mk.inj hbehind
          rw [Part.stop_stated]
          have hle := hstands.next.le side
          have hdrop : (texts side).length ≤ part.stop start side :=
            List.drop_eq_nil_iff.mp (hstands.next.drop side)
          exact Nat.le_antisymm hle hdrop
      · exact ih hstands.next (.inr hgaps) hmem

theorem isChanged_of_inContext (hcontext : InContext r texts h) : h.IsChanged := by
  obtain ⟨lead, inner, trail, hruns, -⟩ := hcontext
  by_contra hsame
  have hall : ∀ l ∈ h.lines, (l.1 != Mark.same) = false := by
    intro l hl
    exact bne_eq_false_iff_eq.mpr (not_not.mp fun hne => hsame ⟨l, hl, hne⟩)
  have hlength := congrArg List.length hruns
  rw [Unified.contextRuns, List.splitOnP_eq_singleton hall] at hlength
  simp at hlength

/-- Hunks lead from the old text to the new one. -/
theorem patch_stated (start : Side → Nat) (parts : List Part) (rest : List String) :
    Unified.patch? (start .old) (stated start parts) (Layout.textOf .old ⟨parts, rest⟩)
      = some (Layout.textOf .new ⟨parts, rest⟩) := by
  induction parts generalizing start with
  | nil => rfl
  | cons part parts ih => 
      have hle : start .old ≤ ((part.stated start).ranges .old).start := Nat.le_add_right _ _
      have hskip : ((part.stated start).ranges .old).start - start .old = part.gap.length :=
        Nat.add_sub_cancel_left _ _
      have hprefix : (Diff.textOf .old part.blocks).isPrefixOf
          (Diff.textOf .old part.blocks ++ Layout.textOf .old ⟨parts, rest⟩) = true :=
        List.isPrefixOf_iff_prefix.mpr (List.prefix_append _ _)
      rw [stated_cons, Unified.patch?, Layout.textOf_cons, Layout.textOf_cons, hskip,
        List.drop_left, List.take_left, Part.textOf_stated, Part.textOf_stated, hprefix,
        decide_eq_true hle, Bool.true_and, if_pos rfl, Part.stop_stated, Part.count_stated,
        List.drop_left, ih, Option.map_some, List.append_assoc]

/-! ## The hunks between two texts -/

theorem describes_hunks (r : Nat) (xs ys : List String) :
    Describes r ((hunks r xs ys).map Hunk.stated) (Side.pick xs ys) := by
  have hspaced := spaced_layoutOf r xs ys
  have hstands : Stands (fun _ => 0) (Side.pick xs ys) (layoutOf r xs ys).parts
      (layoutOf r xs ys).rest :=
    ⟨fun _ => Nat.zero_le _, fun side => (textOf_layoutOf r xs ys).symm⟩
  rw [hunks_eq]
  refine
    { stop_le := fun h hmem => ?_
      count := fun h hmem => ?_
      shown := fun h hmem => ?_
      ordered := ordered_stated hspaced
      outside := (outside_stated hstands .old).trans (outside_stated hstands .new).symm
      context := fun h hmem => inContext_stated hspaced hstands (.inl fun _ => rfl) hmem }
  all_goals obtain ⟨start, part, behind, rfl, hpart⟩ := exists_of_mem_stated hstands hmem
  · exact hpart.stop_le
  · exact fun side => Part.length_textOf_stated
  · exact hpart.shown

theorem patch_hunks (r : Nat) (xs ys : List String) :
    Unified.patch? 0 ((hunks r xs ys).map Hunk.stated) xs = some ys := by
  rw [hunks_eq]
  have hpatch := patch_stated (fun _ => 0) (layoutOf r xs ys).parts (layoutOf r xs ys).rest
  rwa [textOf_layoutOf, textOf_layoutOf] at hpatch

end TaskTags.Diff
