import TaskTags.Proofs.Diff.Compact
import TaskTags.Proofs.Diff.Midpoint
import TaskTags.Proofs.Diff.Unified

/-!
# Where a script is cut into hunks

The blocks of a script are its texts again, with kept lines and changes in turn. Each hunk takes
blocks from them, and between the hunks there are kept lines that belong to none.
-/

namespace TaskTags.Diff

/-- The lines that a block has in one of the texts. -/
def Block.textOf (side : Side) (b : Block) : List String :=
  side.pick b.oldLines b.newLines

/-- The lines that blocks have in one of the texts. -/
def textOf (side : Side) (bs : List Block) : List String :=
  bs.flatMap (Block.textOf side)

/-- The text that a script leads from or to. -/
def Script.textOf (side : Side) (script : Script) : List String :=
  side.pick script.old script.new

variable {side : Side} {bs : List Block} {script : Script} {r : Nat}

@[simp]
theorem textOf_nil : textOf side [] = [] := rfl

@[simp]
theorem textOf_cons (b : Block) : textOf side (b :: bs) = b.textOf side ++ textOf side bs :=
  List.flatMap_cons

@[simp]
theorem Block.textOf_same (ls : List String) : (Block.same ls).textOf side = ls := by
  cases side <;> rfl

/-! ## The blocks of a script -/

theorem textOf_consEdit (e : Edit) :
    textOf side (consEdit e bs) = Script.textOf side [e] ++ textOf side bs := by
  fun_cases consEdit e bs <;> cases side <;>
    simp [Script.textOf, Block.textOf, Block.oldLines, Block.newLines, Edit.oldLines, Edit.newLines]

/-- Blocks have the lines of the script in both texts. -/
theorem textOf_blocks (script : Script) : textOf side (blocks script) = script.textOf side := by
  induction script with
  | nil => cases side <;> rfl
  | cons e script ih =>
      rw [blocks, List.foldr_cons, ← blocks, textOf_consEdit, ih]
      cases side
      · exact (Script.old_append [e] script).symm
      · exact (Script.new_append [e] script).symm

/-- Kept lines and changes in turn, and changes that do have lines. -/
inductive Turns : List Block → Prop
  | nil : Turns []
  | same {ls : List String} {bs : List Block} (hbs : Turns bs)
      (hnext : ∀ more rest, bs ≠ .same more :: rest) : Turns (.same ls :: bs)
  | change {ds is : List String} {bs : List Block} (hbs : Turns bs)
      (hnext : ∀ ds' is' rest, bs ≠ .change ds' is' :: rest) (hlines : ds ++ is ≠ []) :
      Turns (.change ds is :: bs)

theorem Turns.consEdit {e : Edit} (hbs : Turns bs) (he : e.lines ≠ []) : Turns (consEdit e bs) := by
  fun_cases Diff.consEdit e bs with
  | case1 ls more rest =>
      cases hbs with
      | same hrest hnext => exact .same hrest hnext
  | case2 ls bs hnext => exact .same hbs hnext
  | case3 ls ds is rest =>
      cases hbs with
      | change hrest hnext hlines =>
          refine .change hrest hnext ?_
          rw [List.append_assoc]
          exact List.append_ne_nil_of_left_ne_nil he _
  | case4 ls bs hnext =>
      refine .change hbs hnext ?_
      rwa [List.append_nil]
  | case5 ls ds is rest =>
      cases hbs with
      | change hrest hnext hlines =>
          refine .change hrest hnext ?_
          exact List.append_ne_nil_of_right_ne_nil _ (List.append_ne_nil_of_left_ne_nil he _)
  | case6 ls bs hnext => exact .change hbs hnext he

theorem turns_blocks (h : script.Full) : Turns (blocks script) := by
  induction script with
  | nil => exact .nil
  | cons e script ih =>
      obtain ⟨he, hscript⟩ := Script.full_cons.mp h
      exact (ih hscript).consEdit he

/-- Behind equal lines there is a change, if there is anything. -/
theorem Turns.exists_change {ls : List String} (h : Turns (.same ls :: bs)) (hne : bs ≠ []) :
    ∃ ds is rest, bs = .change ds is :: rest := by
  cases h with
  | same hbs hnext =>
      cases bs with
      | nil => exact absurd rfl hne
      | cons b rest =>
          cases b with
          | same more => exact absurd rfl (hnext more rest)
          | change ds is => exact ⟨ds, is, rest, rfl⟩

theorem Turns.of_cons {b : Block} (h : Turns (b :: bs)) : Turns bs := by
  cases h with
  | same hbs hnext => exact hbs
  | change hbs hnext hlines => exact hbs

/-! ## Hunks and what is between them -/

/-- The blocks of a hunk, and the lines in front of it that belong to no hunk. -/
structure Part where
  gap : List String
  blocks : List Block

/-- The hunks of a diff with the lines between them, and the lines behind the last hunk. -/
structure Layout where
  parts : List Part
  rest : List String

def Part.textOf (side : Side) (part : Part) : List String :=
  part.gap ++ Diff.textOf side part.blocks

def Layout.textOf (side : Side) (layout : Layout) : List String :=
  layout.parts.flatMap (Part.textOf side) ++ layout.rest

/-- The blocks that a hunk under way takes, and the layout of what is behind them. -/
structure Taken where
  blocks : List Block
  layout : Layout

/-- What a hunk under way takes of blocks: equal lines at the end or too many for one hunk end it,
and in the second case the last of them start the next one. -/
def takeHunk (r : Nat) : List Block → Taken
  | [] => ⟨[], [], []⟩
  | [.same ls] => ⟨[.same (ls.take r)], [], ls.drop r⟩
  | .same ls :: rest =>
    let next := takeHunk r rest
    if 2 * r < ls.length then
      let gap := (ls.drop r).take (ls.length - 2 * r)
      let lead := ls.drop (ls.length - r)
      ⟨[.same (ls.take r)], ⟨gap, .same lead :: next.blocks⟩ :: next.layout.parts, next.layout.rest⟩
    else ⟨.same ls :: next.blocks, next.layout⟩
  | .change ds is :: rest =>
    let next := takeHunk r rest
    ⟨.change ds is :: next.blocks, next.layout⟩

/-- The hunks of blocks. Equal lines alone make none. -/
def layout (r : Nat) : List Block → Layout
  | [] => ⟨[], []⟩
  | [.same ls] => ⟨[], ls⟩
  | .same ls :: rest =>
    let next := takeHunk r rest
    let gap := ls.take (ls.length - r)
    let lead := ls.drop (ls.length - r)
    ⟨⟨gap, .same lead :: next.blocks⟩ :: next.layout.parts, next.layout.rest⟩
  | .change ds is :: rest =>
    let next := takeHunk r rest
    ⟨⟨[], .change ds is :: next.blocks⟩ :: next.layout.parts, next.layout.rest⟩

theorem Layout.textOf_cons (part : Part) (parts : List Part) (rest : List String) :
    Layout.textOf side ⟨part :: parts, rest⟩
      = part.gap ++ (Diff.textOf side part.blocks ++ Layout.textOf side ⟨parts, rest⟩) := by
  simp [Layout.textOf, Part.textOf]

/-- Lines as the first few, the last few and the gap between. -/
theorem take_gap_drop {ls : List String} (h : 2 * r < ls.length) :
    ls.take r ++ ((ls.drop r).take (ls.length - 2 * r) ++ ls.drop (ls.length - r)) = ls := by
  have hlead : ls.drop (ls.length - r) = (ls.drop r).drop (ls.length - 2 * r) := by
    rw [List.drop_drop]
    congr 1
    omega
  rw [hlead, List.take_append_drop, List.take_append_drop]

theorem textOf_takeHunk (r : Nat) (bs : List Block) :
    textOf side (takeHunk r bs).blocks ++ (takeHunk r bs).layout.textOf side = textOf side bs := by
  fun_induction takeHunk r bs with
  | case1 => rfl
  | case2 ls => simp [Layout.textOf]
  | case3 ls rest hne next hmany gap lead ih =>
      calc textOf side [.same (ls.take r)] ++ Layout.textOf side
              ⟨⟨gap, .same lead :: next.blocks⟩ :: next.layout.parts, next.layout.rest⟩
          = ls.take r ++ (gap ++ lead) ++ (textOf side next.blocks ++ next.layout.textOf side) := by
            simp [Layout.textOf_cons]
        _ = ls ++ textOf side rest := by rw [take_gap_drop hmany, ih]
        _ = textOf side (.same ls :: rest) := by simp
  | case4 ls rest hne next hfew ih =>
      rw [textOf_cons, textOf_cons, List.append_assoc, ih]
  | case5 ds is rest next ih =>
      rw [textOf_cons, textOf_cons, List.append_assoc, ih]

/-- Hunks and gaps make up the texts. -/
theorem textOf_layout (r : Nat) (bs : List Block) : (layout r bs).textOf side = textOf side bs := by
  fun_cases layout r bs with
  | case1 => rfl
  | case2 ls => simp [Layout.textOf]
  | case3 ls rest hne next gap lead =>
      rw [Layout.textOf_cons, textOf_cons, textOf_cons, List.append_assoc, textOf_takeHunk,
        Block.textOf_same, Block.textOf_same, ← List.append_assoc, List.take_append_drop]
  | case4 ds is rest next =>
      rw [Layout.textOf_cons, textOf_cons, textOf_cons, List.append_assoc, textOf_takeHunk]
      rfl

/-! ## Hunks at their places -/

/-- Hunks behind given numbers of lines of both texts. -/
def place (start : Side → Nat) : List Part → List Hunk
  | [] => []
  | part :: parts =>
    ⟨start .old + part.gap.length, start .new + part.gap.length, part.blocks⟩ ::
      place (fun side => start side + (part.textOf side).length) parts

theorem place_congr {start start' : Side → Nat} (h : ∀ side, start side = start' side)
    (parts : List Part) : place start parts = place start' parts := by
  rw [funext h]

/-- A hunk under way goes on with what it takes of the blocks, and the next hunks follow. -/
theorem collect_eq {old new : Nat} {start : Nat × Nat} {current : List Block}
    (hcurrent : current ≠ []) :
    collect r old new start current bs =
      ⟨start.1, start.2, current.reverse ++ (takeHunk r bs).blocks⟩ ::
        place (fun side => side.pick old new + (textOf side (takeHunk r bs).blocks).length)
          (takeHunk r bs).layout.parts := by
  have hfalse {current : List Block} (hcurrent : current ≠ []) : ¬ current.isEmpty = true :=
    mt List.isEmpty_iff.mp hcurrent
  fun_induction collect r old new start current bs with
  | case1 old new start current =>
      rw [takeHunk, place, List.append_nil]
  | case2 old new start current ls rest n skipped hempty =>
      exact absurd (List.isEmpty_iff.mp hempty) hcurrent
  | case3 old new start current ls rest hne hempty =>
      rw [List.isEmpty_iff.mp hempty, takeHunk, place, List.reverse_cons]
  | case4 old new start current ls rest n skipped hne hrest hmany ih =>
      have hrest : rest = [] → False := fun hnil => hrest (List.isEmpty_iff.mpr hnil)
      -- The hunk ends behind the first `r` lines, and the next one starts in front of the last `r`.
      have htake : (ls.take r).length + ((ls.drop r).take (ls.length - 2 * r)).length
          = skipped := by
        simp only [List.length_take, List.length_drop, skipped, n]
        omega
      have hdrop : skipped + (ls.drop (ls.length - r)).length = n := by
        simp only [List.length_drop, skipped, n]
        omega
      rw [takeHunk, if_pos hmany, place, List.reverse_cons, ih (List.cons_ne_nil _ _)]
      · simp only [textOf_cons, textOf_nil, Block.textOf_same, List.append_nil, Side.pick_old,
          Side.pick_new, Part.textOf, List.length_append]
        rw [Nat.add_assoc, htake, Nat.add_assoc, htake]
        congr 2
        refine place_congr (fun side => ?_) _
        cases side <;> simp only [Side.pick_old, Side.pick_new] <;> omega
      · exact hrest
  | case5 old new start current ls rest n hne hrest hfew ih =>
      have hrest : rest = [] → False := fun hnil => hrest (List.isEmpty_iff.mpr hnil)
      rw [takeHunk, if_neg hfew, ih (List.cons_ne_nil _ _), List.reverse_cons, List.append_assoc]
      · congr 1
        refine place_congr (fun side => ?_) _
        cases side <;> simp <;> omega
      · exact hrest
  | case6 old new start current ds is rest ih =>
      rw [takeHunk, ih (List.cons_ne_nil _ _), if_neg (hfalse hcurrent), List.reverse_cons,
        List.append_assoc]
      congr 1
      refine place_congr (fun side => ?_) _
      cases side <;> simp [Block.textOf, Block.oldLines, Block.newLines] <;> omega

/-! ## The hunks of a script -/

def Part.IsChanged (part : Part) : Prop :=
  ∃ ds is, Block.change ds is ∈ part.blocks

theorem mem_takeHunk_change (r : Nat) (ds is : List String) (rest : List Block) :
    .change ds is ∈ (takeHunk r (.change ds is :: rest)).blocks := by
  rw [takeHunk]
  exact List.mem_cons_self

theorem isChanged_takeHunk (h : Turns bs) :
    ∀ part ∈ (takeHunk r bs).layout.parts, part.IsChanged := by
  fun_induction takeHunk r bs with
  | case1 => exact List.forall_mem_nil _
  | case2 ls => exact List.forall_mem_nil _
  | case3 ls rest hne next hmany gap lead ih =>
      obtain ⟨ds, is, rest', rfl⟩ := h.exists_change hne
      have hmem := List.mem_cons_of_mem (.same lead) (mem_takeHunk_change r ds is rest')
      exact List.forall_mem_cons.mpr ⟨⟨ds, is, hmem⟩, ih h.of_cons⟩
  | case4 ls rest hne next hfew ih => exact ih h.of_cons
  | case5 ds is rest next ih => exact ih h.of_cons

theorem isChanged_layout (h : Turns bs) : ∀ part ∈ (layout r bs).parts, part.IsChanged := by
  fun_cases layout r bs with
  | case1 => exact List.forall_mem_nil _
  | case2 ls => exact List.forall_mem_nil _
  | case3 ls rest hne next gap lead =>
      obtain ⟨ds, is, rest', rfl⟩ := h.exists_change hne
      have hmem := List.mem_cons_of_mem (.same lead) (mem_takeHunk_change r ds is rest')
      exact List.forall_mem_cons.mpr ⟨⟨ds, is, hmem⟩, isChanged_takeHunk h.of_cons⟩
  | case4 ds is rest next =>
      exact List.forall_mem_cons.mpr ⟨⟨ds, is, List.mem_cons_self⟩, isChanged_takeHunk h.of_cons⟩

theorem Part.IsChanged.isChanged {part : Part} (h : part.IsChanged) (old new : Nat) :
    Hunk.isChanged ⟨old, new, part.blocks⟩ = true := by
  obtain ⟨ds, is, hmem⟩ := h
  exact List.any_eq_true.mpr ⟨_, hmem, rfl⟩

theorem filter_place {parts : List Part} (h : ∀ part ∈ parts, part.IsChanged) (start : Side → Nat) :
    (place start parts).filter Hunk.isChanged = place start parts := by
  induction parts generalizing start with
  | nil => rfl
  | cons part parts ih =>
      obtain ⟨hpart, hparts⟩ := List.forall_mem_cons.mp h
      rw [place, List.filter_cons_of_pos (hpart.isChanged _ _), ih hparts]

theorem filter_collect (h : Turns bs) : (collect r 0 0 (0, 0) [] bs).filter Hunk.isChanged
    = place (fun _ => 0) (layout r bs).parts := by
  rw [← filter_place (isChanged_layout h)]
  fun_cases layout r bs with
  | case1 => rfl
  | case2 ls => rfl
  | case3 ls rest hne next gap lead =>
      have hgap : gap.length = ls.length - r := by
        rw [List.length_take]
        omega
      have hlead : gap.length + lead.length = ls.length := by
        rw [← List.length_append, List.take_append_drop]
      rw [collect, if_pos List.isEmpty_nil, collect_eq (List.cons_ne_nil _ _), place]
      congr 2
      · rw [hgap]
        rfl
      · refine place_congr (fun side => ?_) _
        simp only [Part.textOf, textOf_cons, Block.textOf_same, List.length_append, next]
        cases side <;> simp only [Side.pick_old, Side.pick_new] <;> omega
  | case4 ds is rest next =>
      rw [collect, if_pos List.isEmpty_nil, collect_eq (List.cons_ne_nil _ _), place]
      congr 2
      refine place_congr (fun side => ?_) _
      simp only [Part.textOf, textOf_cons, Block.textOf, List.nil_append, List.length_append,
        next]
      cases side <;> simp only [Side.pick_old, Side.pick_new, Block.oldLines, Block.newLines] <;>
        omega

/-- The layout of the script between two texts. -/
def layoutOf (r : Nat) (xs ys : List String) : Layout :=
  layout r (blocks (compact (shortestScript xs ys)))

theorem turns_layoutOf (xs ys : List String) : Turns (blocks (compact (shortestScript xs ys))) :=
  turns_blocks ((compact_becomes _).full (full_shortestScript xs ys))

theorem hunks_eq (r : Nat) (xs ys : List String) :
    hunks r xs ys = place (fun _ => 0) (layoutOf r xs ys).parts :=
  filter_collect (turns_layoutOf xs ys)

theorem textOf_layoutOf (r : Nat) (xs ys : List String) :
    (layoutOf r xs ys).textOf side = side.pick xs ys := by
  have hleads := compact_leads (shortestScript_leads xs ys)
  rw [layoutOf, textOf_layout, textOf_blocks, Script.textOf, hleads.old, hleads.new]

end TaskTags.Diff
