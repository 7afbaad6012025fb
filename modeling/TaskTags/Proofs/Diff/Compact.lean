import TaskTags.Diff.Compact
import TaskTags.Proofs.Diff.Script

/-!
# Compaction keeps the texts

Every move of a compaction puts edits in the place of others that lead between the same texts. A
change never becomes empty on its way.
-/

namespace TaskTags.Diff

namespace Script

variable {s t u : Script}

/-- A script that can stand in place of another one: it leads between the same texts, and all its
edits have lines if all of the other one have. -/
structure Becomes (s t : Script) : Prop where
  old : t.old = s.old
  new : t.new = s.new
  full : s.Full → t.Full

namespace Becomes

theorem refl (s : Script) : s.Becomes s := ⟨rfl, rfl, id⟩

theorem trans (h : s.Becomes t) (h' : t.Becomes u) : s.Becomes u :=
  ⟨h'.old.trans h.old, h'.new.trans h.new, h'.full ∘ h.full⟩

theorem append {s' t' : Script} (h : s.Becomes t) (h' : s'.Becomes t') :
    Script.Becomes (s ++ s') (t ++ t') where
  old := by rw [old_append, old_append, h.old, h'.old]
  new := by rw [new_append, new_append, h.new, h'.new]
  full hfull := full_append.mpr ((full_append.mp hfull).imp h.full h'.full)

theorem append_right (h : s.Becomes t) (u : Script) : Script.Becomes (s ++ u) (t ++ u) :=
  h.append (refl u)

theorem append_left (u : Script) (h : s.Becomes t) : Script.Becomes (u ++ s) (u ++ t) :=
  (refl u).append h

end Becomes

/-! ## Edits in place of others -/

theorem keep_nil_becomes : Becomes [.keep []] [] :=
  ⟨rfl, rfl, fun _ => full_nil⟩

theorem inserts_become (ls ls' : List String) :
    Becomes [.insert ls, .insert ls'] [.insert (ls ++ ls')] where
  old := rfl
  new := by simp [Edit.newLines]
  full hfull := by
    refine full_cons.mpr ⟨?_, full_nil⟩
    exact List.append_ne_nil_of_left_ne_nil (full_cons.mp hfull).1 ls'

theorem deletes_become (ls ls' : List String) :
    Becomes [.delete ls, .delete ls'] [.delete (ls ++ ls')] where
  old := by simp [Edit.oldLines]
  new := rfl
  full hfull := by
    refine full_cons.mpr ⟨?_, full_nil⟩
    exact List.append_ne_nil_of_left_ne_nil (full_cons.mp hfull).1 ls'

theorem keeps_become (ls ls' : List String) :
    Becomes [.keep ls, .keep ls'] [.keep (ls ++ ls')] where
  old := by simp [Edit.oldLines]
  new := by simp [Edit.newLines]
  full hfull := by
    refine full_cons.mpr ⟨?_, full_nil⟩
    exact List.append_ne_nil_of_left_ne_nil (full_cons.mp hfull).1 ls'

theorem pushKeep_becomes (ls : List String) (s : Script) :
    Becomes (.keep ls :: s) (pushKeep ls s) := by
  fun_cases pushKeep ls s with
  | case1 more rest => exact (keeps_become ls more).append_right rest
  | case2 => exact .refl _

theorem pushKeepBack_becomes (ls : List String) (s : Script) :
    Becomes (s.reverse ++ [.keep ls]) (pushKeepBack ls s).reverse := by
  fun_cases pushKeepBack ls s with
  | case1 more rest =>
      rw [List.reverse_cons, List.reverse_cons, List.append_assoc]
      exact (keeps_become more ls).append_left rest.reverse
  | case2 =>
      rw [List.reverse_cons]
      exact .refl _

end Script

/-- Edits that are no kept lines. -/
def Edit.IsChange (e : Edit) : Prop := ∀ ls, e ≠ .keep ls

/-- A deletion and an insertion can change places. -/
theorem Script.swap_becomes {e e' : Edit} (he : e.IsChange) (he' : e'.IsChange)
    (hinsert : ∀ ls ls', e = .insert ls' → e' = .insert ls → False)
    (hdelete : ∀ ls ls', e = .delete ls' → e' = .delete ls → False) :
    Script.Becomes [e', e] [e, e'] := by
  have hfull : Script.Full [e', e] → Script.Full [e, e'] := by
    intro hfull
    obtain ⟨hfirst, hrest⟩ := full_cons.mp hfull
    obtain ⟨hsecond, hnil⟩ := full_cons.mp hrest
    exact full_cons.mpr ⟨hsecond, full_cons.mpr ⟨hfirst, hnil⟩⟩
  cases e with
  | keep ls => exact absurd rfl (he ls)
  | insert ls =>
      cases e' with
      | keep ls' => exact absurd rfl (he' ls')
      | insert ls' => exact absurd rfl (hinsert ls' ls rfl)
      | delete ls' => exact ⟨rfl, rfl, hfull⟩
  | delete ls =>
      cases e' with
      | keep ls' => exact absurd rfl (he' ls')
      | insert ls' => exact ⟨rfl, rfl, hfull⟩
      | delete ls' => exact absurd rfl (hdelete ls' ls rfl)

theorem rotate_ne_nil {ls : List String} (h : ls ≠ []) (n : Nat) : ls.drop n ++ ls.take n ≠ [] := by
  intro hnil
  obtain ⟨hdrop, htake⟩ := List.append_eq_nil_iff.mp hnil
  apply h
  rw [← List.take_append_drop n ls, hdrop, htake, List.append_nil]

/-- An insertion that ends as the kept lines in front of it do can move up by these lines. -/
theorem slideUp_becomes {kept : List String} {e : Edit} (h : 0 < slideUp kept e) :
    Script.Becomes [.keep kept, e] (keepIfAny (kept.take (kept.length - slideUp kept e)) ++
      [rotateUp (slideUp kept e) e, .keep (kept.drop (kept.length - slideUp kept e))]) := by
  cases e with
  | keep ls => exact absurd h (Nat.lt_irrefl 0)
  | delete ls => exact absurd h (Nat.lt_irrefl 0)
  | insert ls =>
      rw [slideUp] at h ⊢
      rw [rotateUp]
      have hmoved : kept.drop (kept.length - commonSuffix kept ls)
          = ls.drop (ls.length - commonSuffix kept ls) := drop_commonSuffix
      have hkept := List.take_append_drop (kept.length - commonSuffix kept ls) kept
      have hls := List.take_append_drop (ls.length - commonSuffix kept ls) ls
      have hne : ls.drop (ls.length - commonSuffix kept ls) ≠ [] := by
        intro hnil
        have hle := List.drop_eq_nil_iff.mp hnil
        have hbound : commonSuffix kept ls ≤ ls.length := commonSuffix_le_right
        omega
      rw [hmoved] at hkept ⊢
      refine ⟨?_, ?_, fun hfull => ?_⟩
      · rw [Script.old_append, (keepIfAny_leads _).old]
        simp only [Script.old_cons, Script.old_nil, Edit.oldLines, List.append_nil, List.nil_append]
        exact hkept
      · rw [Script.new_append, (keepIfAny_leads _).new]
        simp only [Script.new_cons, Script.new_nil, Edit.newLines, List.append_nil]
        rw [List.append_assoc, hls, ← List.append_assoc, hkept]
      · obtain ⟨-, hrest⟩ := Script.full_cons.mp hfull
        have hinsert : Script.Full [.insert (ls.drop (ls.length - commonSuffix kept ls) ++
              ls.take (ls.length - commonSuffix kept ls)),
            .keep (ls.drop (ls.length - commonSuffix kept ls))] :=
          Script.full_cons.mpr ⟨rotate_ne_nil (Script.full_cons.mp hrest).1 _,
            Script.full_cons.mpr ⟨hne, Script.full_nil⟩⟩
        exact Script.full_append.mpr ⟨full_keepIfAny _, hinsert⟩

/-- An insertion that starts as the kept lines behind it do can move down by these lines. -/
theorem slideDown_becomes {kept : List String} {e : Edit} (h : 0 < slideDown kept e) :
    Script.Becomes [e, .keep kept] ([.keep (kept.take (slideDown kept e)),
      rotateDown (slideDown kept e) e] ++ keepIfAny (kept.drop (slideDown kept e))) := by
  cases e with
  | keep ls => exact absurd h (Nat.lt_irrefl 0)
  | delete ls => exact absurd h (Nat.lt_irrefl 0)
  | insert ls =>
      rw [slideDown] at h ⊢
      rw [rotateDown]
      have hmoved : kept.take (commonPrefix kept ls) = ls.take (commonPrefix kept ls) :=
        take_commonPrefix
      have hkept := List.take_append_drop (commonPrefix kept ls) kept
      have hls := List.take_append_drop (commonPrefix kept ls) ls
      have hne : ls.take (commonPrefix kept ls) ≠ [] := by
        intro hnil
        have hlength := congrArg List.length hnil
        rw [List.length_take, List.length_nil] at hlength
        have hbound : commonPrefix kept ls ≤ ls.length := commonPrefix_le_right
        omega
      rw [hmoved] at hkept ⊢
      refine ⟨?_, ?_, fun hfull => ?_⟩
      · rw [Script.old_append, (keepIfAny_leads _).old]
        simp only [Script.old_cons, Script.old_nil, Edit.oldLines, List.append_nil, List.nil_append]
        exact hkept
      · rw [Script.new_append, (keepIfAny_leads _).new]
        simp only [Script.new_cons, Script.new_nil, Edit.newLines, List.append_nil]
        rw [← List.append_assoc, hls, List.append_assoc, hkept]
      · have hinsert : Script.Full [.keep (ls.take (commonPrefix kept ls)),
            .insert (ls.drop (commonPrefix kept ls) ++ ls.take (commonPrefix kept ls))] :=
          Script.full_cons.mpr ⟨hne, Script.full_cons.mpr
            ⟨rotate_ne_nil (Script.full_cons.mp hfull).1 _, Script.full_nil⟩⟩
        exact Script.full_append.mpr ⟨hinsert, full_keepIfAny _⟩

/-! ## Moving the focus -/

namespace Focus

def script (f : Focus) : Script :=
  f.before.reverse ++ f.edit :: f.after

/-- A focus on a change, in a script that can stand in place of that of another focus. -/
structure Moves (f g : Focus) : Prop where
  becomes : f.script.Becomes g.script
  change : g.edit.IsChange

variable {f g g' : Focus}

theorem Moves.step (h : f.script.Becomes g.script) (h' : g.Moves g') : f.Moves g' :=
  ⟨h.trans h'.becomes, h'.change⟩

theorem script_cons (e e' : Edit) (rest after : List Edit) :
    Focus.script ⟨e' :: rest, e, after⟩ = rest.reverse ++ ([e', e] ++ after) := by
  rw [script, List.reverse_cons, List.append_assoc]
  rfl

/-- The edit in focus and the one in front of it, replaced where they stand. -/
theorem script_becomes_up {e e' : Edit} {t : Script} (h : Script.Becomes [e', e] t)
    (rest after : List Edit) :
    Script.Becomes (Focus.script ⟨e' :: rest, e, after⟩) (rest.reverse ++ (t ++ after)) := by
  rw [script_cons]
  exact (h.append_right after).append_left rest.reverse

/-- The edit in focus and the one behind it, replaced where they stand. -/
theorem script_becomes_down {e e' : Edit} {t : Script} (h : Script.Becomes [e, e'] t)
    (before rest : List Edit) :
    Script.Becomes (Focus.script ⟨before, e, e' :: rest⟩) (before.reverse ++ (t ++ rest)) :=
  (h.append_right rest).append_left before.reverse

end Focus

theorem reverse_keepIfAny (left : List String) (rest : Script) :
    (if left.isEmpty then rest else .keep left :: rest).reverse
      = rest.reverse ++ keepIfAny left := by
  cases left with
  | nil => exact (List.append_nil _).symm
  | cons l ls => exact List.reverse_cons

theorem append_keepIfAny (left : List String) (rest : Script) :
    (if left.isEmpty then rest else .keep left :: rest) = keepIfAny left ++ rest := by
  cases left <;> rfl

theorem isChange_rotateUp {e : Edit} (h : e.IsChange) (n : Nat) : (rotateUp n e).IsChange := by
  cases e with
  | keep ls => exact absurd rfl (h ls)
  | delete ls => exact h
  | insert ls => exact nofun

theorem isChange_rotateDown {e : Edit} (h : e.IsChange) (n : Nat) : (rotateDown n e).IsChange := by
  cases e with
  | keep ls => exact absurd rfl (h ls)
  | delete ls => exact h
  | insert ls => exact nofun

theorem shiftUp_moves {f : Focus} (h : f.edit.IsChange) (fuel : Nat) :
    f.Moves (shiftUp fuel f) := by
  fun_induction shiftUp fuel f with
  | case1 f => exact ⟨.refl _, h⟩
  | case2 fuel after kept rest e n hn left moved before ih =>
      refine .step ?_ (ih (isChange_rotateUp h n))
      refine (Focus.script_becomes_up (slideUp_becomes hn) rest after).trans ?_
      rw [Focus.script, reverse_keepIfAny, List.append_assoc, List.append_assoc]
      refine Script.Becomes.append_left _ (Script.Becomes.append_left _ ?_)
      exact (Script.pushKeep_becomes moved after).append_left [rotateUp n e]
  | case3 fuel after kept rest e n hn hempty ih =>
      refine .step ?_ (ih h)
      rw [List.isEmpty_iff.mp hempty]
      exact Focus.script_becomes_up (Script.keep_nil_becomes.append_right [e]) rest after
  | case4 => exact ⟨.refl _, h⟩
  | case5 fuel after ls rest ls' ih =>
      refine .step ?_ (ih nofun)
      exact Focus.script_becomes_up (Script.inserts_become ls ls') rest after
  | case6 fuel after ls rest ls' ih =>
      refine .step ?_ (ih nofun)
      exact Focus.script_becomes_up (Script.deletes_become ls ls') rest after
  | case7 fuel after e' rest e hkeep hinsert hdelete ih =>
      refine .step ?_ (ih h)
      exact Focus.script_becomes_up (Script.swap_becomes h hkeep hinsert hdelete) rest after
  | case8 => exact ⟨.refl _, h⟩

theorem shiftDown_moves {f : Focus} (h : f.edit.IsChange) (fuel : Nat) :
    f.Moves (shiftDown fuel f) := by
  fun_induction shiftDown fuel f with
  | case1 f => exact ⟨.refl _, h⟩
  | case2 fuel before kept rest e n hn left after ih =>
      refine .step ?_ (ih (isChange_rotateDown h n))
      refine (Focus.script_becomes_down (slideDown_becomes hn) before rest).trans ?_
      have hpush := (Script.pushKeepBack_becomes (kept.take n) before).append_right
        (rotateDown n e :: (keepIfAny left ++ rest))
      have hafter : after = keepIfAny left ++ rest := append_keepIfAny left rest
      rw [List.append_assoc, ← hafter] at hpush
      rw [List.append_assoc, ← hafter]
      exact hpush
  | case3 fuel before kept rest e n hn hempty ih =>
      refine .step ?_ (ih h)
      rw [List.isEmpty_iff.mp hempty]
      exact Focus.script_becomes_down (Script.keep_nil_becomes.append_left [e]) before rest
  | case4 => exact ⟨.refl _, h⟩
  | case5 fuel before ls rest ls' ih =>
      refine .step ?_ (ih nofun)
      exact Focus.script_becomes_down (Script.inserts_become ls' ls) before rest
  | case6 fuel before ls rest ls' ih =>
      refine .step ?_ (ih nofun)
      exact Focus.script_becomes_down (Script.deletes_become ls' ls) before rest
  | case7 fuel before e' rest e hkeep hinsert hdelete ih =>
      refine .step ?_ (ih h)
      have hswap : Script.Becomes [e, e'] [e', e] :=
        Script.swap_becomes hkeep h (fun ls ls' he' he => hinsert ls' ls he he')
          fun ls ls' he' he => hdelete ls' ls he he'
      rw [Focus.script_cons]
      exact Focus.script_becomes_down hswap before rest
  | case8 => exact ⟨.refl _, h⟩

/-! ## All edits of a kind -/

theorem compactKind_becomes {ofKind : Edit → Bool} (hkind : ∀ ls, ofKind (.keep ls) = false)
    (fuel : Nat) (before after : Script) :
    Script.Becomes (before.reverse ++ after) (compactKind ofKind fuel before after) := by
  fun_induction compactKind ofKind fuel before after with
  | case1 before after => exact .refl _
  | case2 fuel before =>
      rw [List.append_nil]
      exact .refl _
  | case3 fuel before e after hof up down ih =>
      have hchange : e.IsChange := by
        rintro ls rfl
        exact Bool.false_ne_true ((hkind ls).symm.trans hof)
      have hup : Focus.Moves ⟨before, e, after⟩ up := shiftUp_moves hchange _
      have hdown : up.Moves down := shiftDown_moves hup.change _
      rw [List.reverse_cons, List.append_assoc] at ih
      exact hup.becomes.trans (hdown.becomes.trans ih)
  | case4 fuel before e after hof ih =>
      rw [List.reverse_cons, List.append_assoc] at ih
      exact ih

theorem compact_becomes (script : Script) : script.Becomes (compact script) :=
  (compactKind_becomes (fun _ => rfl) _ [] script).trans
    (compactKind_becomes (fun _ => rfl) _ [] _)

theorem compact_leads {script : Script} {xs ys : List String} (h : script.Leads xs ys) :
    (compact script).Leads xs ys :=
  ⟨(compact_becomes script).old.trans h.old, (compact_becomes script).new.trans h.new⟩

end TaskTags.Diff
