import Mathlib.Data.List.Basic
import TaskTags.Diff.Myers

/-!
# Scripts between texts

Two texts are trimmed of the lines that they have in common at their ends, and what is left is cut
and compared piece by piece. Wherever it is cut, the script leads from one text to the other.
-/

namespace TaskTags.Diff

variable {xs ys : List String}

/-! ## Lines in common -/

theorem commonPrefix_le_left : commonPrefix xs ys ≤ xs.length := by
  fun_induction commonPrefix xs ys with
  | case1 x xs ys ih => simpa using ih
  | case2 => exact Nat.zero_le _
  | case3 => exact Nat.zero_le _

theorem commonPrefix_le_right : commonPrefix xs ys ≤ ys.length := by
  fun_induction commonPrefix xs ys with
  | case1 x xs ys ih => simpa using ih
  | case2 => exact Nat.zero_le _
  | case3 => exact Nat.zero_le _

theorem take_commonPrefix : xs.take (commonPrefix xs ys) = ys.take (commonPrefix xs ys) := by
  fun_induction commonPrefix xs ys with
  | case1 x xs ys ih => rw [List.take_succ_cons, List.take_succ_cons, ih]
  | case2 => rfl
  | case3 => rfl

/-- Behind the lines in common the texts differ. -/
theorem commonPrefix_drop :
    commonPrefix (xs.drop (commonPrefix xs ys)) (ys.drop (commonPrefix xs ys)) = 0 := by
  fun_induction commonPrefix xs ys with
  | case1 x xs ys ih => exact ih
  | case2 x xs y ys hne => rw [List.drop_zero, List.drop_zero, commonPrefix, if_neg hne]
  | case3 xs ys hne =>
      rw [List.drop_zero, List.drop_zero, commonPrefix]
      exact hne

theorem commonPrefix_take_le (m n : Nat) :
    commonPrefix (xs.take m) (ys.take n) ≤ commonPrefix xs ys := by
  induction xs generalizing ys m n with
  | nil => simp [commonPrefix]
  | cons x xs ih =>
      cases m with
      | zero => simp [commonPrefix]
      | succ m =>
          cases ys with
          | nil => simp [commonPrefix]
          | cons y ys =>
              cases n with
              | zero => simp [commonPrefix]
              | succ n =>
                  rw [List.take_succ_cons, List.take_succ_cons, commonPrefix, commonPrefix]
                  by_cases heq : x = y
                  · rw [if_pos heq, if_pos heq]
                    exact Nat.succ_le_succ (ih m n)
                  · rw [if_neg heq]
                    exact Nat.zero_le _

theorem commonSuffix_le_left : commonSuffix xs ys ≤ xs.length := by
  rw [← List.length_reverse]
  exact commonPrefix_le_left

theorem commonSuffix_le_right : commonSuffix xs ys ≤ ys.length := by
  rw [← List.length_reverse]
  exact commonPrefix_le_right

theorem drop_commonSuffix : xs.drop (xs.length - commonSuffix xs ys)
    = ys.drop (ys.length - commonSuffix xs ys) := by
  rw [← List.reverse_inj, List.reverse_drop, List.reverse_drop,
    Nat.sub_sub_self commonSuffix_le_left, Nat.sub_sub_self commonSuffix_le_right]
  exact take_commonPrefix

/-- In front of the last lines in common the texts differ. -/
theorem commonSuffix_take : commonSuffix (xs.take (xs.length - commonSuffix xs ys))
    (ys.take (ys.length - commonSuffix xs ys)) = 0 := by
  rw [commonSuffix, List.reverse_take, List.reverse_take, Nat.sub_sub_self commonSuffix_le_left,
    Nat.sub_sub_self commonSuffix_le_right]
  exact commonPrefix_drop

/-- Texts that end in the same lines have last lines in common. -/
theorem commonSuffix_pos {i j : Nat} (hne : xs.drop i ≠ []) (heq : xs.drop i = ys.drop j) :
    0 < commonSuffix xs ys := by
  obtain ⟨rest, last, hlast⟩ := (List.eq_nil_or_concat' (xs.drop i)).resolve_left hne
  have hxs : xs = xs.take i ++ rest ++ [last] := by
    rw [List.append_assoc, ← hlast, List.take_append_drop]
  have hys : ys = ys.take j ++ rest ++ [last] := by
    rw [List.append_assoc, ← hlast, heq, List.take_append_drop]
  rw [hxs, hys, commonSuffix, List.reverse_concat', List.reverse_concat', commonPrefix, if_pos rfl]
  exact Nat.succ_pos _

/-! ## Texts without the lines in common at their ends -/

/-- Two texts as what they have in common at their ends and what is between. -/
structure Trimmed where
  front : List String
  left : List String
  right : List String
  back : List String

def trim (xs ys : List String) : Trimmed :=
  let p := commonPrefix xs ys
  let s := commonSuffix (xs.drop p) (ys.drop p)
  { front := xs.take p
    left := (xs.drop p).take ((xs.drop p).length - s)
    right := (ys.drop p).take ((ys.drop p).length - s)
    back := (xs.drop p).drop ((xs.drop p).length - s) }

/-- Both texts have lines, the first ones differ, and so do the last ones. -/
structure Apart (xs ys : List String) : Prop where
  left : xs ≠ []
  right : ys ≠ []
  first : commonPrefix xs ys = 0
  last : commonSuffix xs ys = 0

theorem append_trim_left (xs ys : List String) :
    (trim xs ys).front ++ (trim xs ys).left ++ (trim xs ys).back = xs := by
  rw [List.append_assoc, trim, List.take_append_drop, List.take_append_drop]

theorem append_trim_right (xs ys : List String) :
    (trim xs ys).front ++ (trim xs ys).right ++ (trim xs ys).back = ys := by
  rw [List.append_assoc, trim, drop_commonSuffix, List.take_append_drop, take_commonPrefix,
    List.take_append_drop]

theorem apart_trim (hleft : (trim xs ys).left ≠ []) (hright : (trim xs ys).right ≠ []) :
    Apart (trim xs ys).left (trim xs ys).right := by
  refine ⟨hleft, hright, ?_, commonSuffix_take⟩
  apply Nat.le_zero.mp
  calc commonPrefix (trim xs ys).left (trim xs ys).right
      ≤ commonPrefix (xs.drop (commonPrefix xs ys)) (ys.drop (commonPrefix xs ys)) :=
        commonPrefix_take_le _ _
    _ = 0 := commonPrefix_drop

/-! ## Scripts of cut texts -/

/-- A script leads from one text to another. -/
structure Script.Leads (script : Script) (xs ys : List String) : Prop where
  old : script.old = xs
  new : script.new = ys

theorem Script.Leads.append {s t : Script} {us vs : List String} (hs : s.Leads xs ys)
    (ht : t.Leads us vs) : Script.Leads (s ++ t) (xs ++ us) (ys ++ vs) :=
  ⟨by rw [Script.old_append, hs.old, ht.old], by rw [Script.new_append, hs.new, ht.new]⟩

/-- All edits of a script have lines. -/
def Script.Full (script : Script) : Prop := ∀ e ∈ script, e.lines ≠ []

theorem Script.full_nil : Script.Full [] :=
  List.forall_mem_nil _

theorem Script.full_append {s t : Script} : Script.Full (s ++ t) ↔ s.Full ∧ t.Full :=
  List.forall_mem_append

theorem Script.full_cons {e : Edit} {s : Script} :
    Script.Full (e :: s) ↔ e.lines ≠ [] ∧ s.Full :=
  List.forall_mem_cons

theorem full_keepIfAny (ls : List String) : (keepIfAny ls).Full := by
  cases ls with
  | nil => exact Script.full_nil
  | cons l ls => exact Script.full_cons.mpr ⟨List.cons_ne_nil l ls, Script.full_nil⟩

/-- The script of what is between the lines in common. -/
def middle (fuel : Nat) (xs ys : List String) : Script :=
  if xs.isEmpty && ys.isEmpty then []
  else if ys.isEmpty then [.delete xs]
  else if xs.isEmpty then [.insert ys]
  else
    match midpoint? xs ys with
    | some (x, y) => conquer fuel (xs.take x) (ys.take y) ++ conquer fuel (xs.drop x) (ys.drop y)
    | none => [.delete xs, .insert ys]

theorem conquer_succ (fuel : Nat) (xs ys : List String) :
    conquer (fuel + 1) xs ys = keepIfAny (trim xs ys).front
      ++ middle fuel (trim xs ys).left (trim xs ys).right ++ keepIfAny (trim xs ys).back := rfl

theorem keepIfAny_leads (ls : List String) : (keepIfAny ls).Leads ls ls := by
  cases ls with
  | nil => exact ⟨rfl, rfl⟩
  | cons l ls => exact ⟨List.append_nil _, List.append_nil _⟩

theorem replace_leads (xs ys : List String) : Script.Leads [.delete xs, .insert ys] xs ys :=
  ⟨List.append_nil xs, List.append_nil ys⟩

theorem middle_leads {fuel : Nat} (hconquer : ∀ us vs, (conquer fuel us vs).Leads us vs)
    (xs ys : List String) : (middle fuel xs ys).Leads xs ys := by
  rw [middle]
  split
  · next hempty =>
      obtain ⟨hxs, hys⟩ := Bool.and_eq_true_iff.mp hempty
      rw [List.isEmpty_iff.mp hxs, List.isEmpty_iff.mp hys]
      exact ⟨rfl, rfl⟩
  split
  · next hys =>
      rw [List.isEmpty_iff.mp hys]
      exact ⟨List.append_nil xs, rfl⟩
  split
  · next hxs =>
      rw [List.isEmpty_iff.mp hxs]
      exact ⟨rfl, List.append_nil ys⟩
  split
  · next x y _ =>
      have hcut := (hconquer (xs.take x) (ys.take y)).append (hconquer (xs.drop x) (ys.drop y))
      rwa [List.take_append_drop, List.take_append_drop] at hcut
  · exact replace_leads xs ys

theorem conquer_leads (fuel : Nat) (xs ys : List String) : (conquer fuel xs ys).Leads xs ys := by
  induction fuel generalizing xs ys with
  | zero => exact replace_leads xs ys
  | succ fuel ih =>
      have hall := ((keepIfAny_leads (trim xs ys).front).append
        (middle_leads ih (trim xs ys).left (trim xs ys).right)).append
        (keepIfAny_leads (trim xs ys).back)
      rw [append_trim_left, append_trim_right] at hall
      rwa [conquer_succ]

theorem shortestScript_leads (xs ys : List String) : (shortestScript xs ys).Leads xs ys :=
  conquer_leads _ xs ys

end TaskTags.Diff
