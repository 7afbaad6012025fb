import TaskTags.Proofs.Decimal.Digits
import TaskTags.Proofs.Diff.Patch

/-!
# Reading hunks back

The lines of hunks, each under its header, are read as the hunks that the headers state.
-/

namespace TaskTags.Diff

namespace Unified

/-! ## Lines of a text -/

theorem lines?_append_newline {cs : List Char} {text : String} (h : text.toList = cs ++ ['\n']) :
    lines? text = some ((cs.splitOn '\n').map String.ofList) := by
  have hpieces : text.toList.splitOn '\n' = cs.splitOn '\n' ++ [[]] := by
    rw [h]
    exact List.splitOn_append_cons_self cs []
  rw [lines?, hpieces]
  simp

theorem toList_joinLines (ls : List String) :
    (String.join (ls.map (· ++ "\n"))).toList = ls.flatMap fun l => l.toList ++ ['\n'] := by
  rw [String.toList_join, List.flatMap_map]
  refine List.flatMap_congr fun l _ => ?_
  rw [String.toList_append]
  rfl

theorem splitOn_flatMap {ls : List String} (hls : ∀ l ∈ ls, '\n' ∉ l.toList) :
    (ls.flatMap fun l => l.toList ++ ['\n']).splitOn '\n' = ls.map String.toList ++ [[]] := by
  induction ls with
  | nil => rfl
  | cons l ls ih =>
      obtain ⟨hl, hls⟩ := List.forall_mem_cons.mp hls
      rw [List.flatMap_cons, List.append_assoc, List.singleton_append,
        List.splitOn_append_cons_self_of_not_mem hl, ih hls, List.map_cons, List.cons_append]

/-- Lines without newlines are the lines of the text that they make up. -/
theorem lines?_joinLines {ls : List String} (hls : ∀ l ∈ ls, '\n' ∉ l.toList) :
    lines? (String.join (ls.map (· ++ "\n"))) = some ls := by
  rw [lines?, toList_joinLines, splitOn_flatMap hls]
  simp

theorem intercalate_append_nil (pieces : List (List Char)) :
    ['\n'].intercalate (pieces ++ [[]]) = pieces.flatMap (· ++ ['\n']) := by
  induction pieces with
  | nil => rfl
  | cons piece pieces ih =>
      have hne : pieces ++ [[]] ≠ [] := List.append_ne_nil_of_right_ne_nil _ (List.cons_ne_nil _ _)
      rw [List.cons_append, List.intercalate_cons_of_ne_nil hne, ih, List.flatMap_cons]

/-- The lines of a text make up the text. -/
theorem joinLines_of_lines? {text : String} {ls : List String} (h : lines? text = some ls) :
    String.join (ls.map (· ++ "\n")) = text := by
  rw [lines?, Option.ite_none_right_eq_some] at h
  obtain ⟨hlast, hls⟩ := h
  obtain rfl := Option.some.inj hls
  rw [← String.toList_inj, toList_joinLines, List.flatMap_map]
  calc (text.toList.splitOn '\n').dropLast.flatMap (fun l => (String.ofList l).toList ++ ['\n'])
      = (text.toList.splitOn '\n').dropLast.flatMap (· ++ ['\n']) := by
        simp only [String.toList_ofList]
    _ = ['\n'].intercalate ((text.toList.splitOn '\n').dropLast ++ [[]]) :=
        (intercalate_append_nil _).symm
    _ = ['\n'].intercalate (text.toList.splitOn '\n') := by
        rw [List.dropLast_append_getLast? [] hlast]
    _ = text.toList := List.intercalate_splitOn '\n'

/-! ## Ranges -/

theorem number?_digits (n : Nat) : number? (Decimal.digits n) = some n := by
  have hall : (Decimal.digits n).all Decimal.isDigit = true :=
    List.all_eq_true.mpr fun _ => Decimal.isDigit_of_mem_digits
  have hne : (Decimal.digits n).isEmpty = false :=
    Bool.eq_false_iff.mpr (mt List.isEmpty_iff.mp (Decimal.digits_ne_nil n))
  rw [number?, hall, hne, Decimal.natOf_digits]
  rfl

theorem ofChars?_digits (n : Nat) : Range.ofChars? (Decimal.digits n) = Range.ofLines? n 1 := by
  rw [Range.ofChars?, List.splitOn_eq_singleton (Decimal.not_mem_digits rfl n)]
  simp only [number?_digits]
  rfl

theorem ofChars?_digits_comma (m n : Nat) :
    Range.ofChars? (Decimal.digits m ++ ',' :: Decimal.digits n) = Range.ofLines? m n := by
  rw [Range.ofChars?, List.splitOn_append_cons_self_of_not_mem (Decimal.not_mem_digits rfl m),
    List.splitOn_eq_singleton (Decimal.not_mem_digits rfl n)]
  simp only [number?_digits]
  rfl

theorem toList_rangeText (start count : Nat) : (Diff.Hunk.rangeText start count).toList =
    if count = 1 then Decimal.digits (start + 1)
    else if count = 0 then Decimal.digits start ++ ',' :: Decimal.digits 0
    else Decimal.digits (start + 1) ++ ',' :: Decimal.digits count := by
  have htoList (n : Nat) : (toString n).toList = Decimal.digits n := Nat.toList_repr
  rw [Diff.Hunk.rangeText]
  split
  · exact htoList _
  split
  · rw [String.toList_append, htoList]
    rfl
  · rw [String.toList_append, String.toList_append, htoList, htoList, List.append_assoc]
    rfl

/-- The range of some lines is read back from its text. -/
theorem ofChars?_rangeText (start count : Nat) :
    Range.ofChars? (Diff.Hunk.rangeText start count).toList = some ⟨start, count⟩ := by
  rw [toList_rangeText]
  split
  · next hone =>
      rw [ofChars?_digits, hone]
      rfl
  split
  · next hzero =>
      rw [ofChars?_digits_comma, hzero]
      rfl
  · next hone hzero =>
      rw [ofChars?_digits_comma]
      cases count with
      | zero => exact absurd rfl hzero
      | succ count => rfl

/-- A line alone, the place between two lines, and two lines, all behind four lines. -/
example : Diff.Hunk.rangeText 4 1 = "5" ∧ Diff.Hunk.rangeText 4 0 = "4,0" ∧
    Diff.Hunk.rangeText 4 2 = "5,2" := by decide

/-- A range is written in digits and commas. -/
theorem not_mem_rangeText {c : Char} (hc : Decimal.isDigit c = false) (hcomma : c ≠ ',')
    (start count : Nat) : c ∉ (Diff.Hunk.rangeText start count).toList := by
  have hboth (m n : Nat) : c ∉ Decimal.digits m ++ ',' :: Decimal.digits n := by
    simp [Decimal.not_mem_digits hc, hcomma]
  rw [toList_rangeText]
  split
  · exact Decimal.not_mem_digits hc _
  split
  · exact hboth _ _
  · exact hboth _ _

/-! ## Hunks -/

theorem toList_header (h : Diff.Hunk) : h.header.toList =
    ['@', '@'] ++ ' ' :: (('-' :: (Diff.Hunk.rangeText h.oldStart h.oldCount).toList) ++
      ' ' :: (('+' :: (Diff.Hunk.rangeText h.newStart h.newCount).toList) ++
        ' ' :: ['@', '@'])) := by
  rw [Diff.Hunk.header]
  simp only [String.toList_append, List.append_assoc]
  rfl

theorem header?_header (h : Diff.Hunk) : header? h.header = some h.stated.ranges := by
  have hblank (start count : Nat) : ' ' ∉ (Diff.Hunk.rangeText start count).toList :=
    not_mem_rangeText rfl (by decide) start count
  have hold : ' ' ∉ '-' :: (Diff.Hunk.rangeText h.oldStart h.oldCount).toList := by
    simp [hblank]
  have hnew : ' ' ∉ '+' :: (Diff.Hunk.rangeText h.newStart h.newCount).toList := by
    simp [hblank]
  rw [header?, toList_header, List.splitOn_append_cons_self_of_not_mem (by decide),
    List.splitOn_append_cons_self_of_not_mem hold, List.splitOn_append_cons_self_of_not_mem hnew,
    List.splitOn_eq_singleton (by decide)]
  simp only [ofChars?_rangeText]
  rfl

theorem markedLine?_header (h : Diff.Hunk) : markedLine? h.header = none := by
  rw [markedLine?, toList_header]
  rfl

theorem newline_not_mem_header (h : Diff.Hunk) : '\n' ∉ h.header.toList := by
  have hrange (start count : Nat) : '\n' ∉ (Diff.Hunk.rangeText start count).toList :=
    not_mem_rangeText rfl (by decide) start count
  rw [toList_header]
  simp [hrange]

/-- Each line of a hunk is a line of one of the texts. -/
theorem Describes.mem_texts {radius : Nat} {hunks : List Hunk} {texts : Side → List String}
    (h : Describes radius hunks texts) {hunk : Hunk} (hhunk : hunk ∈ hunks) {l : Mark × String}
    (hl : l ∈ hunk.lines) : ∃ side, l.2 ∈ texts side := by
  obtain ⟨side, hside⟩ : ∃ side, l.1.isOf side = true := by
    cases l.1 with
    | same => exact ⟨.old, rfl⟩
    | deleted => exact ⟨.old, rfl⟩
    | inserted => exact ⟨.new, rfl⟩
  have hmem : l.2 ∈ hunk.textOf side :=
    List.mem_map_of_mem (List.mem_filter.mpr ⟨hl, hside⟩)
  rw [← h.shown hunk hhunk side] at hmem
  exact ⟨side, List.mem_of_mem_drop (List.mem_of_mem_take hmem)⟩

end Unified

end TaskTags.Diff
