import TaskTags.Playbook.Listing
import TaskTags.Proofs.Text.Ansi

/-!
# Listings with and without colors

A listing in colors is the plain one with codes in it, but for the status of selected tasks: only
the plain status is filled up with a blank, as wide as the word for tasks that are skipped.
-/

namespace TaskTags

open Text

/-- A plain text and another one, from which the blank behind so many of the plain statuses of
selected tasks is gone. -/
inductive Unpadded : Nat → List Char → List Char → Prop where
  | nil : Unpadded 0 [] []
  | char {n : Nat} {xs ys : List Char} (c : Char) (rest : Unpadded n xs ys) :
      Unpadded n (c :: xs) (c :: ys)
  | column {n : Nat} {xs ys : List Char} (rest : Unpadded n xs ys) :
      Unpadded (n + 1) ("  [run ] ".toList ++ xs) ("  [run] ".toList ++ ys)

namespace Unpadded

variable {m n : Nat} {xs ys xs' ys' : List Char}

theorem refl (xs : List Char) : Unpadded 0 xs xs := by
  induction xs with
  | nil => exact .nil
  | cons c xs ih => exact .char c ih

theorem append (h : Unpadded m xs ys) (h' : Unpadded n xs' ys') :
    Unpadded (m + n) (xs ++ xs') (ys ++ ys') := by
  induction h with
  | nil => rwa [Nat.zero_add]
  | char c rest ih => exact .char c ih
  | column rest ih =>
      rw [Nat.add_right_comm, List.append_assoc, List.append_assoc]
      exact .column ih

theorem length_eq (h : Unpadded n xs ys) : xs.length = ys.length + n := by
  induction h with
  | nil => rfl
  | char c rest ih =>
      rw [List.length_cons, List.length_cons, ih, Nat.add_right_comm]
  | column rest ih =>
      rw [List.length_append, List.length_append, ih]
      show 9 + _ = 8 + _ + _
      omega

theorem eq_of_eq_zero (h : Unpadded n xs ys) (hn : n = 0) : ys = xs := by
  induction h with
  | nil => rfl
  | char c rest ih => rw [ih hn]
  | column rest ih => cases hn

theorem eq_iff (h : Unpadded n xs ys) : ys = xs ↔ n = 0 := by
  constructor
  · rintro rfl
    have hlength := h.length_eq
    omega
  · exact h.eq_of_eq_zero

end Unpadded

/-- A plain text and a painted one, both of which end outside of codes. Without its codes the latter
is the former but for the blank behind so many statuses. -/
structure Repaints (n : Nat) (plain painted : String) : Prop where
  closedPlain : Closed plain
  closedPainted : Closed painted
  unpadded : Unpadded n (unstyled plain) (unstyled painted)

namespace Repaints

variable {m n : Nat} {s t plain painted plain' painted' : String} {α : Type}

theorem append (h : Repaints m plain painted) (h' : Repaints n plain' painted') :
    Repaints (m + n) (plain ++ plain') (painted ++ painted') where
  closedPlain := h.closedPlain.append h'.closedPlain
  closedPainted := h.closedPainted.append h'.closedPainted
  unpadded := by
    rw [h.closedPlain, h.closedPainted]
    exact h.unpadded.append h'.unpadded

theorem colors_append (h : Repaints 0 plain painted) (h' : Repaints n plain' painted') :
    Repaints n (plain ++ plain') (painted ++ painted') := by
  rw [← Nat.zero_add n]
  exact h.append h'

theorem of_closed (h : Closed s) : Repaints 0 s s :=
  ⟨h, h, .refl _⟩

theorem of_not_mem (h : escape ∉ s.toList) : Repaints 0 s s :=
  of_closed (.of_not_mem h)

theorem empty : Repaints 0 "" "" :=
  of_not_mem (by decide)

theorem of_separates (s : String) (ht : Separates t) : Repaints 0 (s ++ t) (s ++ t) :=
  of_closed (.of_separates s ht)

theorem paint (style : Style) (s : String) (ht : Separates t) :
    Repaints 0 (s ++ t) (paint true style s ++ t) where
  closedPlain := .of_separates s ht
  closedPainted := (closed_paint style s).append (.of_not_mem ht.2)
  unpadded := by
    have hs := ht.unstyled_append s ""
    rw [String.append_empty] at hs
    rw [hs, unstyled_paint_append]
    exact .refl _

/-- Parts one behind the other, with those marked among which a blank is gone. -/
theorem join {f g : α → String} {marked : α → Bool} {xs : List α}
    (h : ∀ x ∈ xs, Repaints (if marked x then 1 else 0) (f x) (g x)) :
    Repaints (xs.countP marked) (String.join (xs.map f)) (String.join (xs.map g)) := by
  induction xs with
  | nil => exact empty
  | cons x xs ih =>
      have hrest := ih fun y hy => h y (List.mem_cons_of_mem x hy)
      rw [List.map_cons, List.map_cons, String.join_cons, String.join_cons, List.countP_cons,
        Nat.add_comm]
      exact (h x List.mem_cons_self).append hrest

end Repaints

theorem TagSet.repaints_paint (tags : TagSet) :
    Repaints 0 (tags.paint false ++ "]\n") (tags.paint true ++ "]\n") :=
  .paint .yellow tags.display (by decide)

namespace TaskSelection

/-- The line of a task up to its name. -/
def opening (color showStatus : Bool) (t : TaskSelection) : String :=
  "  " ++ if showStatus then "[" ++ t.status color ++ "] " else ""

/-- The name of a task with its blocks, its section and its module. -/
def label (showAction : Bool) (t : TaskSelection) : String :=
  String.join (t.blocks.map (· ++ " : ")) ++ t.name ++
    (if t.section = .handlers then " [handler]" else "") ++
    match t.action with
    | some action => if showAction then " (" ++ action ++ ")" else ""
    | none => ""

theorem line_eq (color showStatus showAction : Bool) (t : TaskSelection) :
    t.line color showStatus showAction
      = t.opening color showStatus ++ (t.label showAction ++ "\tTAGS: [" ++
          (t.tags.paint color ++ "]\n")) := by
  cases haction : t.action <;> simp only [line, opening, label, haction, String.append_assoc]

theorem repaints_opening (showStatus : Bool) (t : TaskSelection) :
    Repaints (if showStatus && t.selected then 1 else 0) (t.opening false showStatus)
      (t.opening true showStatus) := by
  cases showStatus with
  | false =>
      apply Repaints.of_not_mem (s := "  ")
      decide
  | true =>
      rw [Bool.true_and]
      cases hselected : t.selected with
      | false =>
          have hplain : t.opening false true = "  [" ++ ("skip" ++ "] ") := by
            simp [opening, status, hselected]
          have hpainted : t.opening true true
              = "  [" ++ (Text.paint true .cyan "skip" ++ "] ") := by
            simp [opening, status, hselected, ← String.append_assoc]
          rw [hplain, hpainted]
          apply Repaints.colors_append (.of_not_mem (by decide))
          exact .paint .cyan "skip" (by decide)
      | true =>
          -- Of the two words only this one is filled up where it is plain.
          have hplain : t.opening false true = "  [run ] " := by
            simp [opening, status, hselected]
          have hpainted : t.opening true true
              = "  [" ++ Text.paint true .green "run" ++ "] " := by
            simp [opening, status, hselected, ← String.append_assoc]
          have hclosed : Closed ("  [" ++ Text.paint true .green "run" ++ "] ") :=
            .of_separates _ (by decide)
          rw [hplain, hpainted]
          exact ⟨.of_not_mem (by decide), hclosed, .column .nil⟩

theorem repaints_line (showStatus showAction : Bool) (t : TaskSelection) :
    Repaints (if showStatus && t.selected then 1 else 0) (t.line false showStatus showAction)
      (t.line true showStatus showAction) := by
  have htags : Repaints 0 (t.label showAction ++ "\tTAGS: [" ++ (t.tags.paint false ++ "]\n"))
      (t.label showAction ++ "\tTAGS: [" ++ (t.tags.paint true ++ "]\n")) :=
    .colors_append (.of_separates _ (by decide)) t.tags.repaints_paint
  rw [line_eq, line_eq]
  exact (t.repaints_opening showStatus).append htags

end TaskSelection

namespace PlaySelection

theorem repaints_header (p : PlaySelection) : Repaints 0 (p.header false) (p.header true) := by
  let title := "PLAY [" ++ p.name ++ "]"
  let stars := "".pushn '*' (headerWidth - (title.utf8ByteSize + 1))
  have hheader : ∀ color, p.header color
      = "\n" ++ (Text.paint color .boldWhite title ++ " " ++
          (Text.paint color .gray stars ++ "\n")) := by
    intro color
    simp only [header, String.append_assoc, title, stars]
  have htitle : Repaints 0 (title ++ " ") (Text.paint true .boldWhite title ++ " ") :=
    .paint .boldWhite title (by decide)
  have hstars : Repaints 0 (stars ++ "\n") (Text.paint true .gray stars ++ "\n") :=
    .paint .gray stars (by decide)
  rw [hheader, hheader]
  exact .colors_append (.of_not_mem (by decide)) (htitle.colors_append hstars)

theorem repaints_tagsLine (p : PlaySelection) :
    Repaints 0 (p.tagsLine false) (p.tagsLine true) := by
  rw [tagsLine, tagsLine]
  split
  · exact .empty
  · rw [String.append_assoc, String.append_assoc]
    exact .colors_append (.of_not_mem (by decide)) p.tags.repaints_paint

theorem repaints_lines (showSkipped showAction : Bool) (p : PlaySelection) :
    Repaints (if showSkipped then p.selected else []).length
      (p.lines false showSkipped showAction) (p.lines true showSkipped showAction) := by
  have hcount : (p.tasks.filter fun t => t.selected || showSkipped).countP
        (fun t => showSkipped && t.selected)
      = (if showSkipped then p.selected else []).length := by
    cases showSkipped with
    | false => simp
    | true => simp [selected, List.countP_eq_length_filter]
  rw [lines, lines, ← hcount]
  apply Repaints.colors_append (p.repaints_header.colors_append p.repaints_tagsLine)
  exact .join fun t _ => t.repaints_line showSkipped showAction

end PlaySelection
end TaskTags
