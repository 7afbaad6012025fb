import TaskTags.Proofs.Diff.Reading
import TaskTags.Proofs.Text.Pieces
import TaskTags.Report.DiffText

/-!
# A shown difference is a patch

The text of a difference without colors is read back as its hunks. These describe the JSON texts of
the values before and after and lead from the first one to the second.
-/

namespace TaskTags.ValueDiff

open Diff (Mark Side)
open Diff.Unified (Describes body? hunks? lines? header? markedLine? patchText?)

/-! ## Reading the hunks back -/

theorem markedLine?_markedLine (l : Mark × String) : markedLine? (markedLine false l) = some l := by
  obtain ⟨mark, line⟩ := l
  cases mark <;> simp [markedLine, Text.paint, markedLine?, String.toList_append]

theorem body?_markedLines {rest : List String} {hunks : List Diff.Unified.Hunk}
    (hrest : body? rest = some ([], hunks)) (marked : List (Mark × String)) :
    body? (marked.map (markedLine false) ++ rest) = some (marked, hunks) := by
  induction marked with
  | nil => exact hrest
  | cons l marked ih =>
      rw [List.map_cons, List.cons_append, body?, ih, markedLine?_markedLine]
      rfl

theorem body?_hunks (hunks : List Diff.Hunk) :
    body? (hunks.flatMap fun hunk => hunk.header :: hunk.lines.map (markedLine false))
      = some ([], hunks.map Diff.Hunk.stated) := by
  induction hunks with
  | nil => rfl
  | cons hunk hunks ih =>
      rw [List.flatMap_cons, List.cons_append, body?, body?_markedLines ih,
        Diff.Unified.markedLine?_header, Diff.Unified.header?_header]
      rfl

/-- The text of the values on one side. -/
def document (d : ValueDiff) (side : Side) : String :=
  (Json.obj (side.pick d.before d.after)).pretty ++ "\n"

def documentLines (d : ValueDiff) (side : Side) : List String :=
  textLines (side.pick d.before d.after)

theorem lines?_document (d : ValueDiff) (side : Side) :
    lines? (d.document side) = some (d.documentLines side) := by
  refine Diff.Unified.lines?_append_newline ?_
  rw [document, String.toList_append, Json.pretty, String.toList_ofList]
  rfl

theorem newline_not_mem_documentLines {d : ValueDiff} {side : Side} {line : String}
    (h : line ∈ d.documentLines side) : '\n' ∉ line.toList := by
  obtain ⟨piece, hpiece, rfl⟩ := List.mem_map.mp h
  rw [String.toList_ofList]
  exact Text.not_mem_of_mem_splitOn hpiece

theorem describes_hunks (d : ValueDiff) :
    Describes 3 (d.hunks.map Diff.Hunk.stated) d.documentLines := by
  have htexts : d.documentLines = Side.pick (textLines d.before) (textLines d.after) := by
    funext side
    cases side <;> rfl
  rw [htexts]
  exact Diff.describes_hunks radius (textLines d.before) (textLines d.after)

theorem newline_not_mem_diffLines {d : ValueDiff} {line : String} (h : line ∈ d.diffLines false) :
    '\n' ∉ line.toList := by
  rcases List.mem_append.mp h with hheader | hhunks
  · have hnone : ∀ line ∈ ["--- before", "+++ after"], '\n' ∉ line.toList := by decide
    exact hnone line hheader
  · obtain ⟨hunk, hhunk, hline⟩ := List.mem_flatMap.mp hhunks
    rcases List.mem_cons.mp hline with rfl | hline
    · exact Diff.Unified.newline_not_mem_header hunk
    · obtain ⟨l, hl, rfl⟩ := List.mem_map.mp hline
      obtain ⟨side, hside⟩ := d.describes_hunks.mem_texts (List.mem_map_of_mem hhunk) hl
      have hline := newline_not_mem_documentLines hside
      obtain ⟨mark, text⟩ := l
      cases mark <;> simpa [markedLine, Text.paint, String.toList_append] using hline

theorem hunks?_render (d : ValueDiff) :
    hunks? (d.render false) = some (d.hunks.map Diff.Hunk.stated) := by
  have hlines : lines? (d.render false) = some (d.diffLines false) :=
    Diff.Unified.lines?_joinLines fun _ => newline_not_mem_diffLines
  have hheader : header false = ["--- before", "+++ after"] := rfl
  rw [hunks?, hlines, diffLines, hheader, List.cons_append, List.singleton_append]
  simp only [body?_hunks]

/-! ## The patch -/

/-- The text of a difference is a unified diff with three equal lines around the changes. Its hunks
describe the texts of the values before and after, and applied to the first text it gives the
second. -/
theorem render_patches (d : ValueDiff) : ∃ hunks lines,
    hunks? (d.render false) = some hunks ∧ (∀ side, lines? (d.document side) = some (lines side)) ∧
      Describes 3 hunks lines ∧
      patchText? (d.render false) (d.document .old) = some (d.document .new) := by
  refine ⟨d.hunks.map Diff.Hunk.stated, d.documentLines, d.hunks?_render, d.lines?_document,
    d.describes_hunks, ?_⟩
  have hpatched : Diff.Unified.patch? 0 (d.hunks.map Diff.Hunk.stated) (d.documentLines .old)
      = some (d.documentLines .new) := Diff.patch_hunks radius _ _
  rw [patchText?, hunks?_render, lines?_document]
  simp only [Option.bind_eq_bind, Option.bind_some, hpatched]
  exact congrArg some (Diff.Unified.joinLines_of_lines? (d.lines?_document .new))

end TaskTags.ValueDiff
