import TaskTags.Diff.Myers
import TaskTags.Diff.Compact

/-!
Hunks of a unified diff: the changes of a script with a few equal lines around them, and the line
numbers at which they stand in both texts.
-/

namespace TaskTags.Diff

/-- A run of equal lines, or a change with the lines it deletes and inserts. -/
inductive Block where
  | same (lines : List String)
  | change (deleted inserted : List String)
deriving DecidableEq, Inhabited

def Block.oldLines : Block → List String
  | .same ls => ls
  | .change ds _ => ds

def Block.newLines : Block → List String
  | .same ls => ls
  | .change _ is => is

/-- Puts an edit in front of blocks; neighbouring deletions and insertions make one change. -/
def consEdit : Edit → List Block → List Block
  | .keep ls, .same more :: rest => .same (ls ++ more) :: rest
  | .keep ls, rest => .same ls :: rest
  | .delete ls, .change ds is :: rest => .change (ls ++ ds) is :: rest
  | .delete ls, rest => .change ls [] :: rest
  | .insert ls, .change ds is :: rest => .change ds (ls ++ is) :: rest
  | .insert ls, rest => .change [] ls :: rest

def blocks (script : Script) : List Block :=
  script.foldr consEdit []

inductive Mark where
  | same
  | deleted
  | inserted
deriving DecidableEq, Inhabited

/-- Line numbers count the lines in front. -/
structure Hunk where
  oldStart : Nat
  newStart : Nat
  blocks : List Block
deriving Inhabited

namespace Hunk

def oldCount (h : Hunk) : Nat :=
  (h.blocks.flatMap (·.oldLines)).length

def newCount (h : Hunk) : Nat :=
  (h.blocks.flatMap (·.newLines)).length

/-- The lines of the hunk with their marks, in a change the deleted ones first. -/
def lines (h : Hunk) : List (Mark × String) :=
  h.blocks.flatMap fun
    | .same ls => ls.map (Mark.same, ·)
    | .change ds is => ds.map (Mark.deleted, ·) ++ is.map (Mark.inserted, ·)

/-- First line and number of lines; a single line goes without number, and a range without lines
starts at the line in front of it. -/
def rangeText (start count : Nat) : String :=
  if count = 1 then toString (start + 1)
  else if count = 0 then toString start ++ ",0"
  else toString (start + 1) ++ "," ++ toString count

def header (h : Hunk) : String :=
  "@@ -" ++ rangeText h.oldStart h.oldCount ++ " +" ++ rangeText h.newStart h.newCount ++ " @@"

def isChanged (h : Hunk) : Bool :=
  h.blocks.any fun
    | .same _ => false
    | .change .. => true

end Hunk

/-- Collects hunks from blocks at given line numbers; `current` holds the blocks of the hunk under
way in reverse. Equal lines that are too many for one hunk end it and start the next. -/
def collect (radius : Nat) : (old new : Nat) → (start : Nat × Nat) → (current : List Block) →
    List Block → List Hunk
  | _, _, start, current, [] => [⟨start.1, start.2, current.reverse⟩]
  | old, new, start, current, .same ls :: rest =>
    let n := ls.length
    let skipped := n - radius
    if current.isEmpty then
      collect radius (old + n) (new + n) (old + skipped, new + skipped) [.same (ls.drop skipped)] rest
    else if rest.isEmpty then
      [⟨start.1, start.2, (.same (ls.take radius) :: current).reverse⟩]
    else if 2 * radius < n then
      ⟨start.1, start.2, (.same (ls.take radius) :: current).reverse⟩ ::
        collect radius (old + n) (new + n) (old + skipped, new + skipped)
          [.same (ls.drop skipped)] rest
    else
      collect radius (old + n) (new + n) start (.same ls :: current) rest
  | old, new, start, current, .change ds is :: rest =>
    collect radius (old + ds.length) (new + is.length)
      (if current.isEmpty then (old, new) else start) (.change ds is :: current) rest

/-- The hunks between two texts with a number of equal lines around each change. -/
def hunks (radius : Nat) (xs ys : List String) : List Hunk :=
  (collect radius 0 0 (0, 0) [] (blocks (compact (shortestScript xs ys)))).filter Hunk.isChanged

end TaskTags.Diff
