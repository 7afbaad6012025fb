import TaskTags.Diff.Hunk
import TaskTags.Report
import TaskTags.Text.Ansi

/-!
The difference of values as a unified diff of their JSON texts.
-/

namespace TaskTags.ValueDiff

def textLines (values : Bindings) : List String :=
  (((Json.obj values).prettyChars 2 0).splitOn '\n').map String.ofList

/-- The number of equal lines around a change. -/
def radius : Nat := 3

def markedLine (color : Bool) : Diff.Mark × String → String
  | (.same, line) => " " ++ line
  | (.deleted, line) => Text.paint color .red ("-" ++ line)
  | (.inserted, line) => Text.paint color .green ("+" ++ line)

def header (color : Bool) : List String :=
  [Text.paint color .red "--- before", Text.paint color .green "+++ after"]

def hunks (d : ValueDiff) : List Diff.Hunk :=
  Diff.hunks radius (textLines d.before) (textLines d.after)

/-- The lines of the diff: a header of two lines, then each hunk under a line with its place. -/
def diffLines (d : ValueDiff) (color : Bool) : List String :=
  header color ++ d.hunks.flatMap fun hunk => hunk.header :: hunk.lines.map (markedLine color)

def render (d : ValueDiff) (color : Bool) : String :=
  String.join ((d.diffLines color).map (· ++ "\n"))

end TaskTags.ValueDiff
