import TaskTags.Environment

/-!
Files in memory, found by relative paths.
-/

namespace TaskTags

/-- Files by their paths below the directory that a program runs in. -/
structure FileTree where
  files : List (List String × String)
deriving Inhabited

namespace FileTree

/-- The parts of a path, those of no effect included. -/
def parts (path : String) : List String :=
  (path.toList.splitOn '/').map String.ofList

def ofList (files : List (String × String)) : FileTree :=
  ⟨files.map fun (path, text) => (parts path, text)⟩

def at? (tree : FileTree) (place : List String) : PathState :=
  match tree.files.lookup place with
  | some text => .file text
  | none =>
    if place.isEmpty || tree.files.any fun (names, _) => place.isPrefixOf names then .directory
    else .missing

def follow (tree : FileTree) (place : List String) : List String → PathState × List String
  | [] => (tree.at? place, place)
  | part :: rest =>
    match tree.at? place with
    | .directory =>
      if part = "" || part = "." then tree.follow place rest
      else if part = ".." then
        if place.isEmpty then (.missing, place) else tree.follow place.dropLast rest
      else tree.follow (place ++ [part]) rest
    | .file _ => (.blocked, place)
    | state => (state, place)

/-- What a path leads to. Nothing is known outside of the directory. -/
def lookup (tree : FileTree) (path : String) : PathState :=
  match parts path with
  | "" :: _ => .missing
  | ps => (tree.follow [] ps).1

/-- A new file needs a directory to stand in. -/
def canAppend (tree : FileTree) (path : String) : Bool :=
  match tree.lookup path with
  | .file _ => true
  | .missing =>
    let ps := parts path
    ps.head? ≠ some "" && ps.getLast? ≠ some "" && (tree.follow [] ps.dropLast).1 = .directory
  | _ => false

/-- A system of these files alone. Its user has no account, and its readers add nothing. -/
def environment (tree : FileTree) (vars : List (String × String)) (isTerminal : Bool) :
    Environment where
  vars
  files := tree.lookup
  canAppend := tree.canAppend
  homeDirectory? := (vars.lookup "HOME").filter (· ≠ "")
  isTerminal
  remark := fun _ => ""

end FileTree
end TaskTags
