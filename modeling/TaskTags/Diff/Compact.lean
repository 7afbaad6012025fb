import TaskTags.Diff.Edit

/-!
Compaction of a script. Insertions and deletions are moved up and then down past their neighbours,
so that equal edits meet and merge; an insertion moves along kept lines that it can be turned with.
-/

namespace TaskTags.Diff

/-- A script with one edit in focus, the edits before it in reverse. -/
structure Focus where
  before : List Edit
  edit : Edit
  after : List Edit

/-- Lines in front of kept lines, with those that follow. -/
def pushKeep (ls : List String) : List Edit → List Edit
  | .keep more :: rest => .keep (ls ++ more) :: rest
  | rest => .keep ls :: rest

/-- Lines behind kept lines; the edits are in reverse. -/
def pushKeepBack (ls : List String) : List Edit → List Edit
  | .keep more :: rest => .keep (more ++ ls) :: rest
  | rest => .keep ls :: rest

/-- The number of lines by which an insertion can move up into kept lines; a deletion never does. -/
def slideUp (kept : List String) : Edit → Nat
  | .insert ls => commonSuffix kept ls
  | _ => 0

def slideDown (kept : List String) : Edit → Nat
  | .insert ls => commonPrefix kept ls
  | _ => 0

/-- The lines of an edit with the last ones in front. -/
def rotateUp (n : Nat) : Edit → Edit
  | .insert ls => .insert (ls.drop (ls.length - n) ++ ls.take (ls.length - n))
  | e => e

def rotateDown (n : Nat) : Edit → Edit
  | .insert ls => .insert (ls.drop n ++ ls.take n)
  | e => e

def shiftUp : Nat → Focus → Focus
  | 0, f => f
  | fuel + 1, ⟨before, edit, after⟩ =>
    match before, edit with
    | .keep kept :: rest, e =>
      let n := slideUp kept e
      if n > 0 then
        let left := kept.take (kept.length - n)
        let moved := kept.drop (kept.length - n)
        let before := if left.isEmpty then rest else .keep left :: rest
        shiftUp fuel ⟨before, rotateUp n e, pushKeep moved after⟩
      else if kept.isEmpty then shiftUp fuel ⟨rest, e, after⟩
      else ⟨.keep kept :: rest, e, after⟩
    | .insert ls :: rest, .insert ls' => shiftUp fuel ⟨rest, .insert (ls ++ ls'), after⟩
    | .delete ls :: rest, .delete ls' => shiftUp fuel ⟨rest, .delete (ls ++ ls'), after⟩
    | e' :: rest, e => shiftUp fuel ⟨rest, e, e' :: after⟩
    | [], e => ⟨[], e, after⟩

def shiftDown : Nat → Focus → Focus
  | 0, f => f
  | fuel + 1, ⟨before, edit, after⟩ =>
    match after, edit with
    | .keep kept :: rest, e =>
      let n := slideDown kept e
      if n > 0 then
        let left := kept.drop n
        let after := if left.isEmpty then rest else .keep left :: rest
        shiftDown fuel ⟨pushKeepBack (kept.take n) before, rotateDown n e, after⟩
      else if kept.isEmpty then shiftDown fuel ⟨before, e, rest⟩
      else ⟨before, e, .keep kept :: rest⟩
    | .insert ls :: rest, .insert ls' => shiftDown fuel ⟨before, .insert (ls' ++ ls), rest⟩
    | .delete ls :: rest, .delete ls' => shiftDown fuel ⟨before, .delete (ls' ++ ls), rest⟩
    | e' :: rest, e => shiftDown fuel ⟨e' :: before, e, rest⟩
    | [], e => ⟨before, e, []⟩

/-- Every move takes a line or an edit from one side of the focus. -/
def weight (script : Script) : Nat :=
  (script.flatMap (·.lines)).length + script.length

/-- Compacts the edits of one kind, from the top to the bottom. -/
def compactKind (ofKind : Edit → Bool) : Nat → List Edit → List Edit → Script
  | 0, before, after => before.reverse ++ after
  | _ + 1, before, [] => before.reverse
  | fuel + 1, before, e :: after =>
    if ofKind e then
      let up := shiftUp (weight before + 1) ⟨before, e, after⟩
      let down := shiftDown (weight up.after + 1) up
      compactKind ofKind fuel (down.edit :: down.before) down.after
    else
      compactKind ofKind fuel (e :: before) after

def isDelete : Edit → Bool
  | .delete _ => true
  | _ => false

def isInsert : Edit → Bool
  | .insert _ => true
  | _ => false

def compact (script : Script) : Script :=
  let deleted := compactKind isDelete (2 * weight script + 1) [] script
  compactKind isInsert (2 * weight deleted + 1) [] deleted

end TaskTags.Diff
