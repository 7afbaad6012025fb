/-!
Edit scripts over lines. A script keeps, deletes and inserts runs of lines; `old` and `new` are the
two texts it leads from and to.
-/

namespace TaskTags.Diff

inductive Edit where
  | keep (lines : List String)
  | delete (lines : List String)
  | insert (lines : List String)
deriving DecidableEq, Inhabited

namespace Edit

def lines : Edit → List String
  | .keep ls => ls
  | .delete ls => ls
  | .insert ls => ls

def oldLines : Edit → List String
  | .keep ls => ls
  | .delete ls => ls
  | .insert _ => []

def newLines : Edit → List String
  | .keep ls => ls
  | .delete _ => []
  | .insert ls => ls

end Edit

abbrev Script := List Edit

namespace Script

def old (script : Script) : List String :=
  script.flatMap Edit.oldLines

def new (script : Script) : List String :=
  script.flatMap Edit.newLines

@[simp]
theorem old_nil : old [] = [] := rfl

@[simp]
theorem new_nil : new [] = [] := rfl

@[simp]
theorem old_cons (e : Edit) (script : Script) : old (e :: script) = e.oldLines ++ old script := by
  simp [old]

@[simp]
theorem new_cons (e : Edit) (script : Script) : new (e :: script) = e.newLines ++ new script := by
  simp [new]

@[simp]
theorem old_append (s t : Script) : old (s ++ t) = old s ++ old t := by
  simp [old]

@[simp]
theorem new_append (s t : Script) : new (s ++ t) = new s ++ new t := by
  simp [new]

end Script

def commonPrefix : List String → List String → Nat
  | x :: xs, y :: ys => if x = y then commonPrefix xs ys + 1 else 0
  | _, _ => 0

def commonSuffix (xs ys : List String) : Nat :=
  commonPrefix xs.reverse ys.reverse

end TaskTags.Diff
