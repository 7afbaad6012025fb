import TaskTags.Error

/-!
What a program sees of the system around it: variables, files, the home of its user and whether its
output is a terminal. What the readers of documents and templates say of an error is of the system
as well, as their words depend on the versions of them that are there.
-/

namespace TaskTags

inductive PathState where
  | missing
  /-- A part of the path is a file. -/
  | blocked
  | directory
  | file (text : String)
  | unreadable (reason : String)
deriving DecidableEq, Inhabited

namespace PathState

def isPresent : PathState → Bool
  | .missing | .blocked => false
  | _ => true

/-- The text of a file, or why there is none. -/
def read : PathState → Except FileFault String
  | .missing => .error (.unreadable "No such file or directory (os error 2)")
  | .blocked => .error (.unreadable "Not a directory (os error 20)")
  | .directory => .error (.unreadable "Is a directory (os error 21)")
  | .file text => .ok text
  | .unreadable reason => .error (.unreadable reason)

end PathState

structure Environment where
  vars : List (String × String)
  files : String → PathState
  /-- Whether a file at a path can be opened for more text. -/
  canAppend : String → Bool
  /-- The directory that the variable of the home names, or else that of the user's account. -/
  homeDirectory? : Option String
  /-- Whether the output goes to a terminal. -/
  isTerminal : Bool
  /-- What a reader of documents or templates adds to the text of an error. -/
  remark : Error → String
deriving Inhabited

namespace Environment

def value? (env : Environment) (name : String) : Option String :=
  env.vars.lookup name

def isSet (env : Environment) (name : String) : Bool :=
  (env.value? name).isSome

/-- The text of an error with its causes, up to the remark of a reader. -/
def report (env : Environment) (e : Error) : String :=
  e.report ++ env.remark e

end Environment

end TaskTags
