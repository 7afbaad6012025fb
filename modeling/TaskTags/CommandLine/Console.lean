import TaskTags.Error

/-!
Programs that print as they run.
-/

namespace TaskTags.CommandLine

structure Printed where
  stdout : String
  stderr : String
deriving DecidableEq, Inhabited

namespace Printed

def empty : Printed := ⟨"", ""⟩

instance : Append Printed := ⟨fun p q => ⟨p.stdout ++ q.stdout, p.stderr ++ q.stderr⟩⟩

end Printed

/-- A program that prints as it runs. Where it fails, what it has printed by then stays printed. -/
abbrev Console := ExceptT Error (StateM Printed)

namespace Console

def print (text : String) : Console Unit :=
  modify (· ++ ⟨text, ""⟩)

def printError (text : String) : Console Unit :=
  modify (· ++ ⟨"", text⟩)

/-- What a program comes to and all that it prints. -/
def start {α : Type} (p : Console α) : Except Error α × Printed :=
  p.run.run .empty

end Console
end TaskTags.CommandLine
