/-!
Warnings and deprecations of a unit of work, each distinct one once, in the order of its first
recording.
-/

namespace TaskTags

structure Deprecation where
  message : String
  version : Option String
  date : Option String
  collection : Option String
deriving DecidableEq, Inhabited

structure Diagnostics where
  warnings : List String
  deprecations : List Deprecation
deriving DecidableEq, Inhabited

namespace Diagnostics

def empty : Diagnostics := ⟨[], []⟩

def isEmpty (d : Diagnostics) : Bool :=
  d.warnings.isEmpty && d.deprecations.isEmpty

def record {α : Type} [DecidableEq α] (x : α) (xs : List α) : List α :=
  if x ∈ xs then xs else xs ++ [x]

def warn (d : Diagnostics) (message : String) : Diagnostics :=
  { d with warnings := record message d.warnings }

def noteDeprecation (d : Diagnostics) (deprecation : Deprecation) : Diagnostics :=
  { d with deprecations := record deprecation d.deprecations }

/-- What has been recorded, and diagnostics without it. -/
def drain (d : Diagnostics) : Diagnostics × Diagnostics :=
  (d, empty)

end Diagnostics
end TaskTags
